/-
**Merging a written message lays it over the target.**

The target is any message, canonical or not, and keeps what the written one leaves open:

* `FooBar.Example1.merge_encode`: the merge comes to its end and leaves `FooBar.Example1.overlay`, in
  whose map every key has the written value, or else the value it had;
* `FooBar.Example1.merge_encode_shared`: two messages that meet in a list, in embedded messages, in a
  key and in the choice.
-/

import Protobuf.Proofs.Overlay

namespace Protobuf.FooBar.Example1

/-- **A written message, merged, is laid over the target member by member.** -/
theorem merge_encode (earlier later : Example1) (canonical : Message.IsCanonical later)
    (fits : Message.Fits later) :
    Message.merge (Message.encode later) earlier = ⟨overlay earlier later, none⟩ ∧
      ∀ key, (overlay earlier later).amap.get? key
        = (later.amap.get? key).or (earlier.amap.get? key) := by
  refine ⟨?_, fun key => ?_⟩
  · have makes := LawfulMessage.makes_encode later canonical fits
    rw [makes.merge_eq earlier, overlay_eq earlier canonical]
  · exact TextMap.get?_union earlier.amap later.amap key

/-- Lists are joined, embedded messages are laid over each other, and a shared key is the later one's,
as the choice is, whose value is its default. -/
theorem merge_encode_shared :
    Message.merge (M := Example1)
      (Message.encode (M := Example1) {
        astring := "later"
        manyint64 := [3]
        aexample2 := some {}
        aexample22 := some { aint32 := 2 }
        amap := .ofList [("key", "later"), ("new", "")]
        aoneof := some (.ooint 0) }) {
      aint32 := 1
      astring := "earlier"
      manyint64 := [1, 2]
      aexample2 := some { astring := "kept" }
      amap := .ofList [("key", "earlier"), ("old", "kept")]
      aoneof := some (.oostring "earlier") } = ⟨{
        aint32 := 1
        astring := "later"
        manyint64 := [1, 2, 3]
        aexample2 := some { astring := "kept" }
        aexample22 := some { aint32 := 2 }
        amap := .ofList [("key", "later"), ("new", ""), ("old", "kept")]
        aoneof := some (.ooint 0) }, none⟩ := by
  rw [(merge_encode _ _ ((isCanonical_iff _).mpr (by decide)) (by decide +kernel)).1]
  rfl

end Protobuf.FooBar.Example1
