/-
**Decoding never leaves the bytes it was given.**

A decoder is reached from some bytes if operations, done or failed, lead to it from the decoder over
these bytes. Copies and decoders over payloads count, and each of them may be used in turn.

* `Decoder.Sound`: the bytes left unread are the end of the span; so the position is the number of
  bytes in front of them (`Sound.position_add_remaining`);
* `Decoder.Advances`: a decoder later on, over the same span and no less far in it;
* `Decoder.Follows`: what may come of a decoder by one operation. A decoder over a payload spans that
  payload and nothing else, and the decoder that it was read off is right behind it;
* `Decoder.answers_step`: one operation on a decoder, which calls no primitive outside its domain;
* `Operation.Nested`, `Decoder.step_nested`: an operation that reads within a payload looks at nothing
  behind it, and leaves the decoder there whether it is done or fails;
* `Decoder.Reached.sound`: every decoder that is reached is sound;
* `Decoder.reached_run`: and those of a session are reached;
* `Decoder.reached_safe`: all this of the decoders over any bytes.
-/

import Protobuf.Decoder.Session
import Protobuf.Proofs.Safety

namespace Protobuf.Decoder

/-! ### Sound decoders -/

/-- What is left unread is the end of the span. -/
def Sound (decoder : Decoder) : Prop := decoder.unread <:+ decoder.span

variable {α : Type} {decoder next : Decoder}

theorem Sound.position_add_remaining (sound : decoder.Sound) :
    decoder.position + decoder.remaining = decoder.span.length :=
  Nat.sub_add_cancel sound.length_le

theorem Sound.unread_eq (sound : decoder.Sound) :
    decoder.unread = decoder.span.drop decoder.position :=
  List.suffix_iff_eq_drop.mp sound

theorem sound_ofBytes (bytes : Bytes) : (ofBytes bytes).Sound := List.suffix_refl bytes

/-- A decoder later on. -/
structure Advances (decoder next : Decoder) : Prop where
  /-- It has the same span. -/
  span : next.span = decoder.span
  /-- It has come no less far. -/
  position : decoder.position ≤ next.position
  /-- Nothing is left unread that was not. -/
  unread : next.unread <:+ decoder.unread

theorem advances_of_suffix {unread : Bytes} (suffix : unread <:+ decoder.unread) :
    decoder.Advances { decoder with unread } :=
  ⟨rfl, Nat.sub_le_sub_left suffix.length_le _, suffix⟩

theorem Advances.refl (decoder : Decoder) : decoder.Advances decoder :=
  advances_of_suffix (List.suffix_refl decoder.unread)

theorem Advances.sound (advances : decoder.Advances next) (sound : decoder.Sound) : next.Sound := by
  rw [Sound, advances.span]
  exact advances.unread.trans sound

/-! ### One operation -/

/-- The decoders of a session. -/
def Session.decoders (session : Session) : List Decoder := session.top :: session.below

/-- What may come of a decoder that is alone in a session by one operation. -/
inductive Follows (decoder : Decoder) : Operation → Session → Prop where
  /-- It is later on. -/
  | advanced {operation : Operation} {next : Decoder} :
    decoder.Advances next → Follows decoder operation ⟨next, []⟩
  /-- It is behind a payload, over which there is a decoder on top. -/
  | entered {header payload : Bytes} {next : Decoder} :
    decoder.Advances next → Payload.Announces header payload →
      decoder.unread = header ++ payload ++ next.unread →
      Follows decoder .enter ⟨ofBytes payload, [next]⟩
  /-- It has a copy on top. -/
  | forked : Follows decoder .fork ⟨decoder, [decoder]⟩

/-- The decoders that come of a sound one are sound. -/
theorem Follows.sound {operation : Operation} {session : Session}
    (follows : Follows decoder operation session) (sound : decoder.Sound) :
    ∀ next ∈ session.decoders, next.Sound := by
  cases follows with
  | advanced advances => exact List.forall_mem_singleton.mpr (advances.sound sound)
  | entered advances _ _ =>
    exact List.forall_mem_cons.mpr
      ⟨sound_ofBytes _, List.forall_mem_singleton.mpr (advances.sound sound)⟩
  | forked => exact List.forall_mem_cons.mpr ⟨sound, List.forall_mem_singleton.mpr sound⟩

/-- Whether an answer fails for the input alone, if it does, and leaves what may come of a decoder. -/
structure Answers (decoder : Decoder) (operation : Operation) (answer : Reply × Session) : Prop where
  /-- No primitive was called outside its domain. -/
  proper : ∀ fault ∈ answer.1.fault, fault.OfInput
  /-- What is left. -/
  follows : Follows decoder operation answer.2

theorem answers_read {reader : Reader α} (safe : reader.Safe) (operation : Operation)
    (finding : α → Finding) :
    Answers decoder operation (Session.read ⟨decoder, []⟩ reader finding) := by
  have ends := safe decoder.unread
  unfold Session.read Decoder.read
  cases taken : reader decoder.unread with
  | ok value unread =>
    rw [taken] at ends
    exact ⟨nofun, .advanced (advances_of_suffix ends)⟩
  | error fault unread =>
    rw [taken] at ends
    refine ⟨fun other same => ?_, .advanced (advances_of_suffix ends.1)⟩
    cases same
    exact ends.2

theorem answers_scan {scanner : Scanner α} (safe : scanner.Safe) (operation : Operation)
    (finding : List α → Finding) :
    Answers decoder operation (Session.scan ⟨decoder, []⟩ scanner finding) := by
  obtain ⟨suffix, proper⟩ := Scanner.safe_iff.mp safe decoder.unread
  exact ⟨proper, .advanced (advances_of_suffix suffix)⟩

/-- **One operation on a decoder**, whatever bytes are left to it. -/
theorem answers_step (decoder : Decoder) (operation : Operation) :
    Answers decoder operation (Session.step ⟨decoder, []⟩ operation) := by
  cases operation with
  | scalar type => exact answers_read type.read_safe _ _
  | tag => exact answers_read Tag.read_safe _ _
  | enter =>
    have ends := Payload.read_safe decoder.unread
    simp only [Session.step, Decoder.read]
    cases taken : Payload.read decoder.unread with
    | ok payload unread =>
      rw [taken] at ends
      obtain ⟨header, announces, same⟩ := Payload.announces_of_read taken
      exact ⟨nofun, .entered (advances_of_suffix ends) announces same⟩
    | error fault unread =>
      rw [taken] at ends
      refine ⟨fun other same => ?_, .advanced (advances_of_suffix ends.1)⟩
      cases same
      exact ends.2
  | fork => exact ⟨nofun, .forked⟩
  | leave => exact ⟨nofun, .advanced (.refl decoder)⟩
  | skip wire => exact answers_read (Payload.skip_safe wire) _ _
  | skipField =>
    exact answers_read (Tag.read_safe.bind fun tag => Payload.skip_safe tag.wire) _ _
  | «repeated» wire element type => exact answers_scan (Repeated.scan_safe wire element type) _ _
  | entry key value => exact answers_read (Entry.read_safe key value) _ _
  | message type =>
    exact answers_scan type.scan_safe.within (.message type)
      fun edits => .message type (Edit.all edits Message.empty)

/-! ### Operations within a payload -/

/-- Whether an operation reads within the next payload. -/
def Operation.Nested : Operation → Prop
  | .repeated wire element _ => Repeated.isPacked wire element = true
  | .entry _ _ | .message _ => True
  | _ => False

variable {header payload : Bytes} (announces : Payload.Announces header payload)
  (span more : Bytes) (below : List Decoder)

include announces

theorem within_announced (scanner : Scanner α) :
    Scanner.within scanner (header ++ payload ++ more) = { scanner payload with unread := more } := by
  simp only [Scanner.within, announces.reads more]

theorem scan_nested (scanner : Scanner α) (finding : List α → Finding) :
    Session.scan ⟨⟨span, header ++ payload ++ more⟩, below⟩ (Scanner.within scanner) finding
      = ((Session.scan ⟨⟨[], header ++ payload⟩, []⟩ (Scanner.within scanner) finding).1,
        ⟨⟨span, more⟩, below⟩) := by
  have alone := within_announced announces [] scanner
  rw [List.append_nil] at alone
  simp only [Session.scan, Decoder.scan, within_announced announces more scanner, alone]

theorem entry_nested (key value : ScalarType) (finding : key.Value × value.Value → Finding) :
    Session.read ⟨⟨span, header ++ payload ++ more⟩, below⟩ (Entry.read key value) finding
      = ((Session.read ⟨⟨[], header ++ payload⟩, []⟩ (Entry.read key value) finding).1,
        ⟨⟨span, more⟩, below⟩) := by
  have alone := within_announced announces [] (Entry.body key value)
  rw [List.append_nil] at alone
  simp only [Session.read, Decoder.read, Entry.read, alone,
    within_announced announces more (Entry.body key value)]
  cases (Entry.body key value payload).fault <;> rfl

/-- **What reads within a payload looks at nothing behind it.** The reply is that of the payload alone,
and the decoder is left behind it, whether the operation is done or fails. -/
theorem step_nested {operation : Operation} (nested : operation.Nested) :
    Session.step ⟨⟨span, header ++ payload ++ more⟩, below⟩ operation
      = ((Session.step ⟨⟨[], header ++ payload⟩, []⟩ operation).1, ⟨⟨span, more⟩, below⟩) := by
  cases operation with
  | «repeated» wire element type =>
    have run : Repeated.scan wire element type = Repeated.run type := if_pos nested
    simp only [Session.step, run]
    exact scan_nested announces span more below _ _
  | entry key value => exact entry_nested announces span more below key value _
  | message type =>
    exact scan_nested announces span more below (Message.scan type.Value)
      fun edits => .message type (Edit.all edits Message.empty)
  | scalar | tag | enter | fork | leave | skip | skipField => exact nested.elim

omit announces

/-! ### Any number of operations -/

/-- What comes of a decoder over some bytes by operations, on it and on what comes of it. -/
inductive Reached (bytes : Bytes) : Decoder → Prop where
  /-- The decoder over these bytes. -/
  | start : Reached bytes (ofBytes bytes)
  /-- What comes of one that is reached, the operation being done or not. -/
  | step {decoder next : Decoder} (operation : Operation) :
    Reached bytes decoder → next ∈ (Session.step ⟨decoder, []⟩ operation).2.decoders →
      Reached bytes next

/-- **Every decoder that is reached is sound.** -/
theorem Reached.sound {bytes : Bytes} {decoder : Decoder} (reached : Reached bytes decoder) :
    decoder.Sound := by
  induction reached with
  | start => exact sound_ofBytes bytes
  | @step decoder next operation _ member ih =>
    exact (answers_step decoder operation).follows.sound ih next member

theorem read_frame (top : Decoder) (below : List Decoder) (reader : Reader α) (finding : α → Finding) :
    Session.read ⟨top, below⟩ reader finding
      = ((Session.read ⟨top, []⟩ reader finding).1, ⟨(Session.read ⟨top, []⟩ reader finding).2.top,
        (Session.read ⟨top, []⟩ reader finding).2.below ++ below⟩) := by
  unfold Session.read Decoder.read
  cases reader top.unread <;> rfl

/-- An operation puts what comes of the top decoder in front of the others. -/
theorem step_frame {operation : Operation} (stays : operation ≠ .leave) (top : Decoder)
    (below : List Decoder) :
    Session.step ⟨top, below⟩ operation
      = ((Session.step ⟨top, []⟩ operation).1, ⟨(Session.step ⟨top, []⟩ operation).2.top,
        (Session.step ⟨top, []⟩ operation).2.below ++ below⟩) := by
  cases operation with
  | scalar type => exact read_frame top below _ _
  | tag => exact read_frame top below _ _
  | enter =>
    simp only [Session.step, Decoder.read]
    cases Payload.read top.unread <;> rfl
  | fork => rfl
  | leave => exact absurd rfl stays
  | skip wire => exact read_frame top below _ _
  | skipField => exact read_frame top below _ _
  | «repeated» wire element type => rfl
  | entry key value => exact read_frame top below _ _
  | message type => rfl

/-- **A session keeps to decoders that are reached.** -/
theorem reached_step {bytes : Bytes} {session : Session}
    (reached : ∀ decoder ∈ session.decoders, Reached bytes decoder) (operation : Operation) :
    (∀ fault ∈ (session.step operation).1.fault, fault.OfInput) ∧
      ∀ decoder ∈ (session.step operation).2.decoders, Reached bytes decoder := by
  obtain ⟨top, below⟩ := session
  obtain ⟨first, others⟩ := List.forall_mem_cons.mp reached
  by_cases left : operation = .leave
  · subst left
    cases below with
    | nil => exact ⟨nofun, reached⟩
    | cons next below => exact ⟨nofun, others⟩
  · rw [step_frame left]
    refine ⟨(answers_step top operation).proper, fun next member => ?_⟩
    rw [Session.decoders, ← List.cons_append, List.mem_append] at member
    exact member.elim (.step operation first) (others next)

/-- **The decoders of a session are reached**, and its replies are no misuses. -/
theorem reached_run {bytes : Bytes} {session : Session}
    (reached : ∀ decoder ∈ session.decoders, Reached bytes decoder) (operations : List Operation) :
    ∀ answer ∈ session.run operations,
      (∀ fault ∈ answer.1.fault, fault.OfInput) ∧ Reached bytes answer.2 := by
  induction operations generalizing session with
  | nil => exact fun _ member => nomatch member
  | cons operation operations ih =>
    obtain ⟨proper, later⟩ := reached_step reached operation
    exact List.forall_mem_cons.mpr ⟨⟨proper, later _ List.mem_cons_self⟩, ih later⟩

/-- **Decoding never leaves the bytes it was given**, nor calls a primitive outside its domain. The unread
bytes of every decoder that is reached are those behind its position. An operation on it fails for the
input alone, if it fails; it only moves the decoder forward, and a decoder that it puts over a payload
spans what was announced and no more. So do the decoders that operations use within a payload, since
what follows it makes no difference to them. All this holds of the steps of a session. The bytes of a
varint are taken as all others are, and it may be of any width. -/
theorem reached_safe (bytes : Bytes) :
    (∀ decoder, Reached bytes decoder →
      decoder.position + decoder.remaining = decoder.span.length ∧
      decoder.unread = decoder.span.drop decoder.position ∧
      ∀ operation,
        (∀ cause, (Session.step ⟨decoder, []⟩ operation).1.fault ≠ some (.misuse cause)) ∧
        Follows decoder operation (Session.step ⟨decoder, []⟩ operation).2) ∧
    (∀ operations, ∀ answer ∈ Session.run ⟨ofBytes bytes, []⟩ operations,
      (∀ cause, answer.1.fault ≠ some (.misuse cause)) ∧ Reached bytes answer.2) ∧
    (∀ operation : Operation, operation.Nested → ∀ header payload,
      Payload.Announces header payload → ∀ span more below,
        Session.step ⟨⟨span, header ++ payload ++ more⟩, below⟩ operation
          = ((Session.step ⟨⟨[], header ++ payload⟩, []⟩ operation).1, ⟨⟨span, more⟩, below⟩)) ∧
    ∀ width, 0 < width →
      (∀ given cause unread, Varint.read width given ≠ .error (.misuse cause) unread) ∧
      ∀ shift value, Varint.readFrom width shift value = Varint.round width shift value := by
  refine ⟨fun decoder reached => ?_, fun operations answer member => ?_,
    fun operation nested header payload announces span more below =>
      step_nested announces span more below nested,
    fun width positive => ⟨fun given cause unread failed => ?_, Varint.readFrom_eq_round width⟩⟩
  · refine ⟨reached.sound.position_add_remaining, reached.sound.unread_eq, fun operation => ?_⟩
    have answers := answers_step decoder operation
    exact ⟨fun cause failed => answers.proper _ failed, answers.follows⟩
  · have start : ∀ decoder ∈ Session.decoders ⟨ofBytes bytes, []⟩, Reached bytes decoder :=
      List.forall_mem_singleton.mpr .start
    obtain ⟨proper, reached⟩ := reached_run start operations answer member
    exact ⟨fun cause failed => proper _ failed, reached⟩
  · have ends := Varint.read_safe positive given
    rw [failed] at ends
    exact ends.2

/-- A payload of two bytes, entered; its tag is read, and then a value that is cut off. -/
theorem reached_safe_entered :
    Reached [0x02, 0x08, 0x80, 0x01] ⟨[0x08, 0x80], [0x80]⟩ ∧
      position ⟨[0x08, 0x80], [0x80]⟩ + remaining ⟨[0x08, 0x80], [0x80]⟩ = 2 ∧
      (Session.step ⟨⟨[0x08, 0x80], [0x80]⟩, []⟩ (.scalar .int32)).1.fault
        = some (.bufferOverrun 1 0) ∧
      ∀ cause, (Session.step ⟨⟨[0x08, 0x80], [0x80]⟩, []⟩ (.scalar .int32)).1.fault
        ≠ some (.misuse cause) := by
  have entered : Reached [0x02, 0x08, 0x80, 0x01] ⟨[0x08, 0x80], [0x08, 0x80]⟩ :=
    .step .enter .start List.mem_cons_self
  have reached : Reached [0x02, 0x08, 0x80, 0x01] ⟨[0x08, 0x80], [0x80]⟩ :=
    .step .tag entered List.mem_cons_self
  obtain ⟨whole, -, safe⟩ := (reached_safe [0x02, 0x08, 0x80, 0x01]).1 _ reached
  exact ⟨reached, whole, rfl, (safe (.scalar .int32)).1⟩

end Protobuf.Decoder
