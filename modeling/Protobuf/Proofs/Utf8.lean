/-
**UTF-8 is read back, and nothing else is read.**

A character is written in one to four bytes, by its size. The lead byte tells the reader how many
follow and which second bytes it admits; the bounds of `Lead.ofByte` are met because the writer never
writes an overlong form and a character is never a surrogate or above `U+10FFFF`.

* `head_one` … `head_four`: the character of each length is taken off, whatever follows;
* `decode_encode`: a string is read back from its bytes;
* `decode_eq_ok`: bytes that are read as a string are the bytes of that string. For what `head` takes
  off, the ranges that a lead byte announces (`Lead.range`) are those in which the writer writes as
  many bytes.
-/

import Protobuf.Utf8

namespace Protobuf.Utf8

/-! ### What a lead byte admits -/

theorem Lead.ofByte_two {code : Nat} (low : 0xC2 ≤ code) (high : code < 0xE0) :
    Lead.ofByte (UInt8.ofNat code) = some ⟨2, 0x80, 0xBF⟩ := by
  unfold Lead.ofByte
  rw [if_neg (by simp [UInt8.lt_iff_toNat_lt]; omega),
    if_pos (by simp [UInt8.lt_iff_toNat_lt]; omega)]

/-- The lead byte of three admits every second byte but overlong forms and surrogates. -/
theorem Lead.ofByte_three {code second : Nat} (low : 0xE0 ≤ code) (high : code < 0xF0)
    (continues : 0x80 ≤ second ∧ second ≤ 0xBF) (shortest : code = 0xE0 → 0xA0 ≤ second)
    (scalar : code = 0xED → second ≤ 0x9F) :
    ∃ lead, Lead.ofByte (UInt8.ofNat code) = some lead ∧ lead.length = 3 ∧
      lead.low ≤ UInt8.ofNat second ∧ UInt8.ofNat second ≤ lead.high := by
  unfold Lead.ofByte
  rw [if_neg (by simp [UInt8.lt_iff_toNat_lt]; omega),
    if_neg (by simp [UInt8.lt_iff_toNat_lt]; omega)]
  simp only [← UInt8.toNat_inj, UInt8.lt_iff_toNat_lt, UInt8.le_iff_toNat_le, UInt8.toNat_ofNat',
    UInt8.reduceToNat]
  split
  · refine ⟨_, rfl, rfl, ?_, ?_⟩ <;> simp <;> omega
  · split
    · refine ⟨_, rfl, rfl, ?_, ?_⟩ <;> simp <;> omega
    · rw [if_pos (by omega)]
      refine ⟨_, rfl, rfl, ?_, ?_⟩ <;> simp <;> omega

theorem Lead.ofByte_four {code second : Nat} (low : 0xF0 ≤ code) (high : code ≤ 0xF4)
    (continues : 0x80 ≤ second ∧ second ≤ 0xBF) (shortest : code = 0xF0 → 0x90 ≤ second)
    (scalar : code = 0xF4 → second ≤ 0x8F) :
    ∃ lead, Lead.ofByte (UInt8.ofNat code) = some lead ∧ lead.length = 4 ∧
      lead.low ≤ UInt8.ofNat second ∧ UInt8.ofNat second ≤ lead.high := by
  unfold Lead.ofByte
  rw [if_neg (by simp [UInt8.lt_iff_toNat_lt]; omega),
    if_neg (by simp [UInt8.lt_iff_toNat_lt]; omega),
    if_neg (by simp [← UInt8.toNat_inj]; omega), if_neg (by simp [← UInt8.toNat_inj]; omega),
    if_neg (by simp [UInt8.lt_iff_toNat_lt]; omega)]
  simp only [← UInt8.toNat_inj, UInt8.lt_iff_toNat_lt, UInt8.le_iff_toNat_le, UInt8.toNat_ofNat',
    UInt8.reduceToNat]
  split
  · refine ⟨_, rfl, rfl, ?_, ?_⟩ <;> simp <;> omega
  · split
    · refine ⟨_, rfl, rfl, ?_, ?_⟩ <;> simp <;> omega
    · rw [if_pos (by omega)]
      refine ⟨_, rfl, rfl, ?_, ?_⟩ <;> simp <;> omega


/-! ### Continuation bytes -/

theorem toNat_continuation {bits : Nat} (small : bits < 64) :
    (UInt8.ofNat (bits + 0x80)).toNat = bits + 0x80 := by
  rw [UInt8.toNat_ofNat']
  omega

theorem isContinuation_ofNat {bits : Nat} (small : bits < 64) :
    isContinuation (UInt8.ofNat (bits + 0x80)) = true := by
  have value := toNat_continuation small
  simp only [isContinuation, Bool.and_eq_true, decide_eq_true_eq, UInt8.le_iff_toNat_le, value,
    UInt8.reduceToNat]
  omega

theorem bits_ofNat {low : Nat} (small : low < 64) : bits (UInt8.ofNat (low + 0x80)) = low := by
  rw [bits, toNat_continuation small]
  omega

theorem in_range {lead : Lead} {byte : UInt8} (above : lead.low ≤ byte) (below : byte ≤ lead.high) :
    ¬ (byte < lead.low ∨ lead.high < byte) := by
  rintro (less | more)
  · exact UInt8.not_lt.mpr above less
  · exact UInt8.not_lt.mpr below more

/-! ### The four lengths -/

theorem head_one {code : Nat} (small : code < 0x80) (rest : Bytes) :
    head (UInt8.ofNat code) rest = .char (Char.ofNat code) rest := by
  have value : (UInt8.ofNat code).toNat = code := by
    rw [UInt8.toNat_ofNat']
    omega
  have ascii : UInt8.ofNat code < 0x80 := by
    rw [UInt8.lt_iff_toNat_lt, value]
    exact small
  unfold head
  rw [if_pos ascii, value]

theorem not_ascii {code : Nat} (low : 0x80 ≤ code) (byte : code < 0x100) :
    ¬ UInt8.ofNat code < 0x80 := by
  rw [UInt8.lt_iff_toNat_lt, UInt8.toNat_ofNat', show (0x80 : UInt8).toNat = 0x80 from rfl]
  omega

theorem head_two {code : Nat} (low : 0x80 ≤ code) (high : code < 0x800) (rest : Bytes) :
    head (UInt8.ofNat (code / 64 % 32 + 0xC0)) (UInt8.ofNat (code % 64 + 0x80) :: rest)
      = .char (Char.ofNat code) rest := by
  have lead := @Lead.ofByte_two (code / 64 % 32 + 0xC0) (by omega) (by omega)
  have second : ¬ (UInt8.ofNat (code % 64 + 0x80) < 0x80 ∨ 0xBF < UInt8.ofNat (code % 64 + 0x80)) := by
    simp only [UInt8.lt_iff_toNat_lt, toNat_continuation (Nat.mod_lt code (by decide : 0 < 64)),
      UInt8.reduceToNat]
    omega
  have value : (UInt8.ofNat (code / 64 % 32 + 0xC0)).toNat % 32 * 64 + code % 64 = code := by
    rw [UInt8.toNat_ofNat']
    omega
  unfold head
  rw [if_neg (not_ascii (by omega) (by omega)), lead]
  simp only [if_neg second, if_true, bits_ofNat (Nat.mod_lt code (by decide : 0 < 64)), value]

theorem head_three {code : Nat} (low : 0x800 ≤ code) (high : code < 0x10000)
    (scalar : code < 0xD800 ∨ 0xDFFF < code) (rest : Bytes) :
    head (UInt8.ofNat (code / 4096 % 16 + 0xE0))
        (UInt8.ofNat (code / 64 % 64 + 0x80) :: UInt8.ofNat (code % 64 + 0x80) :: rest)
      = .char (Char.ofNat code) rest := by
  obtain ⟨lead, announced, three, above, below⟩ := @Lead.ofByte_three
    (code / 4096 % 16 + 0xE0) (code / 64 % 64 + 0x80) (by omega) (by omega)
    (by omega) (by omega) (by omega)
  have value : (UInt8.ofNat (code / 4096 % 16 + 0xE0)).toNat % 16 * 4096 + code / 64 % 64 * 64
      + code % 64 = code := by
    rw [UInt8.toNat_ofNat']
    omega
  unfold head
  rw [if_neg (not_ascii (by omega) (by omega)), announced]
  simp only [if_neg (in_range above below), three,
    isContinuation_ofNat (Nat.mod_lt code (by decide : 0 < 64)),
    bits_ofNat (Nat.mod_lt code (by decide : 0 < 64)),
    bits_ofNat (Nat.mod_lt (code / 64) (by decide : 0 < 64)), value, Bool.not_true,
    Bool.false_eq_true, if_false, if_true, Nat.reduceEqDiff]

theorem head_four {code : Nat} (low : 0x10000 ≤ code) (high : code < 0x110000) (rest : Bytes) :
    head (UInt8.ofNat (code / 262144 % 8 + 0xF0))
        (UInt8.ofNat (code / 4096 % 64 + 0x80) :: UInt8.ofNat (code / 64 % 64 + 0x80)
          :: UInt8.ofNat (code % 64 + 0x80) :: rest)
      = .char (Char.ofNat code) rest := by
  obtain ⟨lead, announced, four, above, below⟩ := @Lead.ofByte_four
    (code / 262144 % 8 + 0xF0) (code / 4096 % 64 + 0x80) (by omega) (by omega)
    (by omega) (by omega) (by omega)
  have value : (UInt8.ofNat (code / 262144 % 8 + 0xF0)).toNat % 8 * 262144
      + code / 4096 % 64 * 4096 + code / 64 % 64 * 64 + code % 64 = code := by
    rw [UInt8.toNat_ofNat']
    omega
  unfold head
  rw [if_neg (not_ascii (by omega) (by omega)), announced]
  simp only [if_neg (in_range above below), four,
    isContinuation_ofNat (Nat.mod_lt code (by decide : 0 < 64)),
    isContinuation_ofNat (Nat.mod_lt (code / 64) (by decide : 0 < 64)),
    bits_ofNat (Nat.mod_lt code (by decide : 0 < 64)),
    bits_ofNat (Nat.mod_lt (code / 64) (by decide : 0 < 64)),
    bits_ofNat (Nat.mod_lt (code / 4096) (by decide : 0 < 64)), value, Bool.not_true,
    Bool.false_eq_true, if_false, Nat.reduceEqDiff]

/-- **The bytes of a character are read back, whatever follows.** -/
theorem head_utf8EncodeChar (char : Char) :
    ∃ first tail, String.utf8EncodeChar char = first :: tail ∧
      ∀ rest, head first (tail ++ rest) = .char char rest := by
  have valid := char.valid
  have code : Char.ofNat char.val.toNat = char := Char.ofNat_toNat char
  unfold UInt32.isValidChar Nat.isValidChar at valid
  unfold String.utf8EncodeChar
  dsimp only
  generalize char.val.toNat = n at valid code ⊢
  subst code
  split
  · exact ⟨_, _, rfl, head_one (by omega)⟩
  · split
    · exact ⟨_, _, rfl, head_two (by omega) (by omega)⟩
    · split
      · exact ⟨_, _, rfl, head_three (by omega) (by omega) (by omega)⟩
      · exact ⟨_, _, rfl, head_four (by omega) (by omega)⟩

theorem decodeFrom_flatMap (chars : List Char) (index : Nat) :
    decodeFrom index (chars.flatMap String.utf8EncodeChar) = .ok chars := by
  induction chars generalizing index with
  | nil => rw [List.flatMap_nil, decodeFrom]
  | cons char chars ih =>
    obtain ⟨first, tail, spelled, taken⟩ := head_utf8EncodeChar char
    rw [List.flatMap_cons, spelled, List.cons_append, decodeFrom]
    split
    · next cut => rw [taken] at cut; cases cut
    · next cut => rw [taken] at cut; cases cut
    · next other left found =>
      rw [taken] at found
      cases found
      rw [ih]
      rfl

/-- **A string is read back from its bytes.** -/
theorem decode_encode (text : String) : decode (encode text) = .ok text := by
  rw [decode, encode, decodeFrom_flatMap]
  show Except.ok (String.ofList text.toList) = _
  rw [String.ofList_toList]

/-! ### Nothing else is read -/

/-- A lead byte and a second byte that it admits, as numbers. -/
theorem Lead.range {first second : UInt8} {lead : Lead} (announced : ofByte first = some lead)
    (admitted : ¬ (second < lead.low ∨ lead.high < second)) :
    0x80 ≤ second.toNat ∧ second.toNat ≤ 0xBF ∧
      (lead.length = 2 ∧ 0xC2 ≤ first.toNat ∧ first.toNat < 0xE0 ∨
      lead.length = 3 ∧ 0xE0 ≤ first.toNat ∧ first.toNat < 0xF0 ∧
        (first.toNat = 0xE0 → 0xA0 ≤ second.toNat) ∧
        (first.toNat = 0xED → second.toNat ≤ 0x9F) ∨
      lead.length = 4 ∧ 0xF0 ≤ first.toNat ∧ first.toNat ≤ 0xF4 ∧
        (first.toNat = 0xF0 → 0x90 ≤ second.toNat) ∧
        (first.toNat = 0xF4 → second.toNat ≤ 0x8F)) := by
  unfold ofByte at announced
  simp only [UInt8.lt_iff_toNat_lt, ← UInt8.toNat_inj, UInt8.reduceToNat] at announced admitted
  repeat' split at announced
  all_goals cases announced
  all_goals simp only [UInt8.reduceToNat, true_and, false_and, or_false, false_or,
    Nat.reduceEqDiff] at admitted ⊢
  all_goals omega

theorem toNat_of_isContinuation {byte : UInt8} (continues : ¬ (!isContinuation byte) = true) :
    0x80 ≤ byte.toNat ∧ byte.toNat ≤ 0xBF := by
  simpa [isContinuation, UInt8.le_iff_toNat_le] using continues

theorem ofNat_eq {byte : UInt8} {code : Nat} (same : code = byte.toNat) : UInt8.ofNat code = byte := by
  rw [same, UInt8.ofNat_toNat]

theorem toNat_ofNat {code : Nat} (valid : code.isValidChar) :
    (Char.ofNat code).val.toNat = code := by
  unfold Char.ofNat
  rw [dif_pos valid]
  rfl

theorem utf8EncodeChar_one {code : Nat} (small : code < 0x80) :
    String.utf8EncodeChar (Char.ofNat code) = [UInt8.ofNat code] := by
  have valid : code.isValidChar := .inl (by omega)
  unfold String.utf8EncodeChar
  rw [toNat_ofNat valid, if_pos (by omega)]

theorem utf8EncodeChar_two {code : Nat} (low : 0x80 ≤ code) (high : code < 0x800) :
    String.utf8EncodeChar (Char.ofNat code)
      = [UInt8.ofNat (code / 64 % 32 + 0xC0), UInt8.ofNat (code % 64 + 0x80)] := by
  have valid : code.isValidChar := .inl (by omega)
  unfold String.utf8EncodeChar
  rw [toNat_ofNat valid, if_neg (by omega), if_pos (by omega)]

theorem utf8EncodeChar_three {code : Nat} (low : 0x800 ≤ code) (high : code < 0x10000)
    (scalar : code < 0xD800 ∨ 0xDFFF < code) :
    String.utf8EncodeChar (Char.ofNat code)
      = [UInt8.ofNat (code / 4096 % 16 + 0xE0), UInt8.ofNat (code / 64 % 64 + 0x80),
        UInt8.ofNat (code % 64 + 0x80)] := by
  have valid : code.isValidChar := by
    unfold Nat.isValidChar
    omega
  unfold String.utf8EncodeChar
  rw [toNat_ofNat valid, if_neg (by omega), if_neg (by omega), if_pos (by omega)]

theorem utf8EncodeChar_four {code : Nat} (low : 0x10000 ≤ code) (high : code < 0x110000) :
    String.utf8EncodeChar (Char.ofNat code)
      = [UInt8.ofNat (code / 262144 % 8 + 0xF0), UInt8.ofNat (code / 4096 % 64 + 0x80),
        UInt8.ofNat (code / 64 % 64 + 0x80), UInt8.ofNat (code % 64 + 0x80)] := by
  have valid : code.isValidChar := .inr ⟨by omega, high⟩
  unfold String.utf8EncodeChar
  rw [toNat_ofNat valid, if_neg (by omega), if_neg (by omega), if_neg (by omega)]

/-- **A character is read off its own bytes only.** -/
theorem utf8EncodeChar_append_of_head {first : UInt8} {rest left : Bytes} {char : Char}
    (taken : head first rest = .char char left) :
    String.utf8EncodeChar char ++ left = first :: rest := by
  unfold head at taken
  split at taken
  · next ascii =>
    cases taken
    rw [UInt8.lt_iff_toNat_lt] at ascii
    rw [utf8EncodeChar_one ascii, UInt8.ofNat_toNat]
    rfl
  · split at taken
    · cases taken
    · cases taken
    · next lead second rest announced =>
      split at taken
      · cases taken
      · next admitted =>
        have range := Lead.range announced admitted
        split at taken
        · next two =>
          cases taken
          rw [bits, utf8EncodeChar_two (by omega) (by omega), @ofNat_eq first _ (by omega),
            @ofNat_eq second _ (by omega)]
          rfl
        · next longer =>
          split at taken
          · cases taken
          · next third rest =>
            split at taken
            · cases taken
            · next continues =>
              have thirdRange := toNat_of_isContinuation continues
              split at taken
              · next three =>
                cases taken
                rw [bits, bits, utf8EncodeChar_three (by omega) (by omega) (by omega),
                  @ofNat_eq first _ (by omega), @ofNat_eq second _ (by omega),
                  @ofNat_eq third _ (by omega)]
                rfl
              · next four =>
                split at taken
                · cases taken
                · next fourth rest =>
                  split at taken
                  · cases taken
                  · next ends =>
                    have fourthRange := toNat_of_isContinuation ends
                    cases taken
                    rw [bits, bits, bits, utf8EncodeChar_four (by omega) (by omega),
                      @ofNat_eq first _ (by omega), @ofNat_eq second _ (by omega),
                      @ofNat_eq third _ (by omega), @ofNat_eq fourth _ (by omega)]
                    rfl

/-- The characters of a decoded text spell the bytes. -/
theorem flatMap_of_decodeFrom {index : Nat} {bytes : Bytes} {chars : List Char}
    (decoded : decodeFrom index bytes = .ok chars) :
    chars.flatMap String.utf8EncodeChar = bytes := by
  fun_induction decodeFrom index bytes generalizing chars with
  | case1 =>
    cases decoded
    rfl
  | case2 => cases decoded
  | case3 => cases decoded
  | case4 index first rest char left taken ih =>
    cases inner : decodeFrom (index + (rest.length + 1 - left.length)) left with
    | error fault =>
      rw [inner] at decoded
      cases decoded
    | ok others =>
      rw [inner] at decoded
      cases decoded
      rw [List.flatMap_cons, ih inner, utf8EncodeChar_append_of_head taken]

/-- **Some bytes are read as a string exactly if they are its bytes.** -/
theorem decode_eq_ok {bytes : Bytes} {text : String} :
    decode bytes = .ok text ↔ encode text = bytes := by
  constructor
  · intro decoded
    unfold decode at decoded
    cases inner : decodeFrom 0 bytes with
    | error fault =>
      rw [inner] at decoded
      cases decoded
    | ok chars =>
      rw [inner] at decoded
      cases decoded
      rw [encode, String.toList_ofList, flatMap_of_decodeFrom inner]
  · rintro rfl
    exact decode_encode text

end Protobuf.Utf8
