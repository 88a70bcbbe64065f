/-
**Text is read as bytes exactly if it is a sequence of tokens.**

* `Escape.readEscape_token`, `Escape.readEscape_stuck`: an escape is read off a token that is not a plain
  character, and none where the text is stuck;
* `Escape.exists_token`: every text but the empty one begins with a token or is stuck;
* `Escape.exists_tokens`: so every text is some tokens and a rest that is empty or stuck;
* `Escape.unescapeFrom_tokens`: the tokens in front of a text are read as what they stand for;
* `Escape.unescape_tokens`, `Escape.unescape_stuck`: so is a text of tokens, and another is not read;
* `Escape.unescape_grammar`: a text is read as what its tokens stand for. If it does not consist of tokens, the
  fault is that of the place where no token is. The loop over an index has no faults but these.
-/

import Protobuf.Proofs.EscapeIndexed

namespace Protobuf.Escape

/-! ### One escape -/

theorem find?_of_isOctalDigit {byte : UInt8} (digit : isOctalDigit byte = true) :
    (letters.find? fun pair => pair.1 == byte) = none ∧ byte ≠ 0x78 := by
  have other : letters.all fun pair => !isOctalDigit pair.1 := by decide
  constructor
  · refine List.find?_eq_none.mpr fun pair member same => ?_
    have letter := List.all_eq_true.mp other pair member
    rw [beq_iff_eq.mp same, digit] at letter
    cases letter
  · rintro rfl
    exact absurd digit (by decide)

section OneEscape

variable {digits rest : List Char} (offset : Nat)

theorem readEscape_letter {name : Char} {byte : UInt8} (member : (name, byte) ∈ named) :
    readEscape offset (bytesOf (name :: rest)) = .ok (byte, bytesOf rest) := by
  have checked : ∀ pair ∈ named, String.utf8EncodeChar pair.1 = [byteOf pair.1] ∧
      (byteOf pair.1, pair.2) ∈ letters := by decide +kernel
  obtain ⟨one, letter⟩ := checked _ member
  rw [bytesOf, List.flatMap_cons, one, List.singleton_append, readEscape]
  simp only [(find?_letter letter).1]

theorem readEscape_hexadecimal (run : Run 16 2 digits rest) :
    readEscape offset (bytesOf ('x' :: (digits ++ rest)))
      = .ok (UInt8.ofNat (value 16 digits), bytesOf rest) := by
  have front := takeWhile_run reads_hexadecimal run
  have some_digit : digits.map byteOf ≠ [] := fun none => run.nonempty (List.map_eq_nil_iff.mp none)
  have letter : bytesOf ('x' :: (digits ++ rest)) = 0x78 :: bytesOf (digits ++ rest) := rfl
  have behind : (bytesOf (digits ++ rest)).drop (digits.map byteOf).length = bytesOf rest := by
    rw [bytesOf_append, bytesOf_digits run.inside, List.drop_left]
  have none : (letters.find? fun pair => pair.1 == 0x78) = none := by decide
  rw [letter, readEscape]
  simp only [none, if_true, front, if_neg some_digit, behind, number_eq reads_hexadecimal run.inside]

theorem readEscape_octal (run : Run 8 3 digits rest) :
    readEscape offset (bytesOf (digits ++ rest)) =
      if 255 < value 8 digits then .error (.octalOutOfRange (value 8 digits))
      else .ok (UInt8.ofNat (value 8 digits), bytesOf rest) := by
  have front := takeWhile_run reads_octal run
  have behind : (bytesOf (digits ++ rest)).drop (digits.map byteOf).length = bytesOf rest := by
    rw [bytesOf_append, bytesOf_digits run.inside, List.drop_left]
  cases digits with
  | nil => exact absurd rfl run.nonempty
  | cons char digits =>
    have digit := run.inside char List.mem_cons_self
    have first := isDigit_byteOf reads_octal digit
    have spelled : bytesOf (char :: digits ++ rest) = byteOf char :: bytesOf (digits ++ rest) := by
      rw [List.cons_append, bytesOf, List.flatMap_cons,
        utf8EncodeChar_byteOf (toNat_lt_of_isDigit digit)]
      rfl
    have spells := number_eq reads_octal run.inside
    obtain ⟨letter, hexadecimal⟩ := find?_of_isOctalDigit first
    rw [spelled] at front behind ⊢
    simp only [List.take_succ_cons, List.takeWhile_cons, first, if_true] at front
    rw [List.length_map, List.length_cons, List.drop_succ_cons] at behind
    simp only [readEscape, letter, if_neg hexadecimal, first, if_true, front, spells,
      List.length_map, List.length_cons, Nat.add_sub_cancel, behind]

/-- What names no byte begins no escape. -/
theorem readEscape_unknown {char : Char} {byte : UInt8} {more : Bytes}
    (unnamed : ∀ pair ∈ named, pair.1 ≠ char) (other : char ≠ 'x') (no_digit : ¬ IsDigit 8 char)
    (spelled : String.utf8EncodeChar char = byte :: more) :
    readEscape offset (bytesOf (char :: rest)) = .error (.unknownEscape byte) := by
  have member : byte ∈ String.utf8EncodeChar char := spelled ▸ List.mem_cons_self
  have checked : letters.all fun pair => (ascii pair.1, pair.2) ∈ named ∧ pair.1.toNat < 0x80 := by
    decide
  have none : (letters.find? fun pair => pair.1 == byte) = none := by
    refine List.find?_eq_none.mpr fun pair letter same => ?_
    obtain ⟨name, small⟩ := of_decide_eq_true (List.all_eq_true.mp checked pair letter)
    rw [beq_iff_eq.mp same] at name small
    exact unnamed _ name (eq_ascii_of_mem member small).symm
  have no_x : byte ≠ 0x78 := by
    rintro rfl
    exact other (eq_ascii_of_mem member (by decide))
  have plain : ¬ isOctalDigit byte = true := fun digit =>
    no_digit (eq_of_isDigit reads_octal member digit)
  rw [bytesOf, List.flatMap_cons, spelled, List.cons_append, readEscape]
  simp only [none, if_neg no_x, if_neg plain]

end OneEscape

/-! ### Tokens -/

/-- The byte of an escape. -/
theorem readEscape_token {token : Token} {body rest : List Char} (fits : token.Fits rest)
    (escape : token.text = '\\' :: body) (offset : Nat) :
    ∃ byte, token.bytes = [byte] ∧
      readEscape offset (bytesOf (body ++ rest)) = .ok (byte, bytesOf rest) := by
  cases token with
  | plain char =>
    cases escape
    exact absurd rfl fits
  | letter name byte =>
    cases escape
    exact ⟨byte, rfl, readEscape_letter offset fits⟩
  | hexadecimal digits =>
    cases escape
    exact ⟨_, rfl, readEscape_hexadecimal offset fits⟩
  | octal digits =>
    cases escape
    refine ⟨_, rfl, ?_⟩
    rw [readEscape_octal offset fits.1, if_neg (Nat.not_lt_of_le fits.2)]

/-- **No escape is read where a text is stuck.** -/
theorem readEscape_stuck {text : List Char} {fault : Fault} {offset : Nat}
    (stuck : Stuck offset text fault) :
    ∃ body, text = '\\' :: body ∧ readEscape offset (bytesOf body) = .error fault := by
  cases stuck with
  | backslash => exact ⟨[], rfl, rfl⟩
  | @hexadecimal rest stop =>
    have nothing := takeWhile_nothing reads_hexadecimal stop 2
    have letter : bytesOf ('x' :: rest) = 0x78 :: bytesOf rest := rfl
    have none : (letters.find? fun pair => pair.1 == 0x78) = none := by decide
    refine ⟨_, rfl, ?_⟩
    rw [letter, readEscape]
    simp only [none, if_true, nothing]
  | octal run large =>
    refine ⟨_, rfl, ?_⟩
    rw [readEscape_octal offset run, if_pos large]
  | letter unnamed other no_digit spelled =>
    exact ⟨_, rfl, readEscape_unknown offset unnamed other no_digit spelled⟩

/-- **Every text but the empty one begins with a token or is stuck.** -/
theorem exists_token {text : List Char} (more : text ≠ []) (offset : Nat) :
    (∃ (token : Token) (rest : List Char), text = token.text ++ rest ∧ token.Fits rest) ∨
      ∃ fault, Stuck offset text fault := by
  cases text with
  | nil => exact absurd rfl more
  | cons char rest =>
    by_cases plain : char = '\\'
    · subst plain
      cases rest with
      | nil => exact .inr ⟨_, .backslash⟩
      | cons name rest =>
        by_cases letter : ∃ byte, (name, byte) ∈ named
        · obtain ⟨byte, member⟩ := letter
          exact .inl ⟨.letter name byte, rest, rfl, member⟩
        by_cases hexadecimal : name = 'x'
        · subst hexadecimal
          generalize front : (rest.take 2).takeWhile (fun char => decide (IsDigit 16 char)) = digits
          by_cases found : digits = []
          · refine .inr ⟨_, .hexadecimal fun next first digit => ?_⟩
            obtain ⟨more, rfl⟩ := List.head?_eq_some_iff.mp first
            rw [found, List.take_succ_cons, List.takeWhile_cons, if_pos (decide_eq_true digit)] at front
            cases front
          · obtain ⟨split, run⟩ := run_of_takeWhile _ front found
            refine .inl ⟨.hexadecimal digits, rest.drop digits.length, ?_, run⟩
            exact congrArg (fun behind => '\\' :: 'x' :: behind) split
        by_cases octal : IsDigit 8 name
        · generalize front :
            ((name :: rest).take 3).takeWhile (fun char => decide (IsDigit 8 char)) = digits
          have found : digits ≠ [] := by
            rintro rfl
            rw [List.take_succ_cons, List.takeWhile_cons, if_pos (decide_eq_true octal)] at front
            cases front
          obtain ⟨split, run⟩ := run_of_takeWhile _ front found
          by_cases large : 255 < value 8 digits
          · right
            rw [split]
            exact ⟨_, .octal run large⟩
          · refine .inl ⟨.octal digits, _, ?_, run, Nat.le_of_not_lt large⟩
            exact congrArg (fun behind => '\\' :: behind) split
        · obtain ⟨byte, more, spelled, -⟩ := Utf8.head_utf8EncodeChar name
          refine .inr ⟨_, .letter (fun pair member same => letter ⟨pair.2, ?_⟩) hexadecimal octal spelled⟩
          rw [← same]
          exact member
    · exact .inl ⟨.plain char, rest, rfl, plain⟩

/-- Bytes without a backslash stand for themselves. -/
theorem unescapeFrom_plain {bytes : Bytes} (plain : ∀ byte ∈ bytes, byte ≠ backslash) (offset : Nat)
    (rest : Bytes) :
    unescapeFrom offset (bytes ++ rest)
      = (unescapeFrom (offset + bytes.length) rest).map (bytes ++ ·) := by
  induction bytes generalizing offset with
  | nil => exact (congrFun Except.map_id _).symm
  | cons byte bytes ih =>
    obtain ⟨first, others⟩ := List.forall_mem_cons.mp plain
    rw [List.cons_append, unescapeFrom_cons first, ih others, List.length_cons, Nat.add_assoc,
      Nat.add_comm 1]
    cases unescapeFrom (offset + (bytes.length + 1)) rest <;> rfl

/-- **A token is read as what it stands for**, and the text goes on behind it. -/
theorem unescapeFrom_token {token : Token} {rest : List Char} (fits : token.Fits rest) (offset : Nat) :
    unescapeFrom offset (bytesOf (token.text ++ rest)) =
      (unescapeFrom (offset + (bytesOf token.text).length) (bytesOf rest)).map (token.bytes ++ ·) := by
  have escape {body : List Char} (begins : token.text = '\\' :: body) :
      unescapeFrom offset (bytesOf (token.text ++ rest)) =
        (unescapeFrom (offset + (bytesOf token.text).length) (bytesOf rest)).map
          (token.bytes ++ ·) := by
    obtain ⟨byte, bytes, taken⟩ := readEscape_token fits begins offset
    rw [bytesOf_append] at taken
    have slash : bytesOf ('\\' :: body) = backslash :: bytesOf body := rfl
    rw [bytes, begins, bytesOf_append, slash, List.cons_append, unescapeFrom_escape taken,
      List.length_cons, Nat.add_assoc, Nat.add_comm 1]
    rfl
  cases token with
  | plain char =>
    have none : ∀ byte ∈ String.utf8EncodeChar char, byte ≠ backslash := by
      rintro _ member rfl
      exact fits (eq_ascii_of_mem member (by decide))
    have bytes : bytesOf (Token.plain char).text = String.utf8EncodeChar char := List.append_nil _
    rw [bytesOf_append, bytes]
    exact unescapeFrom_plain none offset (bytesOf rest)
  | letter name byte => exact escape rfl
  | hexadecimal digits => exact escape rfl
  | octal digits => exact escape rfl

theorem Token.width_cons (token : Token) (tokens : List Token) :
    width (token :: tokens) = (bytesOf token.text).length + width tokens := by
  rw [width, List.flatMap_cons, bytesOf_append, List.length_append, width]

/-- **Tokens are read as what they stand for**, and the text goes on behind them. -/
theorem unescapeFrom_tokens {text rest : List Char} {tokens : List Token}
    (split : Tokens text tokens rest) (offset : Nat) :
    unescapeFrom offset (bytesOf text) =
      (unescapeFrom (offset + Token.width tokens) (bytesOf rest)).map
        (tokens.flatMap Token.bytes ++ ·) := by
  induction split generalizing offset with
  | done rest => exact (congrFun Except.map_id _).symm
  | @more token tokens behind rest fits _ ih =>
    rw [unescapeFrom_token fits, ih, Token.width_cons, Nat.add_assoc, List.flatMap_cons]
    cases unescapeFrom (offset + ((bytesOf token.text).length + Token.width tokens)) (bytesOf rest) with
    | error fault => rfl
    | ok found => exact congrArg Except.ok (List.append_assoc _ _ _).symm

theorem unescapeFrom_stuck {text : List Char} {fault : Fault} {offset : Nat}
    (stuck : Stuck offset text fault) : unescapeFrom offset (bytesOf text) = .error fault := by
  obtain ⟨body, rfl, failed⟩ := readEscape_stuck stuck
  have slash : bytesOf ('\\' :: body) = backslash :: bytesOf body := rfl
  rw [slash, unescapeFrom_backslash, failed]

/-- **Where a text is stuck there is no token.** -/
theorem Stuck.no_token {text rest : List Char} {fault : Fault} {offset : Nat}
    (stuck : Stuck offset text fault) {token : Token} (fits : token.Fits rest) :
    text ≠ token.text ++ rest := by
  rintro rfl
  obtain ⟨body, same, failed⟩ := readEscape_stuck stuck
  have escape {behind : List Char} (begins : token.text = '\\' :: behind) : False := by
    obtain ⟨byte, -, taken⟩ := readEscape_token fits begins offset
    rw [begins, List.cons_append, List.cons_inj_right] at same
    rw [same, failed] at taken
    cases taken
  cases token with
  | plain char => exact fits (List.cons_eq_cons.mp same).1
  | letter name byte => exact escape rfl
  | hexadecimal digits => exact escape rfl
  | octal digits => exact escape rfl

theorem Token.length_text_pos (token : Token) : 0 < token.text.length := by
  cases token <;> exact Nat.succ_pos _

/-- **Every text is some tokens, and a rest that is empty or stuck.** -/
theorem exists_tokens (text : List Char) (offset : Nat) : ∃ tokens rest, Tokens text tokens rest ∧
    (rest = [] ∨
      ∃ fault, Stuck (offset + Token.width tokens) rest fault) := by
  induction size : text.length using Nat.strongRecOn generalizing text offset with
  | ind length ih =>
    subst size
    by_cases nothing : text = []
    · subst nothing
      exact ⟨[], [], .done [], .inl rfl⟩
    · rcases exists_token nothing offset with ⟨token, behind, rfl, fits⟩ | ⟨fault, stuck⟩
      · have positive := token.length_text_pos
        have shorter : behind.length < (token.text ++ behind).length := by
          rw [List.length_append]
          omega
        obtain ⟨tokens, rest, split, ends⟩ :=
          ih behind.length shorter behind (offset + (bytesOf token.text).length) rfl
        refine ⟨token :: tokens, rest, .more fits split, ?_⟩
        rwa [Token.width_cons, ← Nat.add_assoc]
      · exact ⟨[], text, .done text, .inr ⟨fault, stuck⟩⟩

/-- Two hexadecimal digits make one byte. -/
theorem value_lt_of_run {digits rest : List Char} (run : Run 16 2 digits rest) :
    value 16 digits < 256 := by
  have small : ∀ digit ∈ digits.reverse.map fun char => (digit? 16 char).getD 0, digit < 16 := by
    refine List.forall_mem_map.mpr fun char member => ?_
    obtain ⟨number, found⟩ := isDigit_iff.mp (run.inside char (List.mem_reverse.mp member))
    rw [found]
    exact (digit?_eq_some.mp found).1
  have bound := Nat.ofDigits_lt_base_pow_length (by decide) small
  rw [List.length_map, List.length_reverse] at bound
  exact Nat.lt_of_lt_of_le bound (Nat.pow_le_pow_right (by decide) run.short)

/-- **Tokens are read as what they stand for.** -/
theorem unescape_tokens {text : String} {tokens : List Token} (split : Tokens text.toList tokens []) :
    unescape text = .ok (tokens.flatMap Token.bytes) := by
  refine (unescapeFrom_tokens split 0).trans ?_
  rw [show bytesOf [] = [] from rfl, unescapeFrom]
  exact congrArg Except.ok (List.append_nil _)

/-- **Where no token is, reading stops**, whatever tokens are in front. -/
theorem unescape_stuck {text : String} {tokens : List Token} {rest : List Char} {fault : Fault}
    (split : Tokens text.toList tokens rest) (stuck : Stuck (Token.width tokens) rest fault) :
    unescape text = .error fault := by
  refine (unescapeFrom_tokens split 0).trans ?_
  rw [Nat.zero_add, unescapeFrom_stuck stuck]
  rfl

/-- Every text is read in one way or the other. -/
theorem tokens_or_stuck (text : String) :
    (∃ tokens, Tokens text.toList tokens []) ∨
      ∃ tokens rest fault, Tokens text.toList tokens rest ∧ Stuck (Token.width tokens) rest fault := by
  obtain ⟨tokens, rest, split, rfl | ⟨fault, stuck⟩⟩ := exists_tokens text.toList 0
  · exact .inl ⟨tokens, split⟩
  · rw [Nat.zero_add] at stuck
    exact .inr ⟨tokens, rest, fault, split, stuck⟩

/-- **Text is read exactly if it is a sequence of tokens**, and as what they stand for. Otherwise the fault is
that of the place behind the last of the tokens in front, where there is none. Two hexadecimal digits make no
more than a byte. Reading by index ends the same way: digits are always read as a number. -/
theorem unescape_grammar :
    (∀ text bytes, unescape text = .ok bytes ↔
      ∃ tokens, Tokens text.toList tokens [] ∧ bytes = tokens.flatMap Token.bytes) ∧
    (∀ text fault, unescape text = .error fault ↔
      ∃ tokens rest, Tokens text.toList tokens rest ∧
        Stuck (Token.width tokens) rest fault) ∧
    (∀ offset text fault, Stuck offset text fault →
      ∀ (token : Token) (rest : List Char), token.Fits rest → text ≠ token.text ++ rest) ∧
    (∀ digits rest, Run 16 2 digits rest →
      (UInt8.ofNat (value 16 digits)).toNat = value 16 digits) ∧
    ∀ text, unescapeByIndex text = (unescape text).mapError Halt.fault := by
  refine ⟨fun text bytes => ⟨fun taken => ?_, ?_⟩, fun text fault => ⟨fun stopped => ?_, ?_⟩,
    fun offset text fault stuck token rest fits => stuck.no_token fits, fun digits rest run => ?_,
    unescapeByIndex_eq⟩
  · rcases tokens_or_stuck text with ⟨tokens, split⟩ | ⟨tokens, rest, fault, split, stuck⟩
    · rw [unescape_tokens split] at taken
      exact ⟨tokens, split, (Except.ok.inj taken).symm⟩
    · rw [unescape_stuck split stuck] at taken
      cases taken
  · rintro ⟨tokens, split, rfl⟩
    exact unescape_tokens split
  · rcases tokens_or_stuck text with ⟨tokens, split⟩ | ⟨tokens, rest, other, split, stuck⟩
    · rw [unescape_tokens split] at stopped
      cases stopped
    · rw [unescape_stuck split stuck] at stopped
      cases stopped
      exact ⟨tokens, rest, split, stuck⟩
  · rintro ⟨tokens, rest, split, stuck⟩
    exact unescape_stuck split stuck
  · rw [UInt8.toNat_ofNat']
    exact Nat.mod_eq_of_lt (value_lt_of_run run)

/-- Digits that end before a character of two bytes and before an eight, and an `x` before such a character. -/
theorem unescape_grammar_cut :
    unescape "é\\x4é\\18" = .ok [0xC3, 0xA9, 0x04, 0xC3, 0xA9, 0x01, 0x38] ∧
      unescape "é\\xé" = .error (.noHexDigits 2) ∧
      (∀ (token : Token) (rest : List Char), token.Fits rest → ['\\', 'x', 'é'] ≠ token.text ++ rest) ∧
      (UInt8.ofNat (value 16 ['f', 'F'])).toNat = value 16 ['f', 'F'] := by
  have accent (rest : List Char) : Token.Fits rest (.plain 'é') := show 'é' ≠ '\\' by decide
  have eight : Token.Fits [] (.plain '8') := show '8' ≠ '\\' by decide
  have stuck : Stuck 2 ['\\', 'x', 'é'] (.noHexDigits 2) := .hexadecimal (by rintro _ ⟨⟩; decide)
  have one : Token.Fits ['8'] (.octal ['1']) :=
    ⟨(run_of_takeWhile ['1', '8'] (by decide) (by decide)).2, by decide⟩
  have four : Token.Fits ['é', '\\', '1', '8'] (.hexadecimal ['4']) :=
    (run_of_takeWhile ['4', 'é', '\\', '1', '8'] (by decide) (by decide)).2
  have full : Run 16 2 ['f', 'F'] ['F'] :=
    (run_of_takeWhile ['f', 'F', 'F'] (by decide) (by decide)).2
  have tokens : Tokens "é\\x4é\\18".toList
      [.plain 'é', .hexadecimal ['4'], .plain 'é', .octal ['1'], .plain '8'] [] :=
    .more (accent _) (.more four (.more (accent _) (.more one (.more eight (.done [])))))
  refine ⟨(unescape_grammar.1 _ _).mpr ⟨_, tokens, by decide +kernel⟩,
    (unescape_grammar.2.1 _ _).mpr ⟨[.plain 'é'], ['\\', 'x', 'é'], .more (accent _) (.done _), stuck⟩,
    fun token rest fits => unescape_grammar.2.2.1 2 _ _ stuck token rest fits,
    unescape_grammar.2.2.2.1 _ _ full⟩

end Protobuf.Escape
