import RecordStore.Text.Blank
import RecordStore.Text.Numeral
import Mathlib.Data.List.TakeWhile

set_option autoImplicit false

/-! Numerals and blanks around them: `signed` accepts an optional sign and at least one ASCII digit
if the number is within the limits. -/

namespace RecordStore

/-! ### Numerals -/

def Digits (text : List Char) : Prop :=
  text ≠ [] ∧ ∀ character ∈ text, character.isDigit = true

instance (text : List Char) : Decidable (Digits text) :=
  decidable_of_iff (text ≠ [] ∧ text.all Char.isDigit = true) (by rw [Digits, List.all_eq_true])

/-- The number that the digits stand for. -/
def worth (digits : List Char) : Nat := Nat.ofDigitChars 10 digits 0

inductive StandsFor : List Char → Int → Prop
  | plain {digits : List Char} (proper : Digits digits) : StandsFor digits (worth digits)
  | plus {digits : List Char} (proper : Digits digits) : StandsFor ('+' :: digits) (worth digits)
  | minus {digits : List Char} (proper : Digits digits) : StandsFor ('-' :: digits) (-worth digits)

namespace Numeral

variable {limit total number : Nat} {beyond : Fault} {text digits : List Char}

theorem digit?_eq (character : Char) :
    digit? character =
      if character.isDigit then some (character.toNat - '0'.toNat) else none := by
  have same : ('0' ≤ character ∧ character ≤ '9') ↔ character.isDigit = true := by
    rw [Char.isDigit, Bool.and_eq_true, decide_eq_true_iff, decide_eq_true_iff]
    rfl
  rw [digit?, if_congr same rfl rfl]

theorem le_ofDigitChars (digits : List Char) (total : Nat) :
    total ≤ Nat.ofDigitChars 10 digits total := by
  induction digits generalizing total with
  | nil => exact Nat.le_of_eq Nat.ofDigitChars_nil.symm
  | cons character rest ih =>
      rw [Nat.ofDigitChars_cons]
      have later := ih (10 * total + (character.toNat - '0'.toNat))
      omega

theorem magnitude_ok_iff :
    magnitude limit beyond total digits = .ok number ↔
      (∀ character ∈ digits, character.isDigit = true) ∧
        (digits ≠ [] → number ≤ limit) ∧ number = Nat.ofDigitChars 10 digits total := by
  induction digits generalizing total with
  | nil =>
      rw [magnitude, Except.ok.injEq, Nat.ofDigitChars_nil]
      exact ⟨fun same => ⟨nofun, fun some => absurd rfl some, same.symm⟩, fun all => all.2.2.symm⟩
  | cons character rest ih =>
      rw [magnitude, digit?_eq, List.forall_mem_cons, Nat.ofDigitChars_cons, Nat.mul_comm 10 total]
      by_cases digit : character.isDigit = true
      · rw [if_pos digit]
        have later := le_ofDigitChars rest (total * 10 + (character.toNat - '0'.toNat))
        dsimp only
        by_cases within : total * 10 + (character.toNat - '0'.toNat) ≤ limit
        · rw [if_pos within, ih]
          constructor
          · rintro ⟨others, bounded, rfl⟩
            refine ⟨⟨digit, others⟩, fun _ => ?_, rfl⟩
            cases rest with
            | nil => rwa [Nat.ofDigitChars_nil]
            | cons next rest => exact bounded (List.cons_ne_nil next rest)
          · rintro ⟨⟨-, others⟩, bounded, rfl⟩
            exact ⟨others, fun _ => bounded (List.cons_ne_nil _ _), rfl⟩
        · rw [if_neg within]
          constructor
          · exact nofun
          · rintro ⟨-, bounded, rfl⟩
            exact absurd (Nat.le_trans later (bounded (List.cons_ne_nil _ _))) within
      · rw [if_neg digit]
        exact ⟨nofun, fun all => absurd all.1.1 digit⟩

theorem not_digits_sign {sign : Char} (none : sign.isDigit = false) :
    ¬ Digits (sign :: digits) := by
  intro proper
  have digit := proper.2 sign List.mem_cons_self
  rw [none] at digit
  cases digit

theorem standsFor_plus_iff {number : Int} :
    StandsFor ('+' :: digits) number ↔ Digits digits ∧ number = worth digits := by
  constructor
  · intro stands
    cases stands with
    | plain proper => exact absurd proper (not_digits_sign rfl)
    | plus proper => exact ⟨proper, rfl⟩
  · rintro ⟨proper, rfl⟩
    exact .plus proper

theorem standsFor_minus_iff {number : Int} :
    StandsFor ('-' :: digits) number ↔ Digits digits ∧ number = -worth digits := by
  constructor
  · intro stands
    cases stands with
    | plain proper => exact absurd proper (not_digits_sign rfl)
    | minus proper => exact ⟨proper, rfl⟩
  · rintro ⟨proper, rfl⟩
    exact .minus proper

theorem standsFor_plain_iff {number : Int} (plus : ∀ digits, text ≠ '+' :: digits)
    (minus : ∀ digits, text ≠ '-' :: digits) :
    StandsFor text number ↔ Digits text ∧ number = worth text := by
  constructor
  · intro stands
    cases stands with
    | plain proper => exact ⟨proper, rfl⟩
    | plus proper => exact absurd rfl (plus _)
    | minus proper => exact absurd rfl (minus _)
  · rintro ⟨proper, rfl⟩
    exact .plain proper

theorem map_magnitude_ok_iff {sign : Int → Int} {value : Int} (some : digits ≠ []) :
    (magnitude limit beyond 0 digits >>= fun number => pure (number : Int)).map sign =
        .ok value ↔
      Digits digits ∧ worth digits ≤ limit ∧ value = sign (worth digits) := by
  cases read : magnitude limit beyond 0 digits with
  | error fault =>
      refine ⟨nofun, fun ⟨proper, bounded, _⟩ => ?_⟩
      rw [magnitude_ok_iff.mpr ⟨proper.2, fun _ => bounded, rfl⟩] at read
      cases read
  | ok number =>
      obtain ⟨all, bounded, rfl⟩ := magnitude_ok_iff.mp read
      exact ⟨fun same => ⟨⟨some, all⟩, bounded some, (Except.ok.inj same).symm⟩,
        fun same => congrArg Except.ok same.2.2.symm⟩

/-- `signed` accepts a text iff it is a numeral of a number within the limits, and returns that
number. -/
theorem signed_ok_iff {value : Int} :
    signed limit text = .ok value ↔
      StandsFor text value ∧ -((limit : Int) + 1) ≤ value ∧ value ≤ limit := by
  unfold signed
  split
  · exact ⟨nofun, fun ⟨.plain proper, _⟩ => absurd rfl proper.1⟩
  · exact ⟨nofun, fun ⟨stands, _⟩ => absurd rfl (standsFor_plus_iff.mp stands).1.1⟩
  · exact ⟨nofun, fun ⟨stands, _⟩ => absurd rfl (standsFor_minus_iff.mp stands).1.1⟩
  · next digits some =>
      rw [map_magnitude_ok_iff some, standsFor_plus_iff, and_assoc, and_congr_right_iff]
      omega
  · next digits some =>
      rw [map_magnitude_ok_iff some, standsFor_minus_iff, and_assoc, and_congr_right_iff]
      omega
  · next some _ _ plus minus =>
      rw [map_magnitude_ok_iff some, standsFor_plain_iff plus minus, and_assoc,
        and_congr_right_iff]
      omega

/-- `signed32` accepts a text iff it is a numeral of an `Int32`. -/
theorem signed32_ok_iff {word : Int32} :
    signed32 text = .ok word ↔ StandsFor text word.toInt := by
  have least := word.le_toInt
  have most := word.toInt_lt
  unfold signed32
  constructor
  · intro read
    obtain ⟨value, found, same⟩ : ∃ value, signed 2147483647 text = .ok value ∧
        Int32.ofInt value = word := by
      cases found : signed 2147483647 text with
      | error fault => rw [found] at read; cases read
      | ok value => rw [found] at read; exact ⟨value, rfl, Except.ok.inj read⟩
    obtain ⟨stands, low, high⟩ := signed_ok_iff.mp found
    rwa [← same, Int32.toInt_ofInt_of_le (by omega) (by omega)]
  · intro stands
    rw [signed_ok_iff.mpr ⟨stands, by omega, by omega⟩]
    exact congrArg Except.ok (Int32.ofInt_toInt word)

/-! ### Numerals that are written -/

theorem digits_toDigits (number : Nat) : Digits (Nat.toDigits 10 number) :=
  ⟨Nat.toDigits_ne_nil, fun _ member =>
    Nat.isDigit_of_mem_toDigits (by decide) (by decide) member⟩

theorem worth_toDigits (number : Nat) : worth (Nat.toDigits 10 number) = number :=
  Nat.ofDigitChars_ten_toDigits

/-- `toString` of a number is a numeral that stands for it. -/
theorem standsFor_toString (value : Int) : StandsFor (toString value).toList value := by
  rw [Int.toString_eq_repr, Int.repr_eq_if]
  split
  · next positive =>
      rw [Nat.toList_repr]
      have stands := StandsFor.plain (digits_toDigits value.toNat)
      rwa [worth_toDigits, Int.toNat_of_nonneg positive] at stands
  · next negative =>
      have stands := StandsFor.minus (digits_toDigits (-value).toNat)
      rw [worth_toDigits, Int.toNat_of_nonneg (by omega), Int.neg_neg] at stands
      rwa [String.toList_append, Nat.toList_repr]

end Numeral

/-! ### Blanks around a numeral -/

/-- A numeral of this number between blanks. -/
def Denotes (piece : List Char) (word : Int32) : Prop :=
  ∃ before numeral behind, piece = before ++ numeral ++ behind ∧
    (∀ character ∈ before, Blank.isBlank character = true) ∧
    (∀ character ∈ behind, Blank.isBlank character = true) ∧ StandsFor numeral word.toInt

namespace Blank

variable {text before behind : List Char}

theorem trim_spec (text : List Char) :
    ∃ before behind, text = before ++ trim text ++ behind ∧
      (∀ character ∈ before, isBlank character = true) ∧
      ∀ character ∈ behind, isBlank character = true := by
  refine ⟨text.takeWhile isBlank, ((trimLeft text).reverse.takeWhile isBlank).reverse, ?_,
    fun _ => List.mem_takeWhile_imp, fun character member => ?_⟩
  · have right : trim text ++ ((trimLeft text).reverse.takeWhile isBlank).reverse =
        trimLeft text := by
      rw [trim, trimRight, ← List.reverse_append, List.takeWhile_append_dropWhile,
        List.reverse_reverse]
    rw [List.append_assoc, right, trimLeft, List.takeWhile_append_dropWhile]
  · exact List.mem_takeWhile_imp (List.mem_reverse.mp member)

theorem trimLeft_append (blank : ∀ character ∈ before, isBlank character = true)
    (full : ∀ character ∈ text, isBlank character = false) (some : text ≠ []) :
    trimLeft (before ++ text ++ behind) = text ++ behind := by
  obtain ⟨first, others, rfl⟩ := List.exists_cons_of_ne_nil some
  have seen := full first List.mem_cons_self
  rw [trimLeft, List.append_assoc, List.dropWhile_append_of_pos blank, List.cons_append,
    List.dropWhile_cons_of_neg (by rw [seen]; exact Bool.false_ne_true)]

theorem trimRight_append (blank : ∀ character ∈ behind, isBlank character = true)
    (full : ∀ character ∈ text, isBlank character = false) (some : text ≠ []) :
    trimRight (text ++ behind) = text := by
  have turned := @trimLeft_append text.reverse behind.reverse []
    (fun character member => blank character (List.mem_reverse.mp member))
    (fun character member => full character (List.mem_reverse.mp member))
    fun none => some (List.reverse_eq_nil_iff.mp none)
  rw [List.append_nil, List.append_nil, ← List.reverse_append, trimLeft] at turned
  rw [trimRight, turned, List.reverse_reverse]

end Blank

theorem StandsFor.characters {text : List Char} {value : Int} (stands : StandsFor text value) :
    text ≠ [] ∧ ∀ character ∈ text,
      character.isDigit = true ∨ character = '+' ∨ character = '-' := by
  cases stands with
  | plain proper => exact ⟨proper.1, fun character member => .inl (proper.2 character member)⟩
  | plus proper =>
      refine ⟨List.cons_ne_nil _ _, List.forall_mem_cons.mpr ⟨.inr (.inl rfl), ?_⟩⟩
      exact fun character member => .inl (proper.2 character member)
  | minus proper =>
      refine ⟨List.cons_ne_nil _ _, List.forall_mem_cons.mpr ⟨.inr (.inr rfl), ?_⟩⟩
      exact fun character member => .inl (proper.2 character member)

/-- No character of a numeral is blank. -/
theorem StandsFor.not_blank {text : List Char} {value : Int} (stands : StandsFor text value) :
    ∀ character ∈ text, Blank.isBlank character = false := by
  intro character member
  rcases stands.characters.2 character member with digit | rfl | rfl
  · have place : 48 ≤ character.toNat ∧ character.toNat ≤ 57 := by
      rwa [Char.isDigit, Bool.and_eq_true, decide_eq_true_iff, decide_eq_true_iff] at digit
    simp only [Blank.isBlank, Blank.ranges, List.any_cons, List.any_nil, Bool.or_false,
      Bool.or_eq_false_iff, Bool.and_eq_false_imp, decide_eq_true_iff, decide_eq_false_iff_not]
    omega
  · rfl
  · rfl

/-- A text denotes a number iff its trimmed text is a numeral of it. -/
theorem denotes_iff {piece : List Char} {word : Int32} :
    Denotes piece word ↔ StandsFor (Blank.trim piece) word.toInt := by
  constructor
  · rintro ⟨before, numeral, behind, rfl, left, right, stands⟩
    have some := stands.characters.1
    rwa [Blank.trim, Blank.trimLeft_append left stands.not_blank some,
      Blank.trimRight_append right stands.not_blank some]
  · intro stands
    obtain ⟨before, behind, same, left, right⟩ := Blank.trim_spec piece
    exact ⟨before, Blank.trim piece, behind, same, left, right, stands⟩

end RecordStore
