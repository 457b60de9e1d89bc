import RecordStore.Proofs.Text.Utf8

set_option autoImplicit false

/-! Character boundaries in UTF-8. The first byte of a character is never a continuation byte, so
boundaries are recognised from the bytes, and stepping back from a limit to the nearest boundary
agrees with `clip`. -/

namespace RecordStore.Utf8

def isBoundary (bytes : List UInt8) (place : Nat) : Bool :=
  match bytes[place]? with
  | some byte => place == 0 || !isContinuation byte
  | none => place == bytes.length

def stepBack (bytes : List UInt8) : Nat → Nat
  | 0 => 0
  | place + 1 => if isBoundary bytes (place + 1) then place + 1 else stepBack bytes place

/-- The bytes up to the last character boundary within the limit. -/
def cutBack (room : Nat) (bytes : List UInt8) : List UInt8 :=
  bytes.take (stepBack bytes (min bytes.length room))

/-! ### The bytes of one character -/

private theorem not_isContinuation {byte : UInt8} (apart : byte.toNat < 0x80 ∨ 0xBF < byte.toNat) :
    isContinuation byte = false := by
  cases continues : isContinuation byte with
  | false => rfl
  | true =>
      have range := (isContinuation_iff byte).mp continues
      omega

/-- Every byte of an encoded character but the first is a continuation. -/
theorem isContinuation_encodeChar {character : Char} {place : Nat} {byte : UInt8}
    (present : (String.utf8EncodeChar character)[place]? = some byte) :
    isContinuation byte = decide (0 < place) := by
  have last := (ofNat_continues character.toNat).1
  have third := (ofNat_continues (character.toNat / 64)).1
  have second := (ofNat_continues (character.toNat / 4096)).1
  by_cases one : character.toNat ≤ 0x7F
  · rw [encodeChar_one one] at present
    match place with
    | 0 =>
        cases present
        exact not_isContinuation (.inl (by rw [toNat_ofNat_byte] <;> omega))
  · by_cases two : character.toNat ≤ 0x7FF
    · rw [encodeChar_two (by omega) two] at present
      match place with
      | 0 =>
          cases present
          exact not_isContinuation (.inr (by rw [toNat_ofNat_byte] <;> omega))
      | 1 => cases present; exact last
    · by_cases three : character.toNat ≤ 0xFFFF
      · rw [encodeChar_three (by omega) three] at present
        match place with
        | 0 =>
            cases present
            exact not_isContinuation (.inr (by rw [toNat_ofNat_byte] <;> omega))
        | 1 => cases present; exact third
        | 2 => cases present; exact last
      · rw [encodeChar_four (by omega)] at present
        match place with
        | 0 =>
            cases present
            exact not_isContinuation (.inr (by rw [toNat_ofNat_byte] <;> omega))
        | 1 => cases present; exact second
        | 2 => cases present; exact third
        | 3 => cases present; exact last

/-! ### The boundaries of a text -/

theorem encode_cons (character : Char) (rest : List Char) :
    encode (character :: rest) = String.utf8EncodeChar character ++ encode rest := by
  rw [encode, List.flatMap_cons]
  rfl

theorem isBoundary_zero (bytes : List UInt8) : isBoundary bytes 0 = true := by
  cases bytes <;> rfl

theorem isBoundary_append {front back : List UInt8} {place : Nat} (later : 0 < place) :
    isBoundary (front ++ back) (front.length + place) = isBoundary back place := by
  have first : (place == 0) = false := beq_eq_false_iff_ne.mpr (Nat.ne_of_gt later)
  have start : (front.length + place == 0) = false := beq_eq_false_iff_ne.mpr (by omega)
  have last : (front.length + place == front.length + back.length) = (place == back.length) := by
    rw [Bool.eq_iff_iff, beq_iff_eq, beq_iff_eq, Nat.add_left_cancel_iff]
  rw [isBoundary, isBoundary, List.getElem?_append_right (Nat.le_add_right _ _),
    Nat.add_sub_cancel_left, List.length_append, first, start, last]

theorem isBoundary_inside {character : Char} {rest : List Char} {place : Nat} (later : 0 < place)
    (inside : place < character.utf8Size) :
    isBoundary (encode (character :: rest)) place = false := by
  have room : place < (String.utf8EncodeChar character).length := by
    rwa [String.length_utf8EncodeChar]
  have present := List.getElem?_eq_getElem room
  have continues := isContinuation_encodeChar present
  have start : (place == 0) = false := beq_eq_false_iff_ne.mpr (Nat.ne_of_gt later)
  rw [isBoundary, encode_cons, List.getElem?_append_left room, present]
  simp only [start, continues, decide_eq_true later]
  rfl

theorem isBoundary_end (character : Char) (rest : List Char) :
    isBoundary (encode (character :: rest)) character.utf8Size = true := by
  have length := String.length_utf8EncodeChar character
  rw [isBoundary, encode_cons, List.getElem?_append_right (Nat.le_of_eq length), length,
    Nat.sub_self]
  cases rest with
  | nil =>
      rw [List.length_append, length]
      exact beq_self_eq_true _
  | cons next rest =>
      have some : 0 < (String.utf8EncodeChar next).length := by
        rw [String.length_utf8EncodeChar]
        exact next.utf8Size_pos
      have present := List.getElem?_eq_getElem some
      rw [encode_cons, List.getElem?_append_left some, present]
      simp only [isContinuation_encodeChar present]
      exact Bool.or_true _

/-- The boundaries of an encoding are the ends of its prefixes. -/
theorem isBoundary_iff {characters : List Char} {place : Nat} :
    isBoundary (encode characters) place = true ↔
      ∃ front, front <+: characters ∧ (encode front).length = place := by
  induction characters generalizing place with
  | nil =>
      constructor
      · intro boundary
        exact ⟨[], List.prefix_refl [], (beq_iff_eq.mp boundary).symm⟩
      · rintro ⟨front, begins, rfl⟩
        rw [List.prefix_nil.mp begins]
        rfl
  | cons character rest ih =>
      by_cases start : place = 0
      · subst start
        exact iff_of_true (isBoundary_zero _) ⟨[], List.nil_prefix, rfl⟩
      have later : 0 < place := Nat.pos_of_ne_zero start
      constructor
      · intro boundary
        by_cases inside : place < character.utf8Size
        · rw [isBoundary_inside later inside] at boundary
          cases boundary
        · obtain ⟨more, rfl⟩ := Nat.exists_eq_add_of_le (Nat.le_of_not_lt inside)
          have found : ∃ front, front <+: rest ∧ (encode front).length = more := by
            by_cases none : more = 0
            · exact ⟨[], List.nil_prefix, none.symm⟩
            · rw [encode_cons, ← String.length_utf8EncodeChar,
                isBoundary_append (Nat.pos_of_ne_zero none)] at boundary
              exact ih.mp boundary
          obtain ⟨front, begins, length⟩ := found
          exact ⟨character :: front, List.cons_prefix_cons.mpr ⟨rfl, begins⟩, by
            rw [length_encode_cons, length]⟩
      · rintro ⟨front, begins, rfl⟩
        cases front with
        | nil => exact absurd rfl start
        | cons first front =>
            obtain ⟨rfl, within⟩ := List.cons_prefix_cons.mp begins
            rw [length_encode_cons]
            by_cases none : (encode front).length = 0
            · rw [none]
              exact isBoundary_end first rest
            · rw [encode_cons, ← String.length_utf8EncodeChar,
                isBoundary_append (Nat.pos_of_ne_zero none)]
              exact ih.mpr ⟨front, within, rfl⟩

/-! ### Cutting -/

theorem stepBack_eq {bytes : List UInt8} {boundary place : Nat} (before : boundary ≤ place)
    (here : isBoundary bytes boundary = true)
    (last : ∀ other, boundary < other → other ≤ place → isBoundary bytes other = false) :
    stepBack bytes place = boundary := by
  induction place with
  | zero => exact (Nat.le_zero.mp before).symm
  | succ place ih =>
      unfold stepBack
      by_cases same : boundary = place + 1
      · rw [← same, if_pos here]
      · have none := last (place + 1) (by omega) (Nat.le_refl _)
        rw [none, if_neg Bool.false_ne_true]
        exact ih (by omega) fun other above below => last other above (by omega)

theorem length_encode_le {front characters : List Char} (begins : front <+: characters) :
    (encode front).length ≤ (encode characters).length := by
  obtain ⟨rest, rfl⟩ := begins
  rw [encode, encode, List.flatMap_append, List.length_append]
  exact Nat.le_add_right _ _

/-- Clipping a text cuts its bytes at the last boundary within the limit. -/
theorem encode_clip (room : Nat) (characters : List Char) :
    encode (clip room characters) = cutBack room (encode characters) := by
  have begins := clip_prefix room characters
  have stops : stepBack (encode characters) (min (encode characters).length room) =
      (encode (clip room characters)).length := by
    refine stepBack_eq ?_ (isBoundary_iff.mpr ⟨_, begins, rfl⟩) ?_
    · exact Nat.le_min.mpr ⟨length_encode_le begins, length_encode_clip room characters⟩
    · intro other above below
      rw [← Bool.not_eq_true, isBoundary_iff]
      rintro ⟨front, within, rfl⟩
      have fits := Nat.le_trans below (Nat.min_le_right _ _)
      have most := length_encode_le (prefix_clip within fits)
      omega
  rw [cutBack, stops]
  obtain ⟨rest, same⟩ := begins
  have whole : encode characters = encode (clip room characters) ++ encode rest := by
    rw [← same, encode, List.flatMap_append]
    simp only [same]
    rfl
  rw [whole, List.take_left]

end RecordStore.Utf8
