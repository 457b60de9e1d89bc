import RecordStore.Text.Utf8

set_option autoImplicit false

/-! `decode` inverts `encode` and accepts nothing else. `clip` keeps a text that fits, and its
result always fits. -/

namespace RecordStore.Utf8

theorem toNat_ofNat_byte {number : Nat} (small : number < 256) :
    (UInt8.ofNat number).toNat = number :=
  UInt8.toNat_ofNat_of_lt' small

theorem within_iff (low high byte : UInt8) :
    within low high byte = true ↔ low.toNat ≤ byte.toNat ∧ byte.toNat ≤ high.toNat := by
  simp [within, UInt8.le_iff_toNat_le]

theorem isContinuation_iff (byte : UInt8) :
    isContinuation byte = true ↔ 0x80 ≤ byte.toNat ∧ byte.toNat ≤ 0xBF :=
  within_iff 0x80 0xBF byte

private theorem beq_byte_iff (left right : UInt8) :
    (left == right) = true ↔ left.toNat = right.toNat := by
  rw [beq_iff_eq, UInt8.toNat_inj]

theorem secondOfThree_iff (lead second : UInt8) :
    secondOfThree lead second = true ↔
      isContinuation second = true ∧ (lead.toNat = 0xE0 → 0xA0 ≤ second.toNat) ∧
        (lead.toNat = 0xED → second.toNat ≤ 0x9F) := by
  have least := beq_byte_iff lead 0xE0
  have surrogates := beq_byte_iff lead 0xED
  have leastNumber : (0xE0 : UInt8).toNat = 0xE0 := rfl
  have surrogateNumber : (0xED : UInt8).toNat = 0xED := rfl
  rw [leastNumber] at least
  rw [surrogateNumber] at surrogates
  unfold secondOfThree
  split
  · next same =>
      have exact := least.mp same
      rw [within_iff, isContinuation_iff, exact]
      simp only [UInt8.reduceToNat, Nat.reduceEqDiff, true_imp_iff, false_imp_iff, and_true]
      omega
  · next different =>
      have notLeast : lead.toNat ≠ 0xE0 := fun equal => different (least.mpr equal)
      split
      · next same =>
          have exact := surrogates.mp same
          rw [within_iff, isContinuation_iff, exact]
          simp only [UInt8.reduceToNat, Nat.reduceEqDiff, true_imp_iff, false_imp_iff, true_and]
          omega
      · next other =>
          have notSurrogate : lead.toNat ≠ 0xED := fun equal => other (surrogates.mpr equal)
          simp [notLeast, notSurrogate]

theorem secondOfFour_iff (lead second : UInt8) :
    secondOfFour lead second = true ↔
      isContinuation second = true ∧ (lead.toNat = 0xF0 → 0x90 ≤ second.toNat) ∧
        (lead.toNat = 0xF4 → second.toNat ≤ 0x8F) := by
  have least := beq_byte_iff lead 0xF0
  have last := beq_byte_iff lead 0xF4
  have leastNumber : (0xF0 : UInt8).toNat = 0xF0 := rfl
  have lastNumber : (0xF4 : UInt8).toNat = 0xF4 := rfl
  rw [leastNumber] at least
  rw [lastNumber] at last
  unfold secondOfFour
  split
  · next same =>
      have exact := least.mp same
      rw [within_iff, isContinuation_iff, exact]
      simp only [UInt8.reduceToNat, Nat.reduceEqDiff, true_imp_iff, false_imp_iff, and_true]
      omega
  · next different =>
      have notLeast : lead.toNat ≠ 0xF0 := fun equal => different (least.mpr equal)
      split
      · next same =>
          have exact := last.mp same
          rw [within_iff, isContinuation_iff, exact]
          simp only [UInt8.reduceToNat, Nat.reduceEqDiff, true_imp_iff, false_imp_iff, true_and]
          omega
      · next other =>
          have notLast : lead.toNat ≠ 0xF4 := fun equal => other (last.mpr equal)
          simp [notLeast, notLast]

/-! ### Reading one character -/

private theorem not_low {lead : UInt8} {bound : Nat} (above : bound ≤ lead.toNat)
    (high : 0x80 ≤ bound) : ¬ lead < 0x80 := by
  rw [UInt8.lt_iff_toNat_lt]
  have number : (0x80 : UInt8).toNat = 0x80 := rfl
  omega

private theorem not_within {low high byte : UInt8} (above : high.toNat < byte.toNat) :
    ¬ within low high byte = true := by
  rw [within_iff]
  omega

theorem decodeFrom_one (index : Nat) {lead : UInt8} (rest : List UInt8)
    (leads : lead.toNat < 0x80) :
    decodeFrom index (lead :: rest) =
      (decodeFrom (index + 1) rest).map (Char.ofNat lead.toNat :: ·) := by
  have low : lead < 0x80 := UInt8.lt_iff_toNat_lt.mpr leads
  rw [decodeFrom.eq_def]
  simp only [if_pos low]

theorem decodeFrom_two (index : Nat) {lead second : UInt8} (rest : List UInt8)
    (leads : within 0xC2 0xDF lead = true) (continues : isContinuation second = true) :
    decodeFrom index (lead :: second :: rest) =
      (decodeFrom (index + 2) rest).map (joinTwo lead second :: ·) := by
  have notOne : ¬ lead < 0x80 := not_low ((within_iff _ _ _).mp leads).1 (by decide)
  rw [decodeFrom.eq_def]
  simp only [if_neg notOne, if_pos leads, if_pos continues]

theorem decodeFrom_three (index : Nat) {lead second third : UInt8} (rest : List UInt8)
    (leads : within 0xE0 0xEF lead = true) (follows : secondOfThree lead second = true)
    (continues : isContinuation third = true) :
    decodeFrom index (lead :: second :: third :: rest) =
      (decodeFrom (index + 3) rest).map (joinThree lead second third :: ·) := by
  have range := (within_iff _ _ _).mp leads
  have notOne : ¬ lead < 0x80 := not_low range.1 (by decide)
  have notTwo : ¬ within 0xC2 0xDF lead = true :=
    not_within (Nat.lt_of_lt_of_le (by decide) range.1)
  rw [decodeFrom.eq_def]
  simp only [if_neg notOne, if_neg notTwo, if_pos leads, if_pos follows, if_pos continues]

theorem decodeFrom_four (index : Nat) {lead second third fourth : UInt8} (rest : List UInt8)
    (leads : within 0xF0 0xF4 lead = true) (follows : secondOfFour lead second = true)
    (continues : isContinuation third = true) (ends : isContinuation fourth = true) :
    decodeFrom index (lead :: second :: third :: fourth :: rest) =
      (decodeFrom (index + 4) rest).map (joinFour lead second third fourth :: ·) := by
  have range := (within_iff _ _ _).mp leads
  have notOne : ¬ lead < 0x80 := not_low range.1 (by decide)
  have notTwo : ¬ within 0xC2 0xDF lead = true :=
    not_within (Nat.lt_of_lt_of_le (by decide) range.1)
  have notThree : ¬ within 0xE0 0xEF lead = true :=
    not_within (Nat.lt_of_lt_of_le (by decide) range.1)
  rw [decodeFrom.eq_def]
  simp only [if_neg notOne, if_neg notTwo, if_neg notThree, if_pos leads, if_pos follows,
    if_pos continues, if_pos ends]

/-! ### The payload of a character -/

theorem toNat_ofNat_scalar {number : Nat} (scalar : number.isValidChar) :
    (Char.ofNat number).toNat = number := by
  unfold Char.ofNat
  rw [dif_pos scalar]
  rfl

theorem payload_of_continuation {byte : UInt8} (continues : isContinuation byte = true) :
    byte.toNat = payload byte + 0x80 ∧ payload byte < 64 := by
  have range := (isContinuation_iff byte).mp continues
  unfold payload
  omega

/-- Two bytes carry the number of a character of two bytes. -/
theorem toNat_joinTwo {lead second : UInt8} (leads : within 0xC2 0xDF lead = true)
    (continues : isContinuation second = true) :
    (joinTwo lead second).toNat = lead.toNat % 32 * 64 + payload second ∧
      0x7F < (joinTwo lead second).toNat ∧ (joinTwo lead second).toNat ≤ 0x7FF := by
  have range := (within_iff _ _ _).mp leads
  simp only [UInt8.reduceToNat] at range
  have carried := payload_of_continuation continues
  have exact : (joinTwo lead second).toNat = lead.toNat % 32 * 64 + payload second :=
    toNat_ofNat_scalar (Or.inl (by omega))
  rw [exact]
  omega

theorem toNat_joinThree {lead second third : UInt8} (leads : within 0xE0 0xEF lead = true)
    (follows : secondOfThree lead second = true) (continues : isContinuation third = true) :
    (joinThree lead second third).toNat =
        (lead.toNat % 16 * 64 + payload second) * 64 + payload third ∧
      0x7FF < (joinThree lead second third).toNat ∧
      (joinThree lead second third).toNat ≤ 0xFFFF := by
  have range := (within_iff _ _ _).mp leads
  simp only [UInt8.reduceToNat] at range
  obtain ⟨secondContinues, least, surrogates⟩ := (secondOfThree_iff lead second).mp follows
  have middle := payload_of_continuation secondContinues
  have last := payload_of_continuation continues
  have scalar : ((lead.toNat % 16 * 64 + payload second) * 64 + payload third).isValidChar := by
    unfold Nat.isValidChar
    omega
  have exact := toNat_ofNat_scalar scalar
  change (joinThree lead second third).toNat = _ at exact
  rw [exact]
  omega

theorem toNat_joinFour {lead second third fourth : UInt8} (leads : within 0xF0 0xF4 lead = true)
    (follows : secondOfFour lead second = true) (continues : isContinuation third = true)
    (ends : isContinuation fourth = true) :
    (joinFour lead second third fourth).toNat =
        ((lead.toNat % 8 * 64 + payload second) * 64 + payload third) * 64 + payload fourth ∧
      0xFFFF < (joinFour lead second third fourth).toNat := by
  have range := (within_iff _ _ _).mp leads
  simp only [UInt8.reduceToNat] at range
  obtain ⟨secondContinues, least, largest⟩ := (secondOfFour_iff lead second).mp follows
  have middle := payload_of_continuation secondContinues
  have next := payload_of_continuation continues
  have last := payload_of_continuation ends
  have scalar : (((lead.toNat % 8 * 64 + payload second) * 64 + payload third) * 64 +
      payload fourth).isValidChar := by
    unfold Nat.isValidChar
    omega
  have exact := toNat_ofNat_scalar scalar
  change (joinFour lead second third fourth).toNat = _ at exact
  rw [exact]
  omega

/-! ### Writing one character -/

theorem encodeChar_one {character : Char} (small : character.toNat ≤ 0x7F) :
    String.utf8EncodeChar character = [UInt8.ofNat character.toNat] := by
  simp only [String.utf8EncodeChar]
  exact if_pos small

theorem encodeChar_two {character : Char} (low : 0x7F < character.toNat)
    (high : character.toNat ≤ 0x7FF) :
    String.utf8EncodeChar character =
      [UInt8.ofNat (character.toNat / 64 % 0x20 + 0xC0),
        UInt8.ofNat (character.toNat % 0x40 + 0x80)] := by
  simp only [String.utf8EncodeChar]
  exact (if_neg (Nat.not_le.mpr low)).trans (if_pos high)

theorem encodeChar_three {character : Char} (low : 0x7FF < character.toNat)
    (high : character.toNat ≤ 0xFFFF) :
    String.utf8EncodeChar character =
      [UInt8.ofNat (character.toNat / 4096 % 0x10 + 0xE0),
        UInt8.ofNat (character.toNat / 64 % 0x40 + 0x80),
        UInt8.ofNat (character.toNat % 0x40 + 0x80)] := by
  simp only [String.utf8EncodeChar]
  exact (if_neg (Nat.not_le.mpr (Nat.lt_trans (by decide) low))).trans
    ((if_neg (Nat.not_le.mpr low)).trans (if_pos high))

theorem encodeChar_four {character : Char} (low : 0xFFFF < character.toNat) :
    String.utf8EncodeChar character =
      [UInt8.ofNat (character.toNat / 262144 % 0x08 + 0xF0),
        UInt8.ofNat (character.toNat / 4096 % 0x40 + 0x80),
        UInt8.ofNat (character.toNat / 64 % 0x40 + 0x80),
        UInt8.ofNat (character.toNat % 0x40 + 0x80)] := by
  simp only [String.utf8EncodeChar]
  exact (if_neg (Nat.not_le.mpr (Nat.lt_trans (by decide) low))).trans
    ((if_neg (Nat.not_le.mpr (Nat.lt_trans (by decide) low))).trans (if_neg (Nat.not_le.mpr low)))

theorem ofNat_eq_byte {number : Nat} {byte : UInt8} (same : number = byte.toNat) :
    UInt8.ofNat number = byte := by
  rw [same]
  exact UInt8.ofNat_toNat

theorem encodeChar_ofNat_one {lead : UInt8} (leads : lead.toNat < 0x80) :
    String.utf8EncodeChar (Char.ofNat lead.toNat) = [lead] := by
  have exact : (Char.ofNat lead.toNat).toNat = lead.toNat :=
    toNat_ofNat_scalar (Or.inl (by omega))
  rw [encodeChar_one (by omega), exact, UInt8.ofNat_toNat]

theorem encodeChar_joinTwo {lead second : UInt8} (leads : within 0xC2 0xDF lead = true)
    (continues : isContinuation second = true) :
    String.utf8EncodeChar (joinTwo lead second) = [lead, second] := by
  obtain ⟨exact, low, high⟩ := toNat_joinTwo leads continues
  have range := (within_iff _ _ _).mp leads
  simp only [UInt8.reduceToNat] at range
  have carried := payload_of_continuation continues
  rw [encodeChar_two low high, exact]
  congr 1
  · exact ofNat_eq_byte (by omega)
  · congr 1
    exact ofNat_eq_byte (by omega)

theorem encodeChar_joinThree {lead second third : UInt8} (leads : within 0xE0 0xEF lead = true)
    (follows : secondOfThree lead second = true) (continues : isContinuation third = true) :
    String.utf8EncodeChar (joinThree lead second third) = [lead, second, third] := by
  obtain ⟨exact, low, high⟩ := toNat_joinThree leads follows continues
  have range := (within_iff _ _ _).mp leads
  simp only [UInt8.reduceToNat] at range
  have middle := payload_of_continuation ((secondOfThree_iff lead second).mp follows).1
  have last := payload_of_continuation continues
  rw [encodeChar_three low high, exact]
  congr 1
  · exact ofNat_eq_byte (by omega)
  · congr 1
    · exact ofNat_eq_byte (by omega)
    · congr 1
      exact ofNat_eq_byte (by omega)

theorem encodeChar_joinFour {lead second third fourth : UInt8}
    (leads : within 0xF0 0xF4 lead = true) (follows : secondOfFour lead second = true)
    (continues : isContinuation third = true) (ends : isContinuation fourth = true) :
    String.utf8EncodeChar (joinFour lead second third fourth) =
      [lead, second, third, fourth] := by
  obtain ⟨exact, low⟩ := toNat_joinFour leads follows continues ends
  have range := (within_iff _ _ _).mp leads
  simp only [UInt8.reduceToNat] at range
  have middle := payload_of_continuation ((secondOfFour_iff lead second).mp follows).1
  have next := payload_of_continuation continues
  have last := payload_of_continuation ends
  rw [encodeChar_four low, exact]
  congr 1
  · exact ofNat_eq_byte (by omega)
  · congr 1
    · exact ofNat_eq_byte (by omega)
    · congr 1
      · exact ofNat_eq_byte (by omega)
      · congr 1
        exact ofNat_eq_byte (by omega)

/-! ### Reading back one character -/

theorem ofNat_continues (number : Nat) :
    isContinuation (UInt8.ofNat (number % 0x40 + 0x80)) = true ∧
      (UInt8.ofNat (number % 0x40 + 0x80)).toNat = number % 0x40 + 0x80 ∧
      payload (UInt8.ofNat (number % 0x40 + 0x80)) = number % 0x40 := by
  have exact : (UInt8.ofNat (number % 0x40 + 0x80)).toNat = number % 0x40 + 0x80 :=
    toNat_ofNat_byte (by omega)
  refine ⟨?_, exact, ?_⟩
  · rw [isContinuation_iff, exact]
    omega
  · rw [payload, exact]
    omega

private theorem decodeFrom_encodeChar_two (index : Nat) {character : Char} (rest : List UInt8)
    (low : 0x7F < character.toNat) (high : character.toNat ≤ 0x7FF) :
    decodeFrom index (String.utf8EncodeChar character ++ rest) =
      (decodeFrom (index + 2) rest).map (character :: ·) := by
  obtain ⟨continues, -, carried⟩ := ofNat_continues character.toNat
  have lead : (UInt8.ofNat (character.toNat / 64 % 0x20 + 0xC0)).toNat =
      character.toNat / 64 % 0x20 + 0xC0 := toNat_ofNat_byte (by omega)
  have leads : within 0xC2 0xDF (UInt8.ofNat (character.toNat / 64 % 0x20 + 0xC0)) = true := by
    rw [within_iff, lead]
    simp only [UInt8.reduceToNat]
    omega
  have same : joinTwo (UInt8.ofNat (character.toNat / 64 % 0x20 + 0xC0))
      (UInt8.ofNat (character.toNat % 0x40 + 0x80)) = character := by
    apply Char.toNat_inj.mp
    rw [(toNat_joinTwo leads continues).1, lead, carried]
    omega
  rw [encodeChar_two low high]
  exact (decodeFrom_two index rest leads continues).trans (by rw [same])

private theorem decodeFrom_encodeChar_three (index : Nat) {character : Char} (rest : List UInt8)
    (low : 0x7FF < character.toNat) (high : character.toNat ≤ 0xFFFF) :
    decodeFrom index (String.utf8EncodeChar character ++ rest) =
      (decodeFrom (index + 3) rest).map (character :: ·) := by
  obtain ⟨secondContinues, secondNumber, middle⟩ := ofNat_continues (character.toNat / 64)
  obtain ⟨continues, -, last⟩ := ofNat_continues character.toNat
  have scalar : character.toNat < 0xD800 ∨
      (0xDFFF < character.toNat ∧ character.toNat < 0x110000) := character.valid
  have lead : (UInt8.ofNat (character.toNat / 4096 % 0x10 + 0xE0)).toNat =
      character.toNat / 4096 % 0x10 + 0xE0 := toNat_ofNat_byte (by omega)
  have leads : within 0xE0 0xEF (UInt8.ofNat (character.toNat / 4096 % 0x10 + 0xE0)) = true := by
    rw [within_iff, lead]
    simp only [UInt8.reduceToNat]
    omega
  have follows : secondOfThree (UInt8.ofNat (character.toNat / 4096 % 0x10 + 0xE0))
      (UInt8.ofNat (character.toNat / 64 % 0x40 + 0x80)) = true := by
    rw [secondOfThree_iff, lead, secondNumber]
    exact ⟨secondContinues, by omega, by omega⟩
  have same : joinThree (UInt8.ofNat (character.toNat / 4096 % 0x10 + 0xE0))
      (UInt8.ofNat (character.toNat / 64 % 0x40 + 0x80))
      (UInt8.ofNat (character.toNat % 0x40 + 0x80)) = character := by
    apply Char.toNat_inj.mp
    rw [(toNat_joinThree leads follows continues).1, lead, middle, last]
    omega
  rw [encodeChar_three low high]
  exact (decodeFrom_three index rest leads follows continues).trans (by rw [same])

private theorem decodeFrom_encodeChar_four (index : Nat) {character : Char} (rest : List UInt8)
    (low : 0xFFFF < character.toNat) :
    decodeFrom index (String.utf8EncodeChar character ++ rest) =
      (decodeFrom (index + 4) rest).map (character :: ·) := by
  obtain ⟨secondContinues, secondNumber, middle⟩ := ofNat_continues (character.toNat / 4096)
  obtain ⟨continues, -, next⟩ := ofNat_continues (character.toNat / 64)
  obtain ⟨ends, -, last⟩ := ofNat_continues character.toNat
  have scalar : character.toNat < 0xD800 ∨
      (0xDFFF < character.toNat ∧ character.toNat < 0x110000) := character.valid
  have lead : (UInt8.ofNat (character.toNat / 262144 % 0x08 + 0xF0)).toNat =
      character.toNat / 262144 % 0x08 + 0xF0 := toNat_ofNat_byte (by omega)
  have leads : within 0xF0 0xF4 (UInt8.ofNat (character.toNat / 262144 % 0x08 + 0xF0)) = true := by
    rw [within_iff, lead]
    simp only [UInt8.reduceToNat]
    omega
  have follows : secondOfFour (UInt8.ofNat (character.toNat / 262144 % 0x08 + 0xF0))
      (UInt8.ofNat (character.toNat / 4096 % 0x40 + 0x80)) = true := by
    rw [secondOfFour_iff, lead, secondNumber]
    exact ⟨secondContinues, by omega, by omega⟩
  have same : joinFour (UInt8.ofNat (character.toNat / 262144 % 0x08 + 0xF0))
      (UInt8.ofNat (character.toNat / 4096 % 0x40 + 0x80))
      (UInt8.ofNat (character.toNat / 64 % 0x40 + 0x80))
      (UInt8.ofNat (character.toNat % 0x40 + 0x80)) = character := by
    apply Char.toNat_inj.mp
    rw [(toNat_joinFour leads follows continues ends).1, lead, middle, next, last]
    omega
  rw [encodeChar_four low]
  exact (decodeFrom_four index rest leads follows continues ends).trans (by rw [same])

theorem decodeFrom_encodeChar (index : Nat) (character : Char) (rest : List UInt8) :
    decodeFrom index (String.utf8EncodeChar character ++ rest) =
      (decodeFrom (index + character.utf8Size) rest).map (character :: ·) := by
  rw [← String.length_utf8EncodeChar]
  by_cases one : character.toNat ≤ 0x7F
  · have exact : (UInt8.ofNat character.toNat).toNat = character.toNat :=
      toNat_ofNat_byte (by omega)
    rw [encodeChar_one one]
    refine (decodeFrom_one index rest (by omega)).trans ?_
    rw [exact, Char.ofNat_toNat]
    rfl
  · by_cases two : character.toNat ≤ 0x7FF
    · rw [decodeFrom_encodeChar_two index rest (by omega) two, encodeChar_two (by omega) two]
      rfl
    · by_cases three : character.toNat ≤ 0xFFFF
      · rw [decodeFrom_encodeChar_three index rest (by omega) three,
          encodeChar_three (by omega) three]
        rfl
      · rw [decodeFrom_encodeChar_four index rest (by omega), encodeChar_four (by omega)]
        rfl

/-! ### Whole texts -/

theorem decodeFrom_encode (index : Nat) (characters : List Char) :
    decodeFrom index (encode characters) = .ok characters := by
  induction characters generalizing index with
  | nil => rfl
  | cons character rest ih =>
      rw [encode, List.flatMap_cons, decodeFrom_encodeChar]
      change (decodeFrom (index + character.utf8Size) (encode rest)).map (character :: ·) = _
      rw [ih]
      rfl

theorem decode_encode (characters : List Char) : decode (encode characters) = .ok characters :=
  decodeFrom_encode 0 characters

private theorem encode_of_map {decoded : Except Fault (List Char)} {character : Char}
    {characters : List Char} {front rest : List UInt8}
    (found : decoded.map (character :: ·) = .ok characters)
    (written : String.utf8EncodeChar character = front)
    (later : ∀ others, decoded = .ok others → encode others = rest) :
    encode characters = front ++ rest := by
  cases decoded with
  | error fault => cases found
  | ok others =>
      cases found
      rw [encode, List.flatMap_cons, written]
      exact congrArg (front ++ ·) (later others rfl)

/-- `decode` accepts no other bytes than encodings. -/
theorem encode_of_decodeFrom {index : Nat} {bytes : List UInt8} {characters : List Char}
    (found : decodeFrom index bytes = .ok characters) : encode characters = bytes := by
  fun_induction decodeFrom index bytes generalizing characters with
  | case1 => cases found; rfl
  | case2 index lead rest low ih =>
      have leads : lead.toNat < 0x80 := UInt8.lt_iff_toNat_lt.mp low
      exact encode_of_map found (encodeChar_ofNat_one leads) fun _ => ih
  | case4 index lead notOne leads second rest continues ih =>
      exact encode_of_map found (encodeChar_joinTwo leads continues) fun _ => ih
  | case8 index lead notOne notTwo leads second follows third rest continues ih =>
      exact encode_of_map found (encodeChar_joinThree leads follows continues) fun _ => ih
  | case14 index lead notOne notTwo notThree leads second follows third continues fourth rest
      ends ih =>
      exact encode_of_map found (encodeChar_joinFour leads follows continues ends) fun _ => ih
  | _ => cases found

theorem encode_of_decode {bytes : List UInt8} {characters : List Char}
    (found : decode bytes = .ok characters) : encode characters = bytes :=
  encode_of_decodeFrom found

/-! ### Clipping -/

theorem length_encode_cons (character : Char) (rest : List Char) :
    (encode (character :: rest)).length = character.utf8Size + (encode rest).length := by
  rw [encode, List.flatMap_cons, List.length_append, String.length_utf8EncodeChar]
  rfl

theorem length_encode_clip (room : Nat) (characters : List Char) :
    (encode (clip room characters)).length ≤ room := by
  induction characters generalizing room with
  | nil => exact Nat.zero_le room
  | cons character rest ih =>
      unfold clip
      split
      · have later := ih (room - character.utf8Size)
        rw [length_encode_cons]
        omega
      · exact Nat.zero_le room

theorem clip_eq_self_iff (room : Nat) (characters : List Char) :
    clip room characters = characters ↔ (encode characters).length ≤ room := by
  constructor
  · intro same
    rw [← same]
    exact length_encode_clip room characters
  · intro fits
    induction characters generalizing room with
    | nil => rfl
    | cons character rest ih =>
        rw [length_encode_cons] at fits
        have here : character.utf8Size ≤ room := by omega
        rw [clip, if_pos here, ih (room - character.utf8Size) (by omega)]

theorem clip_clip (room : Nat) (characters : List Char) :
    clip room (clip room characters) = clip room characters :=
  (clip_eq_self_iff room _).mpr (length_encode_clip room characters)

theorem clip_prefix (room : Nat) (characters : List Char) : clip room characters <+: characters := by
  induction characters generalizing room with
  | nil => exact List.prefix_refl []
  | cons character rest ih =>
      unfold clip
      split
      · exact List.cons_prefix_cons.mpr ⟨rfl, ih (room - character.utf8Size)⟩
      · exact List.nil_prefix

theorem prefix_clip {room : Nat} {front characters : List Char} (begins : front <+: characters)
    (fits : (encode front).length ≤ room) : front <+: clip room characters := by
  induction characters generalizing room front with
  | nil => exact begins
  | cons character rest ih =>
      cases front with
      | nil => exact List.nil_prefix
      | cons first front =>
          obtain ⟨rfl, later⟩ := List.cons_prefix_cons.mp begins
          rw [length_encode_cons] at fits
          rw [clip, if_pos (by omega)]
          exact List.cons_prefix_cons.mpr ⟨rfl, ih later (by omega)⟩

end RecordStore.Utf8
