import SovereignInference.Python.FloatDigits

/-!
# Reading the text of a float
-/

namespace Python

open Arithmetic Json

theorem floatNegative_iff {x : Float} (number : IsNumber x) :
    floatNegative x = true ↔ signOf (unpacked x) = some .negative := by
  rw [signOf_eq_negative number]
  exact decide_eq_true_iff

private theorem floatInfinity_unpacked :
    unpacked floatInfinity = .infinity .positive := rfl

/-- The two infinities. -/
theorem eq_infinity {x : Float} (number : x.isNaN = false)
    (infinite : ¬ x.isFinite) :
    x = if floatNegative x then -floatInfinity else floatInfinity := by
  change (unpacked x).isNaN = false at number
  change ¬ (unpacked x).isFinite = true at infinite
  apply eq_of_unpacked
  cases read : unpacked x with
  | notANumber =>
      rw [read] at number
      cases number
  | zero sign =>
      rw [read] at infinite
      exact absurd rfl infinite
  | finite sign mantissa exponent above =>
      rw [read] at infinite
      exact absurd rfl infinite
  | infinity sign =>
      have negative := floatNegative_iff ⟨sign, by rw [read]; rfl⟩
      rw [read] at negative
      cases sign with
      | negative =>
          rw [if_pos (negative.mpr rfl), unpacked_neg, floatInfinity_unpacked]
          rfl
      | positive =>
          rw [if_neg fun isNegative => nomatch negative.mp isNegative]
          exact floatInfinity_unpacked.symm

/-- Digits with the point at a position, as `repr` lays them out. -/
def laidOut (digits : Text) (point : ℤ) : Text :=
  let count : ℤ := digits.length
  if -4 < point ∧ point ≤ 16 then
    if point ≤ 0 then
      text "0." ++ List.replicate (-point).toNat 0x30 ++ digits
    else if count ≤ point then
      digits ++ List.replicate (point - count).toNat 0x30 ++ text ".0"
    else digits.take point.toNat ++ 0x2E :: digits.drop point.toNat
  else
    let tail := digits.drop 1
    let exponent := point - 1
    digits.take 1 ++ (if tail = [] then [] else 0x2E :: tail) ++
      0x65 :: (if exponent < 0 then 0x2D else 0x2B) ::
      leftPad 2 (natText exponent.natAbs)

theorem floatRepr_finite {x : Float} (isFinite : x.isFinite = true) :
    floatRepr x = (if floatNegative x then [0x2D] else []) ++
      laidOut (shortestDigits x).1 (shortestDigits x).2 := by
  unfold floatRepr
  rw [if_pos isFinite]
  cases floatNegative x <;> rfl

/-- A text is a number with a fraction or an exponent, for digits with the
point at a position. -/
def Numbers (s digits : Text) (point : ℤ) : Prop :=
  ∃ whole fraction places exponent value,
    IsWhole whole ∧ IsFraction fraction places ∧ IsDigits places ∧
    IsExponent exponent ∧ fraction ++ exponent ≠ [] ∧
    s = whole ++ fraction ++ exponent ∧ readExponent exponent = some value ∧
    (digitsValue (whole ++ places) : ℚ) * 10 ^ (value - places.length) =
      digitsValue digits * 10 ^ (point - digits.length)

/-- Zeros stand between the point and the digits. -/
theorem numbers_small {digits : Text} {point : ℤ}
    (isDigits : IsDigits digits) (nonempty : digits ≠ [])
    (nonpos : point ≤ 0) :
    Numbers (text "0." ++ List.replicate (-point).toNat 0x30 ++ digits)
      digits point := by
  let places : Text := List.replicate (-point).toNat 0x30 ++ digits
  have some : places ≠ [] := List.append_ne_nil_of_right_ne_nil _ nonempty
  refine ⟨[0x30], 0x2E :: places, places, [], 0, .inl rfl,
    .inr ⟨rfl, some⟩, (isDigits_replicate _).append isDigits, .inl rfl,
    by simp, ?_, rfl, ?_⟩
  · rw [List.append_nil, List.append_assoc]
    rfl
  · have zero : digitsValue [0x30] = 0 := rfl
    simp only [places]
    rw [digitsValue_append, zero, digitsValue_append, digitsValue_replicate,
      List.length_append, List.length_replicate, zero_mul, zero_mul, zero_add,
      zero_add]
    congr 2
    push_cast
    omega

/-- Zeros stand between the digits and the point. -/
theorem numbers_whole {digits : Text} {point : ℤ}
    (isDigits : IsDigits digits) (nonempty : digits ≠ [])
    (leading : digits.head? ≠ some 0x30 ∨ (digits = [0x30] ∧ point = 1))
    (few : digits.length ≤ point) :
    Numbers (digits ++ List.replicate (point - digits.length).toNat 0x30 ++
      text ".0") digits point := by
  let zeros : Text := List.replicate (point - digits.length).toNat 0x30
  have isWhole : IsWhole (digits ++ zeros) := by
    rcases leading with notZero | ⟨rfl, rfl⟩
    · refine .inr ⟨isDigits.append (isDigits_replicate _), ?_, ?_⟩
      · exact List.append_ne_nil_of_left_ne_nil nonempty _
      · rwa [List.head?_append_of_ne_nil _ nonempty]
    · exact .inl rfl
  refine ⟨digits ++ zeros, [0x2E, 0x30], [0x30], [], 0, isWhole,
    .inr ⟨rfl, List.cons_ne_nil _ _⟩, isDigits_replicate 1, .inl rfl,
    by simp, (List.append_nil _).symm, rfl, ?_⟩
  have zero : digitsValue [0x30] = 0 := rfl
  simp only [zeros]
  rw [digitsValue_append, zero, digitsValue_append, digitsValue_replicate,
    List.length_replicate, add_zero, add_zero]
  push_cast
  rw [mul_assoc, mul_assoc, ← zpow_natCast, ← zpow_natCast,
    ← zpow_add₀ (by norm_num), ← zpow_add₀ (by norm_num)]
  congr 2
  simp only [List.length_singleton, Nat.cast_one]
  omega

/-- The point stands between digits. -/
theorem numbers_point {digits : Text} {point : ℤ}
    (isDigits : IsDigits digits) (leading : digits.head? ≠ some 0x30)
    (positive : 0 < point) (more : point < digits.length) :
    Numbers (digits.take point.toNat ++ 0x2E :: digits.drop point.toNat)
      digits point := by
  obtain ⟨position, rfl⟩ := Int.eq_ofNat_of_zero_le positive.le
  rw [Int.toNat_natCast]
  have inside : position < digits.length := by exact_mod_cast more
  have some : digits ≠ [] := List.ne_nil_of_length_pos (by omega)
  have isWhole : IsWhole (digits.take position) := by
    refine .inr ⟨fun c member => isDigits c (List.mem_of_mem_take member),
      ?_, ?_⟩
    · apply List.ne_nil_of_length_pos
      rw [List.length_take]
      omega
    · rwa [List.head?_take, if_neg (by omega)]
  have later : digits.drop position ≠ [] := by
    apply List.ne_nil_of_length_pos
    rw [List.length_drop]
    omega
  refine ⟨digits.take position, 0x2E :: digits.drop position,
    digits.drop position, [], 0, isWhole, .inr ⟨rfl, later⟩,
    fun c member => isDigits c (List.mem_of_mem_drop member), .inl rfl,
    by simp, (List.append_nil _).symm, rfl, ?_⟩
  rw [List.take_append_drop, List.length_drop]
  congr 2
  omega

/-- The value of the exponent that is written. -/
theorem readExponent_written (exponent : ℤ) :
    readExponent (0x65 :: (if exponent < 0 then 0x2D else 0x2B) ::
      leftPad 2 (natText exponent.natAbs)) = some exponent := by
  have isDigits := List.all_eq_true.mpr
    (@isDigits_leftPad 2 _ (isDigits_natText exponent.natAbs))
  have nonempty : leftPad 2 (natText exponent.natAbs) ≠ [] :=
    List.append_ne_nil_of_right_ne_nil _
      (natText_isWhole exponent.natAbs).isDigits.2
  have isValue : digitsValue (leftPad 2 (natText exponent.natAbs)) =
      exponent.natAbs := by
    rw [digitsValue_leftPad, digitsValue_natText]
  generalize leftPad 2 (natText exponent.natAbs) = digits at *
  have minus : readSign (0x2D :: digits) = (true, digits) := rfl
  have plus : readSign (0x2B :: digits) = (false, digits) := rfl
  unfold readExponent
  dsimp only
  by_cases negative : exponent < 0
  · rw [if_pos negative, minus]
    dsimp only
    rw [if_pos ⟨.inl rfl, nonempty, isDigits⟩, if_pos rfl, isValue]
    congr 1
    omega
  · rw [if_neg negative, plus]
    dsimp only
    rw [if_pos ⟨.inl rfl, nonempty, isDigits⟩, if_neg nofun, isValue]
    congr 1
    omega

/-- The point stands after the first digit, and an exponent follows. -/
theorem numbers_exponent {digits : Text} {point : ℤ}
    (isDigits : IsDigits digits) (nonempty : digits ≠ [])
    (leading : digits.head? ≠ some 0x30 ∨ (digits = [0x30] ∧ point = 1)) :
    Numbers (digits.take 1 ++
      (if digits.drop 1 = [] then [] else 0x2E :: digits.drop 1) ++
      0x65 :: (if point - 1 < 0 then 0x2D else 0x2B) ::
      leftPad 2 (natText (point - 1).natAbs)) digits point := by
  obtain ⟨first, tail, rfl⟩ := List.exists_cons_of_ne_nil nonempty
  obtain ⟨isDigit, others⟩ := List.forall_mem_cons.mp isDigits
  have isWhole : IsWhole [first] := by
    rcases leading with notZero | ⟨same, _⟩
    · exact .inr ⟨List.forall_mem_singleton.mpr isDigit,
        List.cons_ne_nil _ _, notZero⟩
    · cases same
      exact .inl rfl
  have isFraction : IsFraction (if tail = [] then [] else 0x2E :: tail)
      tail := by
    split_ifs with none
    · exact .inl ⟨rfl, none⟩
    · exact .inr ⟨rfl, none⟩
  refine ⟨[first], _, tail, _, point - 1, isWhole, isFraction, others,
    .inr ⟨0x65, [if point - 1 < 0 then 0x2D else 0x2B],
      leftPad 2 (natText (point - 1).natAbs), rfl, .inl rfl, ?_,
      isDigits_leftPad (isDigits_natText _), ?_⟩, ?_, rfl,
    readExponent_written _, ?_⟩
  · split_ifs
    · exact .inr (.inr rfl)
    · exact .inr (.inl rfl)
  · exact List.append_ne_nil_of_right_ne_nil _ (natText_isWhole _).isDigits.2
  · exact List.append_ne_nil_of_right_ne_nil _ (List.cons_ne_nil _ _)
  · rw [List.singleton_append, List.length_cons]
    congr 2
    push_cast
    omega

private theorem numbers_laidOut {x : Float} {digits : Text} {point : ℤ}
    (isOf : DigitsOf x digits point) :
    Numbers (laidOut digits point) digits point := by
  unfold laidOut
  dsimp only
  by_cases plain : -4 < point ∧ point ≤ 16
  · rw [if_pos plain]
    split_ifs with small few
    · exact numbers_small isOf.isDigits isOf.nonempty small
    · exact numbers_whole isOf.isDigits isOf.nonempty isOf.leading few
    · refine numbers_point isOf.isDigits ?_ (by omega) (by omega)
      rcases isOf.leading with notZero | ⟨rfl, rfl⟩
      · exact notZero
      · exact absurd le_rfl few
  · rw [if_neg plain]
    exact numbers_exponent isOf.isDigits isOf.nonempty isOf.leading

/-- The shortest representation of a finite float is a number with a fraction
or an exponent, and is read back as the float. -/
theorem floatRepr_reads {x : Float} (isFinite : x.isFinite = true) :
    ∃ sign digits fraction places exponent value,
      (sign = [] ∨ sign = [0x2D]) ∧ IsWhole digits ∧
      IsFraction fraction places ∧ IsDigits places ∧ IsExponent exponent ∧
      fraction ++ exponent ≠ [] ∧
      floatRepr x = sign ++ (digits ++ fraction ++ exponent) ∧
      readExponent exponent = some value ∧
      floatOfNumeral ⟨sign ≠ [], digits ++ places, value - places.length⟩ =
        x := by
  have isOf := shortestDigits_digitsOf isFinite
  obtain ⟨whole, fraction, places, exponent, value, isWhole, isFraction,
    isDigits, isExponent, some, written, reads, isValue⟩ :=
    numbers_laidOut isOf
  have number : IsNumber x := isNumber_of_isFinite isFinite
  have magnitude : decimalFloat (digitsValue (whole ++ places))
      (value - places.length) = unsigned x := by
    rw [← isOf.reads]
    apply decimalFloat_congr
    rw [isValue, neg_sub]
  have signed := eq_signed_unsigned number
  refine ⟨if floatNegative x then [0x2D] else [], whole, fraction, places,
    exponent, value, ?_, isWhole, isFraction, isDigits, isExponent, some, ?_,
    reads, ?_⟩
  · split_ifs
    · exact .inr rfl
    · exact .inl rfl
  · rw [floatRepr_finite isFinite, written]
  · have sign : (if floatNegative x = true then [0x2D] else [] : Text) ≠ [] ↔
        2 ^ 63 ≤ x.toBits.toNat := by
      unfold floatNegative
      simp
    conv_rhs => rw [signed, ← magnitude]
    unfold floatOfNumeral
    simp only [sign, decide_eq_true_eq]
    rfl

end Python
