import SovereignInference.Arithmetic.HalfEven
import SovereignInference.Python.DecimalValue
import Mathlib.Data.List.DropRight
import Mathlib.Data.Rat.Floor

/-!
# Decimal texts with six places

A decimal text stands for a rational number.  A number of millionths is written
with six places, and is read back with or without its last zeros.
-/

namespace Python

/-- The rational number of a numeral. -/
def Numeral.value (numeral : Numeral) : ℚ :=
  Decimal.value numeral.negative (digitsValue numeral.digits) numeral.exponent

/-- `float(s)` without rounding.  Infinities and NaNs are no rational
numbers. -/
def parseExact (s : Text) : Except PyExc ℚ :=
  match (dropUnderscores false (strip isAsciiSpace (toAsciiNumeral s))).bind
      readNumeral with
  | some numeral => .ok numeral.value
  | none => .error .valueError

/-- The number of `Decimal(s)`, whatever its size. -/
def decimalOf (s : Text) : Option ℚ :=
  (readNumeral (Decimal.toAscii s)).map Numeral.value

/-- The digits of a number of millionths, with the point. -/
def magnitude (units : Nat) : Text :=
  natText (units / 10 ^ 6) ++ 0x2E :: leftPad 6 (natText (units % 10 ^ 6))

/-- `f"{x:.6f}"` of a number of millionths. -/
def sixPlaces (units : ℤ) : Text :=
  if units < 0 then 0x2D :: magnitude units.natAbs else magnitude units.natAbs

/-- `f"{round(x, 6):.6f}".rstrip("0").rstrip(".") or "0"` of a rational
number. -/
def formatExact (value : ℚ) : Text :=
  let amount := rstrip 0x2E
    (rstrip 0x30 (sixPlaces (Arithmetic.halfEven (value * 10 ^ 6))))
  if amount = [] then "0" else amount

/-- Two decimals that can be compared are in the order of their numbers. -/
theorem decimalOf_le {s t : Text} {a b : ℚ} {x y : Decimal}
    (first : decimalOf s = some a) (second : decimalOf t = some b)
    (order : a ≤ b) (parsed : Decimal.parse s = .ok x)
    (parsed' : Decimal.parse t = .ok y) : x.le y = .ok true := by
  have finite : ∀ {s : Text} {a : ℚ} {x : Decimal}, decimalOf s = some a →
      Decimal.parse s = .ok x → ∃ negative coefficient exponent,
        x = .finite negative coefficient exponent ∧
          Decimal.value negative coefficient exponent = a := by
    intro s a x isDecimal parsed
    obtain ⟨numeral, read, rfl⟩ := Option.map_eq_some_iff.mp isDecimal
    unfold Decimal.parse at parsed
    simp only [read] at parsed
    split_ifs at parsed
    cases parsed
    exact ⟨_, _, _, rfl, rfl⟩
  obtain ⟨_, _, _, rfl, isA⟩ := finite first parsed
  obtain ⟨_, _, _, rfl, isB⟩ := finite second parsed'
  have notAbove : compare a b ≠ .gt := by
    rw [Ne, compare_gt_iff_gt]
    exact not_lt.mpr order
  simp [Decimal.le, Decimal.order, isA, isB, notAbove]

/-- A text of ASCII digits. -/
def IsDigits (s : Text) : Prop := ∀ c ∈ s, isDigit c = true

theorem IsDigits.append {s t : Text} (first : IsDigits s)
    (second : IsDigits t) : IsDigits (s ++ t) := by
  intro c member
  rcases List.mem_append.mp member with inFirst | inSecond
  · exact first c inFirst
  · exact second c inSecond

theorem isDigits_natText (value : Nat) : IsDigits (natText value) := by
  intro c member
  obtain ⟨digit, small, rfl⟩ := mem_natText member
  simp [isDigit, asciiDigit_digitText small]

theorem isDigits_replicate (count : Nat) :
    IsDigits (List.replicate count 0x30) := by
  intro c member
  rw [List.eq_of_mem_replicate member]
  rfl

theorem isDigits_leftPad {width : Nat} {s : Text} (digits : IsDigits s) :
    IsDigits (leftPad width s) :=
  (isDigits_replicate _).append digits

theorem digitsValue_append (s t : Text) :
    digitsValue (s ++ t) =
      digitsValue s * 10 ^ t.length + digitsValue t := by
  unfold digitsValue
  rw [List.foldl_append]
  generalize List.foldl _ 0 s = before
  induction t generalizing before with
  | nil => simp
  | cons c rest induction =>
      rw [List.foldl_cons, induction, List.foldl_cons, induction (_ + _),
        List.length_cons]
      ring

theorem digitsValue_replicate (count : Nat) :
    digitsValue (List.replicate count 0x30) = 0 := by
  induction count with
  | zero => rfl
  | succ count induction => exact induction

theorem digitsValue_natDigits {fuel value : Nat} (enough : value < 10 ^ fuel)
    (later : Text) :
    digitsValue (natDigits fuel value later) =
      value * 10 ^ later.length + digitsValue later := by
  have digit : ∀ small < 10, ∀ later : Text,
      digitsValue (digitText small :: later) =
        small * 10 ^ later.length + digitsValue later := by
    intro small below later
    have single : digitsValue [digitText small] = small := by
      have all : ∀ d : Fin 10, digitsValue [digitText d] = d := by
        decide
      exact all ⟨small, below⟩
    rw [← List.singleton_append, digitsValue_append, single]
  induction fuel generalizing value later with
  | zero =>
      obtain rfl : value = 0 := by simpa using enough
      simp [natDigits]
  | succ fuel induction =>
      have last : value % 10 < 10 := Nat.mod_lt _ (by decide)
      simp only [natDigits]
      split_ifs with small
      · rw [digit _ last, Nat.mod_eq_of_lt small]
      · have fewer : value / 10 < 10 ^ fuel := by
          rw [Nat.pow_succ] at enough
          exact Nat.div_lt_of_lt_mul (by rwa [Nat.mul_comm])
        rw [induction fewer, digit _ last, List.length_cons, Nat.pow_succ]
        have parts := Nat.div_add_mod value 10
        calc value / 10 * (10 ^ later.length * 10) +
              (value % 10 * 10 ^ later.length + digitsValue later)
            = (10 * (value / 10) + value % 10) * 10 ^ later.length +
                digitsValue later := by ring
          _ = value * 10 ^ later.length + digitsValue later := by rw [parts]

@[simp] theorem digitsValue_natText (value : Nat) :
    digitsValue (natText value) = value := by
  have enough : value < 10 ^ (Nat.log2 value + 1) :=
    Nat.lt_log2_self.trans_le (Nat.pow_le_pow_left (by decide) _)
  rw [natText, digitsValue_natDigits enough]
  simp [digitsValue]

theorem length_natDigits {fuel value : Nat} (later : Text) {bound : Nat}
    (below : value < 10 ^ (bound + 1)) :
    (natDigits fuel value later).length ≤ bound + 1 + later.length := by
  induction fuel generalizing value later bound with
  | zero => simp [natDigits]
  | succ fuel induction =>
      simp only [natDigits]
      split_ifs with small
      · simp only [List.length_cons]
        omega
      · cases bound with
        | zero => exact absurd below small
        | succ bound =>
            have fewer : value / 10 < 10 ^ (bound + 1) := by
              rw [Nat.pow_succ] at below
              exact Nat.div_lt_of_lt_mul (by rwa [Nat.mul_comm])
            have shorter := induction (digitText (value % 10) :: later) fewer
            rw [List.length_cons] at shorter
            omega

theorem length_leftPad {width : Nat} {s : Text} (short : s.length ≤ width) :
    (leftPad width s).length = width := by
  unfold leftPad
  rw [List.length_append, List.length_replicate]
  omega

theorem digitsValue_leftPad (width : Nat) (s : Text) :
    digitsValue (leftPad width s) = digitsValue s := by
  unfold leftPad
  rw [digitsValue_append, digitsValue_replicate]
  simp

theorem readNumeral_digits {whole : Text} (digits : IsDigits whole)
    (nonempty : whole ≠ []) :
    readNumeral whole = some ⟨false, whole, 0⟩ := by
  obtain ⟨c, rest, rfl⟩ := List.exists_cons_of_ne_nil nonempty
  have isDigit := digits c List.mem_cons_self
  unfold readNumeral
  rw [Decimal.readSign_digit isDigit]
  have taken := List.takeWhile_eq_self_iff.mpr digits
  have dropped := List.dropWhile_eq_nil_iff.mpr digits
  simp only [taken, dropped]
  simp [readExponent]

theorem readNumeral_point {whole fraction : Text} (digits : IsDigits whole)
    (nonempty : whole ≠ []) (digits' : IsDigits fraction) :
    readNumeral (whole ++ 0x2E :: fraction) =
      some ⟨false, whole ++ fraction, -fraction.length⟩ := by
  obtain ⟨c, rest, rfl⟩ := List.exists_cons_of_ne_nil nonempty
  have isDigit := digits c List.mem_cons_self
  have point : ¬ Python.isDigit 0x2E = true := by decide
  unfold readNumeral
  rw [List.cons_append, Decimal.readSign_digit isDigit, ← List.cons_append]
  have taken := List.takeWhile_eq_self_iff.mpr digits'
  have dropped := List.dropWhile_eq_nil_iff.mpr digits'
  simp only [List.takeWhile_append_of_pos digits,
    List.dropWhile_append_of_pos digits, List.takeWhile_cons_of_neg point,
    List.dropWhile_cons_of_neg point, List.append_nil, List.head?_cons,
    beq_self_eq_true, if_true, List.drop_one, List.tail_cons, taken, dropped]
  simp [readExponent]

theorem readNumeral_minus {c : CodePoint} {rest : Text}
    (digit : isDigit c = true) :
    readNumeral (0x2D :: c :: rest) =
      (readNumeral (c :: rest)).map fun numeral =>
        { numeral with negative := true } := by
  have minus : readSign (0x2D :: c :: rest) = (true, c :: rest) := rfl
  unfold readNumeral
  rw [minus, Decimal.readSign_digit digit]
  dsimp only
  split_ifs <;> simp [Option.map_map, Function.comp_def]

/-- Texts of printed ASCII characters are read as they are. -/
theorem toAscii_plain {s : Text}
    (plain : ∀ c ∈ s, c.val < 0x80 ∧ c.val ≠ 0x5F ∧ isSpace c = false) :
    Decimal.toAscii s = s := by
  have stripped : strip isSpace s = s := strip_plain fun c member =>
    (plain c member).2.2
  unfold Decimal.toAscii
  rw [stripped, List.filter_eq_self.mpr]
  · rw [List.map_congr_left (g := id), List.map_id]
    intro c member
    rw [if_pos (plain c member).1, id]
  · intro c member
    simpa using (plain c member).2.1

theorem rstrip_eq (dropped : CodePoint) (s : Text) :
    rstrip dropped s = s.rdropWhile (· = dropped) := rfl

theorem rstrip_concat (dropped last : CodePoint) (s : Text) :
    rstrip dropped (s ++ [last]) =
      if last = dropped then rstrip dropped s else s ++ [last] := by
  rw [rstrip_eq, List.rdropWhile_concat]
  simp only [decide_eq_true_eq]
  rfl

/-- Stripping at the end stops at any other character. -/
theorem rstrip_append_cons {dropped c : CodePoint} (s rest : Text)
    (other : c ≠ dropped) :
    rstrip dropped (s ++ c :: rest) = s ++ c :: rstrip dropped rest := by
  induction rest using List.reverseRecOn with
  | nil =>
      rw [rstrip_concat, if_neg other]
      rfl
  | append_singleton rest last induction =>
      rw [← List.cons_append, ← List.append_assoc, rstrip_concat, induction,
        rstrip_concat]
      split_ifs
      · rfl
      · simp

theorem rstrip_digits {dropped : CodePoint} {s : Text} (digits : IsDigits s)
    (notDigit : isDigit dropped = false) : rstrip dropped s = s := by
  rw [rstrip_eq, List.rdropWhile_eq_self_iff]
  intro nonempty same
  have last := digits _ (List.getLast_mem nonempty)
  rw [of_decide_eq_true same, notDigit] at last
  cases last

theorem getLast?_rstrip (dropped : CodePoint) (s : Text) :
    (rstrip dropped s).getLast? ≠ some dropped := by
  intro last
  have nonempty : rstrip dropped s ≠ [] := by
    intro empty
    rw [empty] at last
    cases last
  rw [List.getLast?_eq_some_getLast nonempty, Option.some.injEq] at last
  exact List.rdropWhile_last_not (· = dropped) s nonempty
    (decide_eq_true last)

/-- What was stripped is a number of that character. -/
theorem exists_replicate_rstrip (dropped : CodePoint) (s : Text) :
    ∃ count, s = rstrip dropped s ++ List.replicate count dropped := by
  refine ⟨(s.rtakeWhile (· = dropped)).length, ?_⟩
  have whole := @List.rdropWhile_append_rtakeWhile _ (· = dropped) s
  have same : s.rtakeWhile (· = dropped) =
      List.replicate (s.rtakeWhile (· = dropped)).length dropped := by
    rw [List.eq_replicate_iff]
    refine ⟨rfl, ?_⟩
    intro c member
    have satisfies := @List.mem_rtakeWhile_imp _ (· = dropped) s c member
    exact of_decide_eq_true satisfies
  rw [← same]
  exact whole.symm

/-- The value of a text with a point, with the last zeros of its fraction or
without them. -/
theorem value_point {whole fraction kept : Text} {count : Nat}
    (padded : fraction = kept ++ List.replicate count 0x30)
    (negative : Bool) :
    Numeral.value ⟨negative, whole ++ kept, -kept.length⟩ =
      Numeral.value ⟨negative, whole ++ fraction, -fraction.length⟩ := by
  have digits : digitsValue (whole ++ fraction) =
      digitsValue (whole ++ kept) * 10 ^ count := by
    rw [padded, ← List.append_assoc, digitsValue_append, digitsValue_replicate,
      List.length_replicate, Nat.add_zero]
  have shift : (10 : ℚ) ^ count * 10 ^ (-(fraction.length : ℤ)) =
      10 ^ (-(kept.length : ℤ)) := by
    rw [← zpow_natCast, ← zpow_add₀ (by norm_num)]
    congr 1
    rw [padded, List.length_append, List.length_replicate]
    push_cast
    ring
  unfold Numeral.value Decimal.value
  rw [Decimal.scaled_eq, Decimal.scaled_eq, digits, ← shift]
  cases negative with
  | false =>
      simp only [Bool.false_eq_true, if_false]
      push_cast
      ring
  | true =>
      simp only [if_true]
      push_cast
      ring

/-- A decimal without the last zeros of its fraction, and without its point if
nothing is left of it. -/
def trimmed (whole kept : Text) : Text :=
  if kept = [] then whole else whole ++ 0x2E :: kept

theorem exists_kept {whole fraction : Text} (digits : IsDigits whole)
    (nonempty : whole ≠ []) (digits' : IsDigits fraction) :
    ∃ kept count, IsDigits kept ∧ kept.getLast? ≠ some 0x30 ∧
      fraction = kept ++ List.replicate count 0x30 ∧ ∀ sign : Text,
        rstrip 0x2E (rstrip 0x30 (sign ++ (whole ++ 0x2E :: fraction))) =
          sign ++ trimmed whole kept := by
  obtain ⟨count, padded⟩ := exists_replicate_rstrip 0x30 fraction
  have keptDigits : IsDigits (rstrip 0x30 fraction) := by
    intro c member
    apply digits' c
    rw [padded]
    exact List.mem_append_left _ member
  refine ⟨rstrip 0x30 fraction, count, keptDigits, ?_, padded, ?_⟩
  · exact getLast?_rstrip 0x30 fraction
  intro sign
  rw [← List.append_assoc, rstrip_append_cons _ _ (by decide)]
  generalize rstrip 0x30 fraction = kept at keptDigits
  have noPoint : ∀ {c : CodePoint}, isDigit c = true → c ≠ 0x2E := by
    rintro c digit rfl
    cases digit
  unfold trimmed
  cases kept with
  | nil =>
      rw [rstrip_concat, if_pos rfl, if_pos rfl]
      obtain ⟨c, rest, rfl⟩ := List.exists_cons_of_ne_nil nonempty
      rw [rstrip_append_cons _ _ (noPoint (digits c List.mem_cons_self)),
        rstrip_digits _ (by decide)]
      intro d member
      exact digits d (List.mem_cons_of_mem _ member)
  | cons d rest =>
      rw [if_neg (List.cons_ne_nil _ _), List.append_cons,
        rstrip_append_cons _ _ (noPoint (keptDigits d List.mem_cons_self)),
        rstrip_digits _ (by decide)]
      · simp
      · intro e member
        exact keptDigits e (List.mem_cons_of_mem _ member)

theorem readNumeral_trimmed {whole kept : Text} (digits : IsDigits whole)
    (nonempty : whole ≠ []) (digits' : IsDigits kept) :
    readNumeral (trimmed whole kept) =
      some ⟨false, whole ++ kept, -kept.length⟩ := by
  unfold trimmed
  split_ifs with empty
  · subst empty
    simpa using readNumeral_digits digits nonempty
  · exact readNumeral_point digits nonempty digits'

private theorem isDigit_plain {c : CodePoint} (digit : isDigit c = true) :
    c.val < 0x80 ∧ c.val ≠ 0x5F ∧ isSpace c = false := by
  have bounds := Decimal.digit_bounds digit
  exact ⟨by omega, by omega, Decimal.isSpace_digit digit⟩

theorem trimmed_plain {whole kept : Text} (digits : IsDigits whole)
    (digits' : IsDigits kept) :
    ∀ c ∈ trimmed whole kept,
      c.val < 0x80 ∧ c.val ≠ 0x5F ∧ isSpace c = false := by
  intro c member
  unfold trimmed at member
  split_ifs at member
  · exact isDigit_plain (digits c member)
  · rcases List.mem_append.mp member with inWhole | inRest
    · exact isDigit_plain (digits c inWhole)
    · rcases List.mem_cons.mp inRest with rfl | inKept
      · decide
      · exact isDigit_plain (digits' c inKept)

/-- Digits, and perhaps a point and more digits of which the last is not
zero. -/
def IsTrimmed (s : Text) : Prop :=
  ∃ whole kept, IsDigits whole ∧ whole ≠ [] ∧ IsDigits kept ∧
    kept.getLast? ≠ some 0x30 ∧ s = trimmed whole kept

/-- A text without a sign that stands for a number of millionths. -/
structure IsMagnitude (s : Text) (units : Nat) : Prop where
  shape : IsTrimmed s
  plain : ∀ c ∈ s, c.val < 0x80 ∧ c.val ≠ 0x5F ∧ isSpace c = false
  starts : ∃ c rest, s = c :: rest ∧ isDigit c = true
  reads : ∃ digits exponent, readNumeral s = some ⟨false, digits, exponent⟩ ∧
    ∀ negative, Numeral.value ⟨negative, digits, exponent⟩ =
      ((if negative then -units else units : ℤ) : ℚ) / 10 ^ 6

private theorem value_magnitude (units : Nat) (negative : Bool) :
    Numeral.value ⟨negative, natText (units / 10 ^ 6) ++
        leftPad 6 (natText (units % 10 ^ 6)),
        -(leftPad 6 (natText (units % 10 ^ 6))).length⟩ =
      ((if negative then -units else units : ℤ) : ℚ) / 10 ^ 6 := by
  have length : (leftPad 6 (natText (units % 10 ^ 6))).length = 6 := by
    apply length_leftPad
    exact @length_natDigits _ _ [] 5 (Nat.mod_lt _ (by decide))
  have digits : digitsValue (natText (units / 10 ^ 6) ++
      leftPad 6 (natText (units % 10 ^ 6))) = units := by
    rw [digitsValue_append, length, digitsValue_leftPad, digitsValue_natText,
      digitsValue_natText, Nat.mul_comm]
    exact Nat.div_add_mod _ _
  unfold Numeral.value Decimal.value
  rw [digits, length, Decimal.scaled_eq, zpow_neg, ← div_eq_mul_inv]
  rfl

/-- The digits of a number without the last zeros. -/
theorem exists_isMagnitude (units : Nat) :
    ∃ s, IsMagnitude s units ∧ ∀ sign : Text,
      rstrip 0x2E (rstrip 0x30 (sign ++ magnitude units)) = sign ++ s := by
  have whole := isDigits_natText (units / 10 ^ 6)
  have fraction : IsDigits (leftPad 6 (natText (units % 10 ^ 6))) :=
    isDigits_leftPad (isDigits_natText _)
  obtain ⟨digit, small, rest, split⟩ := natText_cons (units / 10 ^ 6)
  have nonempty : natText (units / 10 ^ 6) ≠ [] := by
    rw [split]
    exact List.cons_ne_nil _ _
  obtain ⟨kept, count, keptDigits, last, padded, stripped⟩ :=
    exists_kept whole nonempty fraction
  refine ⟨trimmed (natText (units / 10 ^ 6)) kept, ?_, stripped⟩
  constructor
  case shape => exact ⟨_, kept, whole, nonempty, keptDigits, last, rfl⟩
  case plain => exact trimmed_plain whole keptDigits
  case starts =>
    have first : isDigit (digitText digit) = true := by
      simp [isDigit, asciiDigit_digitText small]
    rw [split]
    unfold trimmed
    split_ifs
    · exact ⟨_, _, rfl, first⟩
    · exact ⟨_, _, List.cons_append, first⟩
  case reads =>
    refine ⟨_, _, readNumeral_trimmed whole nonempty keptDigits, ?_⟩
    intro negative
    rw [value_point padded, value_magnitude]

/-- **What is written is the rounded number.** -/
theorem decimalOf_formatExact (value : ℚ) :
    decimalOf (formatExact value) =
      some ((Arithmetic.halfEven (value * 10 ^ 6) : ℚ) / 10 ^ 6) := by
  unfold formatExact sixPlaces
  generalize Arithmetic.halfEven (value * 10 ^ 6) = units
  obtain ⟨s, ⟨_, plain, ⟨c, rest, isCons, digit⟩, digits, exponent, reads,
    values⟩, stripped⟩ := exists_isMagnitude units.natAbs
  dsimp only
  unfold decimalOf
  by_cases negative : units < 0
  · have minus := stripped [0x2D]
    rw [List.singleton_append, List.singleton_append] at minus
    have minusPlain : ∀ d ∈ 0x2D :: s,
        d.val < 0x80 ∧ d.val ≠ 0x5F ∧ isSpace d = false := by
      intro d member
      rcases List.mem_cons.mp member with rfl | later
      · decide
      · exact plain d later
    rw [if_pos negative, minus, if_neg (List.cons_ne_nil _ _),
      toAscii_plain minusPlain]
    rw [isCons] at reads ⊢
    rw [readNumeral_minus digit, reads, Option.map_some, Option.map_some,
      values]
    have abs : -(units.natAbs : ℤ) = units := by omega
    rw [if_pos rfl, abs]
  · have plus := stripped []
    rw [List.nil_append, List.nil_append] at plus
    have nonempty : s ≠ [] := by
      rw [isCons]
      exact List.cons_ne_nil _ _
    rw [if_neg negative, plus, if_neg nonempty, toAscii_plain plain, reads,
      Option.map_some, values]
    have abs : (units.natAbs : ℤ) = units := by omega
    rw [if_neg (by decide), abs]

/-- A number that is not negative is written without a sign. -/
theorem isTrimmed_formatExact {value : ℚ} (nonnegative : 0 ≤ value) :
    IsTrimmed (formatExact value) := by
  have above : 0 ≤ Arithmetic.halfEven (value * 10 ^ 6) := by
    refine le_trans (Int.floor_nonneg.mpr ?_)
      (Arithmetic.floor_le_halfEven _)
    exact mul_nonneg nonnegative (by norm_num)
  unfold formatExact sixPlaces
  generalize Arithmetic.halfEven (value * 10 ^ 6) = units at above
  obtain ⟨s, ⟨shape, _, ⟨c, rest, isCons, _⟩, _⟩, stripped⟩ :=
    exists_isMagnitude units.natAbs
  have plus := stripped []
  rw [List.nil_append, List.nil_append] at plus
  dsimp only
  rw [if_neg (not_lt.mpr above), plus, if_neg]
  · exact shape
  · rw [isCons]
    exact List.cons_ne_nil _ _

end Python
