import SovereignInference.Python.FixedPoint
import SovereignInference.Python.JsonReading

/-!
# Numbers in JSON texts

What the scanner takes for a number is a numeral.  It is read as an integer if
it has neither fraction nor exponent, which fails only if it has too many
digits, and else as a float, which never fails.
-/

namespace Python

/-- A digit, a sign, a point or the letter of an exponent. -/
def InNumeral (c : CodePoint) : Prop :=
  isDigit c = true ∨ c.val = 0x2B ∨ c.val = 0x2D ∨ c.val = 0x2E ∨
    c.val = 0x65 ∨ c.val = 0x45

theorem InNumeral.bounds {c : CodePoint} (plain : InNumeral c) :
    0x2B ≤ c.val ∧ c.val < 0x80 ∧ c.val ≠ 0x5F := by
  rcases plain with digit | plain
  · have bounds := Decimal.digit_bounds digit
    omega
  · omega

theorem toAsciiNumeral_plain {s : Text} (plain : ∀ c ∈ s, InNumeral c) :
    toAsciiNumeral s = s := by
  unfold toAsciiNumeral
  rw [if_pos]
  rw [List.all_eq_true]
  intro c member
  exact decide_eq_true (plain c member).bounds.2.1

theorem strip_numeral {s : Text} (plain : ∀ c ∈ s, InNumeral c) :
    strip isAsciiSpace s = s := by
  apply strip_plain
  intro c member
  have bounds := (plain c member).bounds
  simp only [isAsciiSpace, Bool.or_eq_false_iff, Bool.and_eq_false_iff,
    decide_eq_false_iff_not, beq_eq_false_iff_ne]
  omega

private theorem dropUnderscores_plain {s : Text} (plain : ∀ c ∈ s, InNumeral c)
    (afterDigit : Bool) : dropUnderscores afterDigit s = some s := by
  induction s generalizing afterDigit with
  | nil => rfl
  | cons c rest induction =>
      obtain ⟨first, others⟩ := List.forall_mem_cons.mp plain
      unfold dropUnderscores
      rw [if_neg first.bounds.2.2, induction others]
      rfl

theorem parseFloat_plain {s : Text} {numeral : Numeral}
    (plain : ∀ c ∈ s, InNumeral c) (read : readNumeral s = some numeral) :
    parseFloat s = .ok (floatOfNumeral numeral) := by
  unfold parseFloat
  rw [toAsciiNumeral_plain plain, strip_numeral plain,
    dropUnderscores_plain plain]
  simp only [read]

theorem inNumeral_digits {s : Text} (digits : IsDigits s) :
    ∀ c ∈ s, InNumeral c := fun c member => .inl (digits c member)

private theorem readDigits_digits {digits : Text} (isDigits : IsDigits digits)
    (count value : Nat) :
    ∃ number, readDigits digits count value =
      some (count + digits.length, number) := by
  induction digits generalizing count value with
  | nil => exact ⟨value, rfl⟩
  | cons c rest induction =>
      have digit := isDigits c List.mem_cons_self
      obtain ⟨number, reads⟩ := Option.isSome_iff_exists.mp digit
      obtain ⟨result, later⟩ := induction
        (fun d member => isDigits d (List.mem_cons_of_mem _ member))
        (count + 1) (value * 10 + number)
      refine ⟨result, ?_⟩
      unfold readDigits
      rw [reads]
      dsimp only
      rw [later, List.length_cons]
      congr 2
      omega

private theorem readNat_digits {digits : Text} (isDigits : IsDigits digits)
    (nonempty : digits ≠ []) :
    ∃ number, readNat digits = some (digits.length, number) := by
  obtain ⟨c, rest, rfl⟩ := List.exists_cons_of_ne_nil nonempty
  have digit := isDigits c List.mem_cons_self
  obtain ⟨number, reads⟩ := Option.isSome_iff_exists.mp digit
  obtain ⟨result, later⟩ := readDigits_digits
    (fun d member => isDigits d (List.mem_cons_of_mem _ member)) 1 number
  refine ⟨result, ?_⟩
  change (asciiDigit c).bind _ = _
  rw [reads, Option.bind_some, later, List.length_cons, Nat.add_comm]

/-- A sign, if there is one, and digits. -/
theorem parseInt_digits {sign digits : Text}
    (signed : sign = [] ∨ sign = [0x2D]) (isDigits : IsDigits digits)
    (nonempty : digits ≠ []) :
    (∃ value, parseInt (sign ++ digits) = .ok value) ↔
      digits.length ≤ maxStrDigits := by
  have plain : ∀ c ∈ sign ++ digits, InNumeral c := by
    rw [List.forall_mem_append]
    refine ⟨?_, inNumeral_digits isDigits⟩
    rcases signed with rfl | rfl
    · exact List.forall_mem_nil _
    · exact List.forall_mem_singleton.mpr (.inr (.inr (.inl rfl)))
  have signRead : ∃ negative,
      readSign (sign ++ digits) = (negative, digits) := by
    rcases signed with rfl | rfl
    · obtain ⟨c, rest, rfl⟩ := List.exists_cons_of_ne_nil nonempty
      exact ⟨false, Decimal.readSign_digit (isDigits c List.mem_cons_self) _⟩
    · exact ⟨true, rfl⟩
  obtain ⟨negative, signRead⟩ := signRead
  obtain ⟨number, reads⟩ := readNat_digits isDigits nonempty
  unfold parseInt
  rw [toAsciiNumeral_plain plain, strip_numeral plain, signRead]
  simp only [reads]
  by_cases long : maxStrDigits < digits.length
  · rw [if_pos long]
    exact iff_of_false nofun (Nat.not_le.mpr long)
  · rw [if_neg long]
    exact iff_of_true ⟨_, rfl⟩ (Nat.not_lt.mp long)

/-- `int(str(n))`. -/
theorem parseInt_intText {value : Int}
    (short : value.natAbs < 10 ^ maxStrDigits) :
    parseInt (intText value) = .ok value := by
  unfold intText
  split_ifs with negative
  · have plain : ∀ c ∈ 0x2D :: natText value.natAbs, InNumeral c := by
      rw [List.forall_mem_cons]
      exact ⟨.inr (.inr (.inl rfl)),
        inNumeral_digits (isDigits_natText value.natAbs)⟩
    obtain ⟨digits, reads, fewest⟩ := readNat_natText value.natAbs
    have fits := fewest maxStrDigits short (by decide)
    have signed : readSign (0x2D :: natText value.natAbs) =
        (true, natText value.natAbs) := rfl
    unfold parseInt
    rw [toAsciiNumeral_plain plain, strip_numeral plain, signed]
    dsimp only
    rw [reads]
    dsimp only
    rw [if_neg (by omega), if_pos rfl]
    congr 1
    omega
  · rw [parseInt_natText short]
    congr 1
    omega

/-- The exponent of a numeral, if there is one. -/
def IsExponent (s : Text) : Prop :=
  s = [] ∨ ∃ letter sign digits, s = letter :: (sign ++ digits) ∧
    (letter.val = 0x65 ∨ letter.val = 0x45) ∧
    (sign = [] ∨ sign = [0x2B] ∨ sign = [0x2D]) ∧
    IsDigits digits ∧ digits ≠ []

/-- The point and digits after it, if there are any. -/
def IsFraction (s digits : Text) : Prop :=
  (s = [] ∧ digits = []) ∨ (s = 0x2E :: digits ∧ digits ≠ [])

theorem IsExponent.inNumeral {s : Text} (isExponent : IsExponent s) :
    ∀ c ∈ s, InNumeral c := by
  rcases isExponent with rfl | ⟨letter, sign, digits, rfl, isLetter, signed,
    isDigits, _⟩
  · exact List.forall_mem_nil _
  · rw [List.forall_mem_cons, List.forall_mem_append]
    refine ⟨.inr (.inr (.inr (.inr isLetter))), ?_, inNumeral_digits isDigits⟩
    rcases signed with rfl | rfl | rfl
    · exact List.forall_mem_nil _
    · exact List.forall_mem_singleton.mpr (.inr (.inl rfl))
    · exact List.forall_mem_singleton.mpr (.inr (.inr (.inl rfl)))

theorem IsFraction.inNumeral {s digits : Text} (isFraction : IsFraction s digits)
    (isDigits : IsDigits digits) : ∀ c ∈ s, InNumeral c := by
  rcases isFraction with ⟨rfl, _⟩ | ⟨rfl, _⟩
  · exact List.forall_mem_nil _
  · rw [List.forall_mem_cons]
    exact ⟨.inr (.inr (.inr (.inl rfl))), inNumeral_digits isDigits⟩

/-- The value of an exponent. -/
theorem IsExponent.read {s : Text} (isExponent : IsExponent s) :
    ∃ exponent, readExponent s = some exponent := by
  rcases isExponent with rfl | ⟨letter, sign, digits, rfl, isLetter, signed,
    isDigits, nonempty⟩
  · exact ⟨0, rfl⟩
  · have signRead : ∃ negative,
        readSign (sign ++ digits) = (negative, digits) := by
      rcases signed with rfl | rfl | rfl
      · obtain ⟨c, rest, rfl⟩ := List.exists_cons_of_ne_nil nonempty
        exact ⟨false, Decimal.readSign_digit (isDigits c List.mem_cons_self) _⟩
      · exact ⟨false, rfl⟩
      · exact ⟨true, rfl⟩
    obtain ⟨negative, signRead⟩ := signRead
    have allDigits := List.all_eq_true.mpr isDigits
    unfold readExponent
    dsimp only
    rw [signRead]
    dsimp only
    rw [if_pos ⟨isLetter, nonempty, allDigits⟩]
    exact ⟨_, rfl⟩

/-- No digit and no point starts an exponent. -/
theorem IsExponent.head {s : Text} (isExponent : IsExponent s) :
    ∀ c ∈ s.head?, isDigit c = false ∧ c ≠ 0x2E := by
  rcases isExponent with rfl | ⟨letter, sign, digits, rfl, isLetter, _⟩
  · nofun
  · intro c member
    cases member
    constructor
    · cases digit : isDigit letter with
      | false => rfl
      | true =>
          have bounds := Decimal.digit_bounds digit
          omega
    · rintro rfl
      rcases isLetter with same | same <;> cases same

theorem takeWhile_digits {digits rest : Text} (isDigits : IsDigits digits)
    (ends : ∀ c ∈ rest.head?, isDigit c = false) :
    (digits ++ rest).takeWhile isDigit = digits ∧
      (digits ++ rest).dropWhile isDigit = rest := by
  rw [List.takeWhile_append_of_pos isDigits,
    List.dropWhile_append_of_pos isDigits]
  cases rest with
  | nil => simp
  | cons c rest =>
      have notDigit : ¬ isDigit c = true := by
        rw [ends c rfl]
        nofun
      rw [List.takeWhile_cons_of_neg notDigit,
        List.dropWhile_cons_of_neg notDigit, List.append_nil]
      exact ⟨rfl, rfl⟩

/-- Digits, a fraction and an exponent are a numeral. -/
theorem readNumeral_parts {whole fraction digits exponent : Text} {value : ℤ}
    (isWhole : IsDigits whole) (nonempty : whole ≠ [])
    (isFraction : IsFraction fraction digits) (isDigits : IsDigits digits)
    (isExponent : IsExponent exponent)
    (reads : readExponent exponent = some value) :
    readNumeral (whole ++ fraction ++ exponent) =
      some ⟨false, whole ++ digits, value - digits.length⟩ := by
  obtain ⟨c, rest, rfl⟩ := List.exists_cons_of_ne_nil nonempty
  have unsigned := Decimal.readSign_digit (isWhole c List.mem_cons_self)
    (rest ++ fraction ++ exponent)
  unfold readNumeral
  rw [List.cons_append, List.cons_append, unsigned, ← List.cons_append,
    ← List.cons_append, List.append_assoc]
  dsimp only
  have ends := isExponent.head
  rcases isFraction with ⟨rfl, rfl⟩ | ⟨rfl, _⟩
  · obtain ⟨taken, dropped⟩ := takeWhile_digits isWhole
      fun c member => (ends c member).1
    have notPoint : (exponent.head? == some 0x2E) = false := by
      rw [beq_eq_false_iff_ne]
      intro point
      exact (ends _ point).2 rfl
    rw [List.nil_append, taken, dropped, notPoint]
    simp [reads]
  · obtain ⟨taken, dropped⟩ := @takeWhile_digits _
      (0x2E :: digits ++ exponent) isWhole (by
        intro c member
        cases member
        decide)
    obtain ⟨taken', dropped'⟩ := takeWhile_digits isDigits
      fun c member => (ends c member).1
    rw [taken, dropped]
    simp [taken', dropped', reads]

theorem parseFloat_parts {sign whole fraction digits exponent : Text}
    {value : ℤ} (signed : sign = [] ∨ sign = [0x2D])
    (isWhole : IsDigits whole) (nonempty : whole ≠ [])
    (isFraction : IsFraction fraction digits) (isDigits : IsDigits digits)
    (isExponent : IsExponent exponent)
    (reads : readExponent exponent = some value) :
    parseFloat (sign ++ (whole ++ fraction ++ exponent)) = .ok (floatOfNumeral
      ⟨sign ≠ [], whole ++ digits, value - digits.length⟩) := by
  have read := readNumeral_parts isWhole nonempty isFraction isDigits
    isExponent reads
  have plain : ∀ c ∈ whole ++ fraction ++ exponent, InNumeral c := by
    rw [List.forall_mem_append, List.forall_mem_append]
    exact ⟨⟨inNumeral_digits isWhole, isFraction.inNumeral isDigits⟩,
      isExponent.inNumeral⟩
  rcases signed with rfl | rfl
  · exact parseFloat_plain plain read
  · apply parseFloat_plain
    · rw [List.forall_mem_append]
      exact ⟨List.forall_mem_singleton.mpr (.inr (.inr (.inl rfl))), plain⟩
    · obtain ⟨c, rest, rfl⟩ := List.exists_cons_of_ne_nil nonempty
      have digit := isWhole c List.mem_cons_self
      rw [List.cons_append, List.cons_append] at read
      change readNumeral (0x2D :: c :: (rest ++ fraction ++ exponent)) = _
      rw [readNumeral_minus digit, read]
      rfl

namespace Json

/-- Zero, or digits that start with another one. -/
def IsWhole (digits : Text) : Prop :=
  digits = [0x30] ∨
    (IsDigits digits ∧ digits ≠ [] ∧ digits.head? ≠ some 0x30)

theorem IsWhole.isDigits {digits : Text} (isWhole : IsWhole digits) :
    IsDigits digits ∧ digits ≠ [] := by
  rcases isWhole with rfl | ⟨isDigits, nonempty, _⟩
  · exact ⟨List.forall_mem_singleton.mpr rfl, List.cons_ne_nil _ _⟩
  · exact ⟨isDigits, nonempty⟩

private theorem natDigits_head {fuel value : Nat} (nonzero : value ≠ 0)
    (enough : value < 10 ^ fuel) (later : Text) :
    ∃ digit rest, natDigits fuel value later = digitText digit :: rest ∧
      0 < digit ∧ digit < 10 := by
  induction fuel generalizing value later with
  | zero =>
      rw [Nat.pow_zero] at enough
      omega
  | succ fuel induction =>
      simp only [natDigits]
      split_ifs with small
      · rw [Nat.mod_eq_of_lt small]
        exact ⟨value, later, rfl, by omega, small⟩
      · rw [Nat.pow_succ] at enough
        exact induction (by omega) (by omega) _

/-- A number is written without zeros in front. -/
theorem natText_isWhole (value : Nat) : IsWhole (natText value) := by
  by_cases zero : value = 0
  · subst zero
    exact .inl (by decide)
  · have enough : value < 10 ^ (Nat.log2 value + 1) :=
      Nat.lt_log2_self.trans_le (Nat.pow_le_pow_left (by decide) _)
    obtain ⟨digit, rest, split, positive, small⟩ :=
      natDigits_head zero enough []
    have notZero : ∀ d : Fin 10, 0 < d.val → digitText d ≠ 0x30 := by
      decide
    refine .inr ⟨isDigits_natText value, ?_, ?_⟩
    · unfold natText
      rw [split]
      exact List.cons_ne_nil _ _
    · unfold natText
      rw [split]
      intro same
      exact notZero ⟨digit, small⟩ positive (Option.some.inj same)

/-- No character of a numeral comes next. -/
def Ends (rest : Text) : Prop := ∀ c ∈ rest.head?, ¬ InNumeral c

theorem isDigits_takeWhile (s : Text) : IsDigits (s.takeWhile isDigit) :=
  fun _ member => List.mem_takeWhile_imp member

theorem scanWhole_shape (s : Text) :
    s = (scanWhole s).1 ++ (scanWhole s).2 ∧
      ((scanWhole s).1 = [] ∨ IsWhole (scanWhole s).1) := by
  cases s with
  | nil => exact ⟨rfl, .inl rfl⟩
  | cons c rest =>
      unfold scanWhole
      dsimp only
      split_ifs with zero
      · refine ⟨rfl, .inr (.inl ?_)⟩
        rw [show c = 0x30 from Fin.ext zero]
      · refine ⟨(List.takeWhile_append_dropWhile).symm, ?_⟩
        by_cases digit : isDigit c = true
        · rw [List.takeWhile_cons_of_pos digit]
          refine .inr (.inr ⟨?_, List.cons_ne_nil _ _, ?_⟩)
          · rw [IsDigits, List.forall_mem_cons]
            exact ⟨digit, isDigits_takeWhile rest⟩
          · intro same
            cases same
            exact zero rfl
        · exact .inl (List.takeWhile_cons_of_neg digit)

theorem scanWhole_append {digits rest : Text} (isWhole : IsWhole digits)
    (ends : ∀ c ∈ rest.head?, isDigit c = false) :
    scanWhole (digits ++ rest) = (digits, rest) := by
  rcases isWhole with rfl | ⟨isDigits, nonempty, notZero⟩
  · rfl
  · obtain ⟨taken, dropped⟩ := takeWhile_digits isDigits ends
    obtain ⟨c, others, rfl⟩ := List.exists_cons_of_ne_nil nonempty
    unfold scanWhole
    rw [List.cons_append] at taken dropped ⊢
    dsimp only
    rw [if_neg, taken, dropped]
    intro zero
    exact notZero (congrArg some (Fin.ext zero))

theorem scanFraction_shape (s : Text) :
    s = (scanFraction s).1 ++ (scanFraction s).2 ∧
      ∃ digits, IsFraction (scanFraction s).1 digits ∧ IsDigits digits := by
  have none : ∃ digits, IsFraction [] digits ∧ IsDigits digits :=
    ⟨[], .inl ⟨rfl, rfl⟩, List.forall_mem_nil _⟩
  cases s with
  | nil => exact ⟨rfl, none⟩
  | cons c rest =>
      unfold scanFraction
      dsimp only
      split_ifs with pointed
      · refine ⟨?_, rest.takeWhile isDigit, .inr ⟨?_, pointed.2⟩,
          isDigits_takeWhile rest⟩
        · rw [List.cons_append, List.takeWhile_append_dropWhile]
        · rw [show c = 0x2E from Fin.ext pointed.1]
      · exact ⟨rfl, none⟩

theorem scanFraction_append {fraction digits rest : Text}
    (isFraction : IsFraction fraction digits) (isDigits : IsDigits digits)
    (ends : ∀ c ∈ rest.head?, isDigit c = false ∧ c ≠ 0x2E) :
    scanFraction (fraction ++ rest) = (fraction, rest) := by
  rcases isFraction with ⟨rfl, rfl⟩ | ⟨rfl, nonempty⟩
  · cases rest with
    | nil => rfl
    | cons c rest =>
        unfold scanFraction
        rw [List.nil_append]
        dsimp only
        rw [if_neg]
        rintro ⟨point, _⟩
        exact (ends c rfl).2 (Fin.ext point)
  · obtain ⟨taken, dropped⟩ := takeWhile_digits isDigits
      fun c member => (ends c member).1
    unfold scanFraction
    rw [List.cons_append]
    dsimp only
    rw [taken, dropped, if_pos ⟨rfl, nonempty⟩]

theorem scanSign_shape (s : Text) :
    s = (scanSign s).1 ++ (scanSign s).2 ∧
      ((scanSign s).1 = [] ∨ (scanSign s).1 = [0x2B] ∨
        (scanSign s).1 = [0x2D]) := by
  cases s with
  | nil => exact ⟨rfl, .inl rfl⟩
  | cons c rest =>
      unfold scanSign
      dsimp only
      split_ifs with signed
      · refine ⟨rfl, .inr ?_⟩
        rcases signed with plus | minus
        · rw [show c = 0x2B from Fin.ext plus]
          exact .inl rfl
        · rw [show c = 0x2D from Fin.ext minus]
          exact .inr rfl
      · exact ⟨rfl, .inl rfl⟩

theorem scanSign_append {sign digits rest : Text}
    (signed : sign = [] ∨ sign = [0x2B] ∨ sign = [0x2D])
    (isDigits : IsDigits digits) (nonempty : digits ≠ []) :
    scanSign (sign ++ digits ++ rest) = (sign, digits ++ rest) := by
  rcases signed with rfl | rfl | rfl
  · obtain ⟨c, others, rfl⟩ := List.exists_cons_of_ne_nil nonempty
    have bounds := Decimal.digit_bounds (isDigits c List.mem_cons_self)
    unfold scanSign
    rw [List.nil_append, List.cons_append]
    dsimp only
    rw [if_neg (by omega)]
  · rfl
  · rfl

theorem scanExponent_shape (s : Text) :
    s = (scanExponent s).1 ++ (scanExponent s).2 ∧
      IsExponent (scanExponent s).1 := by
  cases s with
  | nil => exact ⟨rfl, .inl rfl⟩
  | cons c rest =>
      obtain ⟨split, signed⟩ := scanSign_shape rest
      unfold scanExponent
      dsimp only
      split_ifs with lettered
      · refine ⟨?_, .inr ⟨c, _, _, rfl, lettered.1, signed,
          isDigits_takeWhile _, lettered.2⟩⟩
        simpa using split
      · exact ⟨rfl, .inl rfl⟩

theorem scanExponent_append {exponent rest : Text}
    (isExponent : IsExponent exponent) (ends : Ends rest) :
    scanExponent (exponent ++ rest) = (exponent, rest) := by
  rcases isExponent with rfl | ⟨letter, sign, digits, rfl, isLetter, signed,
    isDigits, nonempty⟩
  · cases rest with
    | nil => rfl
    | cons c rest =>
        unfold scanExponent
        rw [List.nil_append]
        dsimp only
        rw [if_neg]
        rintro ⟨isLetter, _⟩
        exact ends c rfl (.inr (.inr (.inr (.inr isLetter))))
  · obtain ⟨taken, dropped⟩ := @takeWhile_digits digits rest isDigits (by
      intro c member
      cases digit : isDigit c with
      | false => rfl
      | true => exact absurd (.inl digit) (ends c member))
    unfold scanExponent
    rw [List.cons_append]
    dsimp only
    rw [scanSign_append signed isDigits nonempty]
    dsimp only
    rw [taken, dropped, if_pos ⟨isLetter, nonempty⟩]
    rfl

/-- The sign of a number, and the rest. -/
theorem scanNumeral_eq (s : Text) : ∃ sign body, s = sign ++ body ∧
    (sign = [] ∨ sign = [0x2D]) ∧
    scanNumeral s =
      if (scanWhole body).1 = [] then none
      else some (sign ++ (scanWhole body).1,
        (scanFraction (scanWhole body).2).1 ++
          (scanExponent (scanFraction (scanWhole body).2).2).1,
        (scanExponent (scanFraction (scanWhole body).2).2).2) := by
  unfold scanNumeral
  by_cases minus : s.head? = some 0x2D
  · obtain ⟨rest, rfl⟩ := List.head?_eq_some_iff.mp minus
    exact ⟨[0x2D], rest, rfl, .inr rfl, rfl⟩
  · refine ⟨[], s, rfl, .inl rfl, ?_⟩
    rw [if_neg minus]

/-- What is scanned is a sign, a whole part, a fraction and an exponent. -/
theorem scanNumeral_shape {s whole part rest : Text}
    (scanned : scanNumeral s = some (whole, part, rest)) :
    ∃ sign digits fraction places exponent,
      (sign = [] ∨ sign = [0x2D]) ∧ IsWhole digits ∧
      IsFraction fraction places ∧ IsDigits places ∧ IsExponent exponent ∧
      whole = sign ++ digits ∧ part = fraction ++ exponent ∧
      s = whole ++ part ++ rest := by
  obtain ⟨sign, body, split, signed, same⟩ := scanNumeral_eq s
  rw [same] at scanned
  split_ifs at scanned with nothing
  cases scanned
  obtain ⟨wholeSplit, isWhole⟩ := scanWhole_shape body
  obtain ⟨fractionSplit, places, isFraction, isPlaces⟩ :=
    scanFraction_shape (scanWhole body).2
  obtain ⟨exponentSplit, isExponent⟩ :=
    scanExponent_shape (scanFraction (scanWhole body).2).2
  refine ⟨sign, _, _, places, _, signed, isWhole.resolve_left nothing,
    isFraction, isPlaces, isExponent, rfl, rfl, ?_⟩
  calc s = sign ++ body := split
    _ = sign ++ ((scanWhole body).1 ++ (scanWhole body).2) := by
        rw [← wholeSplit]
    _ = sign ++ ((scanWhole body).1 ++ ((scanFraction (scanWhole body).2).1 ++
          (scanFraction (scanWhole body).2).2)) := by
        rw [← fractionSplit]
    _ = sign ++ ((scanWhole body).1 ++ ((scanFraction (scanWhole body).2).1 ++
          ((scanExponent (scanFraction (scanWhole body).2).2).1 ++
            (scanExponent (scanFraction (scanWhole body).2).2).2))) := by
        rw [← exponentSplit]
    _ = _ := by simp only [List.append_assoc]

/-- A number is scanned up to where it ends. -/
theorem scanNumeral_append {sign digits fraction places exponent rest : Text}
    (signed : sign = [] ∨ sign = [0x2D]) (isWhole : IsWhole digits)
    (isFraction : IsFraction fraction places) (isPlaces : IsDigits places)
    (isExponent : IsExponent exponent) (ends : Ends rest) :
    scanNumeral (sign ++ (digits ++ (fraction ++ (exponent ++ rest)))) =
      some (sign ++ digits, fraction ++ exponent, rest) := by
  have afterFraction : ∀ c ∈ (exponent ++ rest).head?,
      isDigit c = false ∧ c ≠ 0x2E := by
    intro c member
    rw [List.head?_append] at member
    cases starts : exponent.head? with
    | some d =>
        rw [starts] at member
        exact isExponent.head c (by rw [starts]; exact member)
    | none =>
        rw [starts] at member
        have foreign := ends c member
        constructor
        · cases digit : isDigit c with
          | false => rfl
          | true => exact absurd (.inl digit) foreign
        · rintro rfl
          exact foreign (.inr (.inr (.inr (.inl rfl))))
  have afterWhole : ∀ c ∈ (fraction ++ (exponent ++ rest)).head?,
      isDigit c = false := by
    rcases isFraction with ⟨rfl, _⟩ | ⟨rfl, _⟩
    · exact fun c member => (afterFraction c member).1
    · intro c member
      cases member
      decide
  have wholeScanned := scanWhole_append isWhole afterWhole
  have fractionScanned := scanFraction_append isFraction isPlaces afterFraction
  have exponentScanned := scanExponent_append isExponent ends
  obtain ⟨isDigits, nonempty⟩ := isWhole.isDigits
  obtain ⟨c, others, rfl⟩ := List.exists_cons_of_ne_nil nonempty
  have bounds := Decimal.digit_bounds (isDigits c List.mem_cons_self)
  have unsigned : (c :: others ++ (fraction ++ (exponent ++ rest))).head? ≠
      some 0x2D := by
    intro minus
    rw [List.cons_append, List.head?_cons] at minus
    rw [Option.some.inj minus] at bounds
    revert bounds
    decide
  unfold scanNumeral
  rcases signed with rfl | rfl
  · rw [List.nil_append, if_neg unsigned]
    dsimp only
    rw [wholeScanned]
    dsimp only
    rw [if_neg nonempty, fractionScanned]
    dsimp only
    rw [exponentScanned]
  · rw [List.singleton_append, List.head?_cons, if_pos rfl, List.tail_cons]
    dsimp only
    rw [wholeScanned]
    dsimp only
    rw [if_neg nonempty, fractionScanned]
    dsimp only
    rw [exponentScanned]

/-- An integer with too many digits comes next. -/
def LongInteger (s : Text) : Prop :=
  ∃ sign digits rest, scanNumeral s = some (sign ++ digits, [], rest) ∧
    (sign = [] ∨ sign = [0x2D]) ∧ IsWhole digits ∧
    maxStrDigits < digits.length

/-- A failure other than a `JSONDecodeError`. -/
def Raises {α : Type} (outcome : Except ScanError α) : Prop :=
  ∃ error, outcome = .error error ∧ error ≠ .decodeError

theorem scanNumber_raises (s : Text) :
    Raises (scanNumber s) ↔ LongInteger s := by
  unfold scanNumber LongInteger
  cases scanned : scanNumeral s with
  | none =>
      refine iff_of_false ?_ ?_
      · rintro ⟨error, same, notDecode⟩
        cases same
        exact notDecode rfl
      · rintro ⟨_, _, _, same, _⟩
        cases same
  | some parts =>
      obtain ⟨whole, part, rest⟩ := parts
      obtain ⟨sign, digits, fraction, places, exponent, signed, isWhole,
        isFraction, isPlaces, isExponent, rfl, rfl, _⟩ :=
          scanNumeral_shape scanned
      obtain ⟨isDigits, nonempty⟩ := isWhole.isDigits
      dsimp only
      split_ifs with integral
      · have short := parseInt_digits signed isDigits nonempty
        cases parsed : parseInt (sign ++ digits) with
        | ok value =>
            refine iff_of_false nofun ?_
            rintro ⟨sign', digits', rest', same, signed', isWhole', long⟩
            have sameWhole := congrArg Prod.fst (Option.some.inj same)
            obtain ⟨isDigits', nonempty'⟩ := isWhole'.isDigits
            have short' := parseInt_digits signed' isDigits' nonempty'
            rw [← show sign ++ digits = sign' ++ digits' from sameWhole,
              parsed] at short'
            exact absurd (short'.mp ⟨value, rfl⟩) (Nat.not_le.mpr long)
        | error error =>
            rw [parsed] at short
            refine iff_of_true ⟨_, rfl, nofun⟩ ⟨sign, digits, rest, ?_, signed,
              isWhole, ?_⟩
            · rw [integral]
            · exact Nat.lt_of_not_le fun atMost => by
                obtain ⟨value, same⟩ := short.mpr atMost
                cases same
      · obtain ⟨value, reads⟩ := isExponent.read
        have parsed := parseFloat_parts signed isDigits nonempty isFraction
          isPlaces isExponent reads
        rw [show sign ++ digits ++ (fraction ++ exponent) =
          sign ++ (digits ++ fraction ++ exponent) by simp, parsed]
        refine iff_of_false nofun ?_
        rintro ⟨_, _, _, same, _⟩
        exact integral (congrArg (fun parts => parts.2.1)
          (Option.some.inj same))

end Json

end Python
