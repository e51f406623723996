import SovereignInference.Python.Text
import Mathlib.Tactic.Linarith

/-!
# Integer numerals

Reading and writing `int` in base ten, with the interpreter's limit on the
number of digits.
-/

namespace Python

/-- `sys.get_int_max_str_digits()`. -/
def maxStrDigits : Nat := 4300

/-- `int.bit_length()`. -/
def bitLength (value : Nat) : Nat :=
  if value = 0 then 0 else Nat.log2 value + 1

def digitText (value : Nat) : CodePoint := Fin.ofNat _ (0x30 + value)

/-- The decimal digits of a number, for `fuel` at least their count. -/
def natDigits : (fuel : Nat) → Nat → Text → Text
  | 0, _, later => later
  | fuel + 1, value, later =>
      let digits := digitText (value % 10) :: later
      if value < 10 then digits else natDigits fuel (value / 10) digits

def natText (value : Nat) : Text :=
  natDigits (Nat.log2 value + 1) value []

def intText (value : Int) : Text :=
  if value < 0 then 0x2D :: natText value.natAbs else natText value.natAbs

/-- `repr` of an `int`. -/
def intRepr (value : Int) : Except PyExc Text :=
  if value.natAbs < 10 ^ maxStrDigits then .ok (intText value)
  else .error .valueError

/-- Digits after a first one, with single underscores between digits. -/
def readDigits : Text → (count value : Nat) → Option (Nat × Nat)
  | [], count, value => some (count, value)
  | c :: rest, count, value =>
      match asciiDigit c with
      | some digit => readDigits rest (count + 1) (value * 10 + digit)
      | none =>
          match c.val == 0x5F, rest with
          | true, d :: rest =>
              match asciiDigit d with
              | some digit => readDigits rest (count + 1) (value * 10 + digit)
              | none => none
          | _, _ => none

/-- A numeral without sign or surrounding space, with its digit count. -/
def readNat : Text → Option (Nat × Nat)
  | [] => none
  | c :: rest => (asciiDigit c).bind fun digit => readDigits rest 1 digit

/-- The sign of a numeral and the rest of it. -/
def readSign : Text → Bool × Text
  | c :: rest =>
      if c.val = 0x2B then (false, rest)
      else if c.val = 0x2D then (true, rest)
      else (false, c :: rest)
  | [] => (false, [])

/-- Digits and spaces of every script in ASCII, as the number parsers see
them; an ASCII string is left alone. -/
def toAsciiNumeral (s : Text) : Text :=
  if s.all (·.val < 0x80) then s
  else
    s.map fun c =>
      if c.val < 0x7F then c
      else if isSpace c then 0x20
      else
        match decimalDigit c with
        | some digit => digitText digit
        | none => 0x3F

/-- `int(s)`. -/
def parseInt (s : Text) : Except PyExc Int :=
  let (negative, digits) := readSign (strip isAsciiSpace (toAsciiNumeral s))
  match readNat digits with
  | none => .error .valueError
  | some (count, value) =>
      if maxStrDigits < count then .error .valueError
      else .ok (if negative then -value else value)

/-- An ASCII character that is neither a digit, a sign, an underscore nor
space. -/
def foreignToNumerals (c : CodePoint) : Bool :=
  c.val < 0x7F && !isAsciiSpace c && (asciiDigit c).isNone &&
    c.val != 0x2B && c.val != 0x2D && c.val != 0x5F

section Foreign

variable {c : CodePoint}

theorem foreign_not_mem_readDigits (foreign : foreignToNumerals c) :
    ∀ (s : Text) (count value : Nat) (result : Nat × Nat),
      readDigits s count value = some result → c ∉ s := by
  have notDigit : asciiDigit c = none := by
    simp only [foreignToNumerals, Bool.and_eq_true, Option.isNone_iff_eq_none]
      at foreign
    exact foreign.1.1.1.2
  have notUnderscore : c.val ≠ 0x5F := by
    simp only [foreignToNumerals, Bool.and_eq_true, bne_iff_ne] at foreign
    exact foreign.2
  have digit_ne : ∀ {d : CodePoint} {value : Nat},
      asciiDigit d = some value → c ≠ d := by
    intro d value digit same
    rw [← same, notDigit] at digit
    cases digit
  intro s count value result
  induction s, count, value using readDigits.induct with
  | case1 count value =>
      intro _
      exact List.not_mem_nil
  | case2 d rest count value digit isDigit induction =>
      intro reads
      unfold readDigits at reads
      rw [isDigit] at reads
      exact List.not_mem_cons_of_ne_of_not_mem (digit_ne isDigit)
        (induction reads)
  | case3 d count value notADigit e rest underscore digit isDigit induction =>
      intro reads
      simp only [readDigits, notADigit, underscore, isDigit] at reads
      have different : c ≠ d := by
        intro same
        subst same
        exact notUnderscore (by simpa using underscore)
      exact List.not_mem_cons_of_ne_of_not_mem different
        (List.not_mem_cons_of_ne_of_not_mem (digit_ne isDigit)
          (induction reads))
  | case4 d count value notADigit e rest underscore noDigit =>
      intro reads
      simp [readDigits, notADigit, underscore, noDigit] at reads
  | case5 d rest count value notADigit noPair =>
      intro reads
      unfold readDigits at reads
      rw [notADigit] at reads
      cases underscore : d.val == 0x5F with
      | false => simp [underscore] at reads
      | true =>
          cases rest with
          | nil => simp at reads
          | cons e rest => exact (noPair e rest underscore rfl).elim

theorem foreign_mem_strip (foreign : isAsciiSpace c = false) {s : Text}
    (member : c ∈ s) : c ∈ strip isAsciiSpace s := by
  have kept : ∀ t : Text, c ∈ t → c ∈ t.dropWhile isAsciiSpace := by
    intro t inT
    rw [← List.takeWhile_append_dropWhile (p := isAsciiSpace) (l := t),
      List.mem_append] at inT
    rcases inT with dropped | kept
    · have space := List.mem_takeWhile_imp dropped
      rw [foreign] at space
      cases space
    · exact kept
  unfold strip
  rw [List.mem_reverse]
  apply kept
  rw [List.mem_reverse]
  exact kept s member

private theorem foreign_mem_toAsciiNumeral (low : c.val < 0x7F) {s : Text}
    (member : c ∈ s) : c ∈ toAsciiNumeral s := by
  unfold toAsciiNumeral
  split_ifs
  · exact member
  · rw [List.mem_map]
    exact ⟨c, member, by simp [low]⟩

/-- A string with a foreign character is not a numeral. -/
theorem parseInt_foreign (foreign : foreignToNumerals c) {s : Text}
    (member : c ∈ s) : parseInt s = .error .valueError := by
  have digits := foreign_not_mem_readDigits foreign
  simp only [foreignToNumerals, Bool.and_eq_true, Bool.not_eq_true',
    decide_eq_true_eq, bne_iff_ne, Option.isNone_iff_eq_none] at foreign
  obtain ⟨⟨⟨⟨⟨low, notSpace⟩, notDigit⟩, notPlus⟩, notMinus⟩, _⟩ := foreign
  have stripped := foreign_mem_strip notSpace
    (foreign_mem_toAsciiNumeral low member)
  unfold parseInt
  generalize strip isAsciiSpace (toAsciiNumeral s) = numeral at stripped
  have unsigned : c ∈ (readSign numeral).2 := by
    cases numeral with
    | nil => exact stripped
    | cons d rest =>
        unfold readSign
        rcases List.mem_cons.mp stripped with rfl | later
        · simp [notPlus, notMinus]
        · dsimp only
          split_ifs
          · exact later
          · exact later
          · exact stripped
  have unread : readNat (readSign numeral).2 = none := by
    generalize (readSign numeral).2 = rest at unsigned
    cases rest with
    | nil => rfl
    | cons d rest =>
        rcases List.mem_cons.mp unsigned with rfl | later
        · simp [readNat, notDigit]
        · cases reads : readNat (d :: rest) with
          | none => rfl
          | some result =>
              obtain ⟨digit, _, tail⟩ := Option.bind_eq_some_iff.mp reads
              exact absurd later (digits rest 1 digit result tail)
  simp [unread]

end Foreign

/-- A number fits in the bytes that its bits need. -/
theorem lt_bytes_of_bitLength (value : Nat) :
    value < 256 ^ max 1 ((bitLength value + 7) / 8) := by
  unfold bitLength
  split_ifs with zero
  · subst zero
    decide
  · have bits : value < 2 ^ (Nat.log2 value + 1) := Nat.lt_log2_self
    refine bits.trans_le ?_
    rw [show 256 = 2 ^ 8 from rfl, ← Nat.pow_mul]
    apply Nat.pow_le_pow_right (by decide)
    omega

theorem asciiDigit_digitText {digit : Nat} (small : digit < 10) :
    asciiDigit (digitText digit) = some digit := by
  have all : ∀ d : Fin 10, asciiDigit (digitText d) = some d.val := by
    decide
  exact all ⟨digit, small⟩

theorem readDigits_digit {digit : Nat} (small : digit < 10) (rest : Text)
    (count value : Nat) :
    readDigits (digitText digit :: rest) count value =
      readDigits rest (count + 1) (value * 10 + digit) := by
  conv_lhs => unfold readDigits
  rw [asciiDigit_digitText small]

/-- Written digits are read back, and there are no more than needed. -/
theorem readDigits_natDigits {fuel value : Nat} (enough : value < 10 ^ fuel) :
    ∃ digits, (∀ bound, value < 10 ^ bound → 0 < bound → digits ≤ bound) ∧
      ∀ later count before,
        readDigits (natDigits fuel value later) count before =
          readDigits later (count + digits) (before * 10 ^ digits + value) := by
  induction fuel generalizing value with
  | zero =>
      have zero : value = 0 := by simpa using enough
      subst zero
      exact ⟨0, fun _ _ _ => Nat.zero_le _, fun _ _ _ => by simp [natDigits]⟩
  | succ fuel induction =>
      by_cases small : value < 10
      · refine ⟨1, fun _ _ positive => positive, ?_⟩
        intro later count before
        simp only [natDigits, if_pos small, Nat.mod_eq_of_lt small]
        rw [readDigits_digit small, Nat.pow_one]
      · rw [Nat.pow_succ] at enough
        obtain ⟨digits, fewest, reads⟩ :=
          induction (Nat.div_lt_of_lt_mul (by rwa [Nat.mul_comm]))
        refine ⟨digits + 1, ?_, ?_⟩
        · intro bound below positive
          obtain ⟨bound, rfl⟩ := Nat.exists_eq_succ_of_ne_zero positive.ne'
          rw [Nat.pow_succ] at below
          have shorter : 0 < bound := by
            by_contra none
            obtain rfl : bound = 0 := by omega
            simp at below
            omega
          have restFewest := fewest bound
            (Nat.div_lt_of_lt_mul (by rwa [Nat.mul_comm])) shorter
          omega
        · intro later count before
          simp only [natDigits, if_neg small]
          rw [reads, readDigits_digit (Nat.mod_lt _ (by decide)),
            Nat.pow_succ]
          congr 1
          have split := Nat.div_add_mod value 10
          linarith

private theorem mem_natDigits {fuel value : Nat} {later : Text} {c : CodePoint}
    (member : c ∈ natDigits fuel value later) :
    (∃ digit < 10, c = digitText digit) ∨ c ∈ later := by
  induction fuel generalizing value later with
  | zero => exact .inr member
  | succ fuel induction =>
      have last : c ∈ digitText (value % 10) :: later →
          (∃ digit < 10, c = digitText digit) ∨ c ∈ later := by
        intro inDigits
        rcases List.mem_cons.mp inDigits with rfl | inLater
        · exact .inl ⟨_, Nat.mod_lt _ (by decide), rfl⟩
        · exact .inr inLater
      simp only [natDigits] at member
      split_ifs at member
      · exact last member
      · rcases induction member with digit | inDigits
        · exact .inl digit
        · exact last inDigits

theorem mem_natText {value : Nat} {c : CodePoint}
    (member : c ∈ natText value) : ∃ digit < 10, c = digitText digit := by
  rcases mem_natDigits member with digit | nothing
  · exact digit
  · cases nothing

theorem digitText_bounds {digit : Nat} (small : digit < 10) :
    0x30 ≤ (digitText digit).val ∧ (digitText digit).val ≤ 0x39 := by
  have all : ∀ d : Fin 10,
      0x30 ≤ (digitText d).val ∧ (digitText d).val ≤ 0x39 := by
    decide
  exact all ⟨digit, small⟩

private theorem natDigits_ne_nil (fuel value : Nat) {later : Text}
    (nonempty : 0 < fuel ∨ later ≠ []) : natDigits fuel value later ≠ [] := by
  induction fuel generalizing value later with
  | zero => exact nonempty.resolve_left (by simp)
  | succ fuel induction =>
      simp only [natDigits]
      split_ifs
      · exact List.cons_ne_nil _ _
      · exact induction _ (.inr (List.cons_ne_nil _ _))

/-- A numeral is its first digit and further digits. -/
theorem natText_cons (value : Nat) :
    ∃ digit < 10, ∃ rest, natText value = digitText digit :: rest := by
  obtain ⟨c, rest, split⟩ := List.exists_cons_of_ne_nil
    (natDigits_ne_nil (Nat.log2 value + 1) value (.inl (Nat.succ_pos _)))
  have member : c ∈ natText value := by
    unfold natText
    rw [split]
    exact List.mem_cons_self
  obtain ⟨digit, small, rfl⟩ := mem_natText member
  exact ⟨digit, small, rest, split⟩

/-- Reading a written number gives it back with the count of its digits. -/
theorem readNat_natText (value : Nat) :
    ∃ digits, readNat (natText value) = some (digits, value) ∧
      ∀ bound, value < 10 ^ bound → 0 < bound → digits ≤ bound := by
  have enough : value < 10 ^ (Nat.log2 value + 1) :=
    Nat.lt_log2_self.trans_le (Nat.pow_le_pow_left (by decide) _)
  obtain ⟨digits, fewest, reads⟩ := readDigits_natDigits enough
  refine ⟨digits, ?_, fewest⟩
  have readsAll := reads [] 0 0
  obtain ⟨digit, small, rest, split⟩ := natText_cons value
  have direct : readNat (natText value) = readDigits (natText value) 0 0 := by
    rw [split, readDigits_digit small, readNat, asciiDigit_digitText small]
    simp
  rw [direct]
  simpa [natText, readDigits] using readsAll

theorem strip_plain {drops : CodePoint → Bool} {s : Text}
    (plain : ∀ c ∈ s, drops c = false) : strip drops s = s := by
  have kept : ∀ t : Text, (∀ c ∈ t, drops c = false) →
      t.dropWhile drops = t := by
    intro t plain
    cases t with
    | nil => rfl
    | cons c rest =>
        exact List.dropWhile_cons_of_neg
          (by simp [plain c List.mem_cons_self])
  unfold strip
  rw [kept s plain, kept s.reverse, List.reverse_reverse]
  intro c member
  exact plain c (List.mem_reverse.mp member)

private theorem readSign_natText (value : Nat) :
    readSign (natText value) = (false, natText value) := by
  obtain ⟨digit, small, rest, split⟩ := natText_cons value
  have bounds := digitText_bounds small
  rw [split]
  unfold readSign
  dsimp only
  rw [if_neg (by omega), if_neg (by omega)]

/-- `int(str(n))`. -/
theorem parseInt_natText {value : Nat} (short : value < 10 ^ maxStrDigits) :
    parseInt (natText value) = .ok value := by
  have bounds : ∀ c ∈ natText value, 0x30 ≤ c.val ∧ c.val ≤ 0x39 := by
    intro c member
    obtain ⟨digit, small, rfl⟩ := mem_natText member
    exact digitText_bounds small
  have ascii : toAsciiNumeral (natText value) = natText value := by
    unfold toAsciiNumeral
    rw [if_pos]
    rw [List.all_eq_true]
    intro c member
    have digit := bounds c member
    exact decide_eq_true (by omega)
  have stripped : strip isAsciiSpace (natText value) = natText value := by
    apply strip_plain
    intro c member
    have digit := bounds c member
    simp only [isAsciiSpace, Bool.or_eq_false_iff, Bool.and_eq_false_iff,
      decide_eq_false_iff_not, beq_eq_false_iff_ne]
    omega
  obtain ⟨digits, reads, fewest⟩ := readNat_natText value
  have fits := fewest maxStrDigits short (by decide)
  unfold parseInt
  rw [ascii, stripped, readSign_natText]
  simp only [reads, Bool.false_eq_true, if_false]
  rw [if_neg (by omega)]

theorem intRepr_ofNat {value : Nat} (short : value < 10 ^ maxStrDigits) :
    intRepr value = .ok (natText value) := by
  unfold intRepr
  rw [if_pos (by simpa using short)]
  simp [intText]

end Python
