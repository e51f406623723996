import SovereignInference.Python.JsonReading
import SovereignInference.Python.JsonWriting

/-!
# Strings in JSON texts

Reading what is written of a string gives the string back, but for a high
surrogate before a low one, which become one character.
-/

namespace Python

namespace Json

def shortEscapes : List Nat := [0x22, 0x5C, 0x0A, 0x0D, 0x09, 0x0C, 0x08]

/-- What is scanned of a written character. -/
def writtenUnits (c : CodePoint) : List (Bool × CodePoint) :=
  if c.val ∈ shortEscapes ∨ (0x20 ≤ c.val ∧ c.val ≤ 0x7E) then [(false, c)]
  else if c.val < 0x10000 then [(true, c)]
  else
    [(true, Fin.ofNat _ (0xD800 + (c.val - 0x10000) / 0x400)),
      (true, Fin.ofNat _ (0xDC00 + (c.val - 0x10000) % 0x400))]

private theorem hexValue_hexChar {digit : Nat} (small : digit < 16) :
    hexValue (hexDigits.hexChar digit) = some digit := by
  have all : ∀ d : Fin 16, hexValue (hexDigits.hexChar d) = some d.val := by
    decide
  exact all ⟨digit, small⟩

private theorem hexUnit_hexDigits {unit : Nat} (small : unit < 0x10000) :
    ∃ w x y z, hexDigits 4 unit = [w, x, y, z] ∧
      hexUnit w x y z = some (Fin.ofNat _ unit) := by
  refine ⟨_, _, _, _, rfl, ?_⟩
  unfold hexUnit
  simp only [hexValue_hexChar (Nat.mod_lt _ (by decide)),
    Option.bind_eq_bind, Option.bind_some]
  congr 2
  omega

theorem scanUnits_escapeUnit {unit : Nat} (small : unit < 0x10000)
    (rest : Text) :
    scanUnits (escapeUnit unit ++ rest) =
      (scanUnits rest).map fun (units, later) =>
        ((true, Fin.ofNat _ unit) :: units, later) := by
  obtain ⟨w, x, y, z, digits, value⟩ := hexUnit_hexDigits small
  unfold escapeUnit
  rw [digits]
  change scanUnits (0x5C :: 0x75 :: w :: x :: y :: z :: rest) = _
  rw [scanUnits]
  cases scanUnits rest with
  | none => simp [value]
  | some result => simp [value]

theorem scanUnits_plain {c : CodePoint} (notQuote : c ≠ 0x22)
    (notSlash : c ≠ 0x5C) (large : ¬ c.val < 0x20) (rest : Text) :
    scanUnits (c :: rest) =
      (scanUnits rest).map fun (units, later) =>
        ((false, c) :: units, later) := by
  rw [scanUnits.eq_def]
  dsimp only
  rw [if_neg notQuote, if_neg notSlash, if_neg large]
  cases scanUnits rest <;> rfl

private theorem scanUnits_short {letter c : CodePoint}
    (notNumber : letter ≠ 0x75)
    (stands : unescape letter = some c) (rest : Text) :
    scanUnits (0x5C :: letter :: rest) =
      (scanUnits rest).map fun (units, later) =>
        ((false, c) :: units, later) := by
  rw [scanUnits.eq_def]
  dsimp only
  rw [if_neg (by decide), if_pos rfl, if_neg notNumber, stands]
  cases scanUnits rest <;> rfl

/-- A short escape is scanned. -/
theorem scanUnits_shortEscape {c letter : CodePoint} {n : Nat}
    (same : c.val = n) (notNumber : letter ≠ 0x75)
    (stands : unescape letter = some (Fin.ofNat _ n)) (rest : Text) :
    scanUnits (0x5C :: letter :: rest) =
      (scanUnits rest).map fun (units, later) =>
        ((false, c) :: units, later) := by
  subst same
  rw [Fin.ofNat_val_eq_self] at stands
  exact scanUnits_short notNumber stands rest

/-- A written character is scanned. -/
theorem scanUnits_escapeAscii (c : CodePoint) (rest : Text) :
    scanUnits (escapeAscii c ++ rest) =
      (scanUnits rest).map fun (units, later) =>
        (writtenUnits c ++ units, later) := by
  have short : ∀ {n : Nat} {letter : CodePoint}, c.val = n →
      n ∈ shortEscapes → letter ≠ 0x75 →
      unescape letter = some (Fin.ofNat _ n) →
      scanUnits (0x5C :: letter :: rest) =
        (scanUnits rest).map fun (units, later) =>
          (writtenUnits c ++ units, later) := by
    intro n letter same isShort notNumber stands
    rw [scanUnits_shortEscape same notNumber stands]
    unfold writtenUnits
    rw [same, if_pos (.inl isShort)]
    rfl
  unfold escapeAscii
  split
  case h_1 same => exact short same (by decide) (by decide) rfl
  case h_2 same => exact short same (by decide) (by decide) rfl
  case h_3 same => exact short same (by decide) (by decide) rfl
  case h_4 same => exact short same (by decide) (by decide) rfl
  case h_5 same => exact short same (by decide) (by decide) rfl
  case h_6 same => exact short same (by decide) (by decide) rfl
  case h_7 same => exact short same (by decide) (by decide) rfl
  case h_8 quote slash newline return' tab feed back =>
    split_ifs with printed basic
    · rw [List.singleton_append, scanUnits_plain]
      · unfold writtenUnits
        rw [if_pos (.inr printed)]
        rfl
      · rintro rfl
        exact quote rfl
      · rintro rfl
        exact slash rfl
      · omega
    · rw [scanUnits_escapeUnit basic]
      unfold writtenUnits
      rw [if_neg, if_pos basic, Fin.ofNat_val_eq_self]
      · rfl
      · rintro (isShort | isPrinted)
        · simp only [shortEscapes, List.mem_cons, List.not_mem_nil,
            or_false] at isShort
          rcases isShort with same | same | same | same | same | same | same
          exacts [quote same, slash same, newline same, return' same, tab same,
            feed same, back same]
        · exact printed isPrinted
    · have bound := c.isLt
      rw [List.append_assoc, scanUnits_escapeUnit (by omega),
        scanUnits_escapeUnit (by omega)]
      unfold writtenUnits
      rw [if_neg, if_neg basic]
      · cases scanUnits rest <;> rfl
      · rintro (isShort | isPrinted)
        · simp only [shortEscapes, List.mem_cons, List.not_mem_nil,
            or_false] at isShort
          omega
        · exact printed isPrinted

theorem scanUnits_written (s rest : Text) :
    scanUnits (s.flatMap escapeAscii ++ 0x22 :: rest) =
      some (s.flatMap writtenUnits, rest) := by
  induction s with
  | nil =>
      rw [List.flatMap_nil, List.nil_append, scanUnits.eq_def]
      rfl
  | cons c s induction =>
      rw [List.flatMap_cons, List.append_assoc, scanUnits_escapeAscii,
        induction]
      rfl

/-- One unit that is no high surrogate before a low one. -/
theorem joinUnits_single {escaped : Bool} {c : CodePoint}
    {rest : List (Bool × CodePoint)}
    (unpaired : ∀ unit ∈ rest.head?,
      ¬ (isHighSurrogate c ∧ isLowSurrogate unit.2)) :
    joinUnits ((escaped, c) :: rest) = c :: joinUnits rest := by
  cases rest with
  | nil => rfl
  | cons unit rest =>
      rw [joinUnits, if_neg]
      rintro ⟨_, _, pair⟩
      exact unpaired unit rfl pair

/-- Characters up to U+FFFF are one unit. -/
theorem writtenUnits_basic {c : CodePoint} (basic : c.val < 0x10000) :
    ∃ escaped, writtenUnits c = [(escaped, c)] ∧
      (isHighSurrogate c ∨ isLowSurrogate c → escaped = true) := by
  unfold writtenUnits
  by_cases plain : c.val ∈ shortEscapes ∨ (0x20 ≤ c.val ∧ c.val ≤ 0x7E)
  · rw [if_pos plain]
    refine ⟨false, rfl, ?_⟩
    have small : c.val < 0x80 := by
      rcases plain with isShort | isPrinted
      · simp only [shortEscapes, List.mem_cons, List.not_mem_nil,
          or_false] at isShort
        omega
      · omega
    simp only [isHighSurrogate, isLowSurrogate, decide_eq_true_eq]
    omega
  · rw [if_neg plain, if_pos basic]
    exact ⟨true, rfl, fun _ => rfl⟩

/-- Other characters are a surrogate pair. -/
theorem writtenUnits_beyond {c : CodePoint} (beyond : ¬ c.val < 0x10000) :
    ∃ high low, writtenUnits c = [(true, high), (true, low)] ∧
      isHighSurrogate high ∧ isLowSurrogate low ∧
      joinSurrogates high low = c := by
  have bound := c.isLt
  have notPlain : ¬ (c.val ∈ shortEscapes ∨ (0x20 ≤ c.val ∧ c.val ≤ 0x7E)) := by
    rintro (isShort | isPrinted)
    · simp only [shortEscapes, List.mem_cons, List.not_mem_nil,
        or_false] at isShort
      omega
    · omega
  unfold writtenUnits
  rw [if_neg notPlain, if_neg beyond]
  refine ⟨_, _, rfl, ?_, ?_, ?_⟩
  · unfold isHighSurrogate
    rw [Fin.val_ofNat, decide_eq_true_eq, Nat.mod_eq_of_lt (by omega)]
    omega
  · unfold isLowSurrogate
    rw [Fin.val_ofNat, decide_eq_true_eq, Nat.mod_eq_of_lt (by omega)]
    omega
  · unfold joinSurrogates
    apply Fin.ext
    rw [Fin.val_ofNat, Fin.val_ofNat, Fin.val_ofNat,
      Nat.mod_eq_of_lt (by omega), Nat.mod_eq_of_lt (by omega),
      Nat.mod_eq_of_lt (by omega)]
    omega

/-- The first unit of a character is a low surrogate only if it is one. -/
theorem writtenUnits_head (c : CodePoint) (rest : List (Bool × CodePoint)) :
    ∃ unit, (writtenUnits c ++ rest).head? = some unit ∧
      (isLowSurrogate unit.2 → isLowSurrogate c) := by
  by_cases basic : c.val < 0x10000
  · obtain ⟨escaped, same, _⟩ := writtenUnits_basic basic
    rw [same]
    exact ⟨_, rfl, id⟩
  · obtain ⟨high, low, same, isHigh, _⟩ := writtenUnits_beyond basic
    rw [same]
    refine ⟨_, rfl, ?_⟩
    intro isLow
    simp only [isHighSurrogate, isLowSurrogate, decide_eq_true_eq]
      at isHigh isLow
    omega

private theorem joinUnits_cons {c : CodePoint} {rest : List (Bool × CodePoint)}
    (unpaired : ∀ unit ∈ rest.head?,
      ¬ (isHighSurrogate c ∧ isLowSurrogate unit.2)) :
    joinUnits (writtenUnits c ++ rest) = c :: joinUnits rest := by
  by_cases basic : c.val < 0x10000
  · obtain ⟨escaped, same, _⟩ := writtenUnits_basic basic
    rw [same]
    exact joinUnits_single unpaired
  · obtain ⟨high, low, same, isHigh, isLow, joined⟩ :=
      writtenUnits_beyond basic
    rw [same, List.cons_append, List.singleton_append, joinUnits,
      if_pos ⟨rfl, rfl, isHigh, isLow⟩, joined]

private theorem joinUnits_written (s : Text) :
    joinUnits (s.flatMap writtenUnits) = Python.rejoined s := by
  induction s using Python.rejoined.induct with
  | case1 => rfl
  | case2 c =>
      have unpaired : ∀ unit ∈ ([] : List (Bool × CodePoint)).head?,
          ¬ (isHighSurrogate c ∧ isLowSurrogate unit.2) := by
        intro unit isHead
        cases isHead
      rw [List.flatMap_cons, List.flatMap_nil, joinUnits_cons unpaired]
      rfl
  | case3 c d rest pair induction =>
      have basic : ∀ e, isHighSurrogate e ∨ isLowSurrogate e →
          e.val < 0x10000 := by
        intro e surrogate
        simp only [isHighSurrogate, isLowSurrogate, decide_eq_true_eq]
          at surrogate
        omega
      obtain ⟨_, first, escaped⟩ :=
        writtenUnits_basic (basic c (.inl pair.1))
      obtain ⟨_, second, escaped'⟩ :=
        writtenUnits_basic (basic d (.inr pair.2))
      obtain rfl := escaped (.inl pair.1)
      obtain rfl := escaped' (.inr pair.2)
      rw [List.flatMap_cons, List.flatMap_cons, first, second,
        List.singleton_append, List.singleton_append, joinUnits,
        if_pos ⟨rfl, rfl, pair⟩, induction, Python.rejoined, if_pos pair]
  | case4 c d rest unpaired induction =>
      rw [List.flatMap_cons, joinUnits_cons, induction, Python.rejoined,
        if_neg unpaired]
      intro unit isHead
      obtain ⟨other, sameHead, onlyLow⟩ :=
        writtenUnits_head d (rest.flatMap writtenUnits)
      rw [List.flatMap_cons, sameHead] at isHead
      cases isHead
      exact fun pair => unpaired ⟨pair.1, onlyLow pair.2⟩

theorem scanString_quoteAscii (s rest : Text) :
    scanString ((quoteAscii s ++ rest).tail) =
      some (Python.rejoined s, rest) := by
  unfold scanString quoteAscii
  rw [List.cons_append, List.cons_append, List.tail_cons, List.append_assoc,
    List.singleton_append, scanUnits_written, Option.map_some]
  dsimp only
  rw [joinUnits_written]

end Json

end Python
