import SovereignInference.Python.Text
import Mathlib.Data.List.Basic

/-!
# UTF-8 loses nothing

The length of the encoding of a character shows in its first byte, so texts can
be told apart by their bytes.
-/

namespace Python

open Effects

/-- The number of bytes of a character, from its first byte. -/
def utf8Width (lead : UInt8) : Nat :=
  if lead.toNat < 0x80 then 1
  else if lead.toNat < 0xE0 then 2
  else if lead.toNat < 0xF0 then 3
  else 4

/-- The character of some bytes. -/
def decodeChar : Bytes → Nat
  | [a] => a.toNat
  | [a, b] => (a.toNat - 0xC0) * 0x40 + (b.toNat - 0x80)
  | [a, b, c] =>
      ((a.toNat - 0xE0) * 0x40 + (b.toNat - 0x80)) * 0x40 + (c.toNat - 0x80)
  | [a, b, c, d] =>
      (((a.toNat - 0xF0) * 0x40 + (b.toNat - 0x80)) * 0x40 +
        (c.toNat - 0x80)) * 0x40 + (d.toNat - 0x80)
  | _ => 0

theorem encodeChar_decoded {c : CodePoint} {bytes : Bytes}
    (encoded : encodeChar c = .ok bytes) :
    decodeChar bytes = c.val ∧
      ∃ lead rest, bytes = lead :: rest ∧ bytes.length = utf8Width lead := by
  have small : c.val < 0x110000 := c.isLt
  have whole : isSurrogate c = false :=
    (encodeChar_isOk c).mp ⟨bytes, encoded⟩
  unfold encodeChar at encoded
  rw [whole] at encoded
  simp only [Bool.false_eq_true, if_false] at encoded
  generalize c.val = n at small encoded
  have read : ∀ {m : Nat}, m < 256 → (UInt8.ofNat m).toNat = m := fun below =>
    UInt8.toNat_ofNat_of_lt' below
  by_cases one : n < 0x80
  · rw [if_pos one] at encoded
    cases encoded
    refine ⟨read (by omega), _, _, rfl, ?_⟩
    unfold utf8Width
    rw [read (by omega), if_pos one]
    rfl
  rw [if_neg one] at encoded
  by_cases two : n < 0x800
  · rw [if_pos two] at encoded
    cases encoded
    refine ⟨?_, _, _, rfl, ?_⟩
    · show (_ - 0xC0) * 0x40 + (_ - 0x80) = n
      rw [read (by omega), read (by omega)]
      omega
    · unfold utf8Width
      rw [read (by omega), if_neg (by omega), if_pos (by omega)]
      rfl
  rw [if_neg two] at encoded
  by_cases three : n < 0x10000
  · rw [if_pos three] at encoded
    cases encoded
    refine ⟨?_, _, _, rfl, ?_⟩
    · show ((_ - 0xE0) * 0x40 + (_ - 0x80)) * 0x40 + (_ - 0x80) = n
      rw [read (by omega), read (by omega), read (by omega)]
      omega
    · unfold utf8Width
      rw [read (by omega), if_neg (by omega), if_neg (by omega),
        if_pos (by omega)]
      rfl
  rw [if_neg three] at encoded
  cases encoded
  refine ⟨?_, _, _, rfl, ?_⟩
  · show (((_ - 0xF0) * 0x40 + (_ - 0x80)) * 0x40 + (_ - 0x80)) * 0x40 +
      (_ - 0x80) = n
    rw [read (by omega), read (by omega), read (by omega), read (by omega)]
    omega
  · unfold utf8Width
    rw [read (by omega), if_neg (by omega), if_neg (by omega),
      if_neg (by omega)]
    rfl

/-- No encoding of a character is the start of another's. -/
theorem encodeChar_prefix {c d : CodePoint} {head head' later later' : Bytes}
    (first : encodeChar c = .ok head) (second : encodeChar d = .ok head')
    (same : head ++ later = head' ++ later') : c = d ∧ later = later' := by
  obtain ⟨value, lead, rest, rfl, width⟩ := encodeChar_decoded first
  obtain ⟨value', lead', rest', rfl, width'⟩ := encodeChar_decoded second
  have sameLead : lead = lead' := by
    simp only [List.cons_append, List.cons.injEq] at same
    exact same.1
  have sameLength : (lead :: rest).length = (lead' :: rest').length := by
    rw [width, width', sameLead]
  obtain ⟨sameHead, sameLater⟩ := List.append_inj same sameLength
  rw [sameHead, value'] at value
  exact ⟨Fin.ext value.symm, sameLater⟩

/-- **Texts with the same bytes are the same.** -/
theorem encodeUtf8_injective {s t : Text} {bytes : Bytes}
    (first : encodeUtf8 s = .ok bytes) (second : encodeUtf8 t = .ok bytes) :
    s = t := by
  have nonempty : ∀ {c : CodePoint} {rest : Text},
      encodeUtf8 (c :: rest) ≠ .ok [] := by
    intro c rest empty
    obtain ⟨head, encoded, empty⟩ := bind_eq_ok.mp empty
    obtain ⟨tail, _, empty⟩ := bind_eq_ok.mp empty
    obtain ⟨_, lead, others, rfl, _⟩ := encodeChar_decoded encoded
    cases empty
  induction s generalizing t bytes with
  | nil =>
      cases first
      cases t with
      | nil => rfl
      | cons d rest => exact absurd second nonempty
  | cons c rest induction =>
      cases t with
      | nil =>
          cases second
          exact absurd first nonempty
      | cons d rest' =>
          obtain ⟨head, encoded, first⟩ := bind_eq_ok.mp first
          obtain ⟨tail, more, first⟩ := bind_eq_ok.mp first
          obtain ⟨head', encoded', second⟩ := bind_eq_ok.mp second
          obtain ⟨tail', more', second⟩ := bind_eq_ok.mp second
          cases first
          obtain ⟨sameChar, sameTail⟩ :=
            encodeChar_prefix encoded encoded' (Except.ok.inj second).symm
          rw [sameChar, induction more (by rw [more', sameTail])]

/-- The first character, if the bytes start with the encoding of one. -/
def decodeFirst : Bytes → Option (CodePoint × Bytes)
  | [] => none
  | lead :: rest =>
      let width := utf8Width lead
      let n := decodeChar ((lead :: rest).take width)
      if small : n < 0x110000 then
        if encodeChar ⟨n, small⟩ = .ok ((lead :: rest).take width) then
          some (⟨n, small⟩, (lead :: rest).drop width)
        else none
      else none

def decodeFrom : Nat → Bytes → Option Text
  | _, [] => some []
  | 0, _ :: _ => none
  | fuel + 1, lead :: rest => do
      let (c, rest) ← decodeFirst (lead :: rest)
      let s ← decodeFrom fuel rest
      return c :: s

/-- `bytes.decode("utf-8")`, if it does not raise. -/
def decodeUtf8 (bytes : Bytes) : Option Text := decodeFrom bytes.length bytes

theorem decodeFirst_eq_some {bytes rest : Bytes} {c : CodePoint} :
    decodeFirst bytes = some (c, rest) ↔
      ∃ head, encodeChar c = .ok head ∧ bytes = head ++ rest := by
  constructor
  · intro decoded
    cases bytes with
    | nil => cases decoded
    | cons lead later =>
        simp only [decodeFirst] at decoded
        split_ifs at decoded with small encodes
        cases decoded
        exact ⟨_, encodes, (List.take_append_drop _ _).symm⟩
  · rintro ⟨head, encoded, rfl⟩
    obtain ⟨value, lead, later, rfl, width⟩ := encodeChar_decoded encoded
    have taken : (lead :: later ++ rest).take (utf8Width lead) =
        lead :: later := by
      rw [← width, List.take_left]
    have dropped : (lead :: later ++ rest).drop (utf8Width lead) = rest := by
      rw [← width, List.drop_left]
    rw [List.cons_append] at taken dropped ⊢
    simp only [decodeFirst, taken, dropped, value]
    rw [dif_pos c.isLt, if_pos encoded]

theorem encodeUtf8_cons {c : CodePoint} {s : Text} {bytes : Bytes} :
    encodeUtf8 (c :: s) = .ok bytes ↔ ∃ head tail, encodeChar c = .ok head ∧
      encodeUtf8 s = .ok tail ∧ bytes = head ++ tail := by
  rw [encodeUtf8]
  cases encodeChar c with
  | error error => simp
  | ok head =>
      cases encodeUtf8 s with
      | error error => simp
      | ok tail => simp [eq_comm]

private theorem encodeChar_ne_nil {c : CodePoint} {bytes : Bytes}
    (encoded : encodeChar c = .ok bytes) : bytes ≠ [] := by
  obtain ⟨_, lead, rest, rfl, _⟩ := encodeChar_decoded encoded
  exact List.cons_ne_nil lead rest

private theorem decodeFrom_eq_some {fuel : Nat} {bytes : Bytes} {s : Text}
    (enough : bytes.length ≤ fuel) :
    decodeFrom fuel bytes = some s ↔ encodeUtf8 s = .ok bytes := by
  induction fuel generalizing bytes s with
  | zero =>
      obtain rfl : bytes = [] := List.eq_nil_of_length_eq_zero (by omega)
      cases s with
      | nil => exact iff_of_true rfl rfl
      | cons c s =>
          refine iff_of_false (by simp [decodeFrom]) ?_
          intro encoded
          obtain ⟨head, _, first, _, empty⟩ := encodeUtf8_cons.mp encoded
          exact encodeChar_ne_nil first (List.append_eq_nil_iff.mp empty.symm).1
  | succ fuel induction =>
      cases bytes with
      | nil =>
          cases s with
          | nil => exact iff_of_true rfl rfl
          | cons c s =>
              refine iff_of_false (by simp [decodeFrom]) ?_
              intro encoded
              obtain ⟨head, _, first, _, empty⟩ := encodeUtf8_cons.mp encoded
              exact encodeChar_ne_nil first
                (List.append_eq_nil_iff.mp empty.symm).1
      | cons lead rest =>
          rw [decodeFrom]
          simp only [Option.bind_eq_bind, Option.bind_eq_some_iff,
            Prod.exists, Option.pure_def, Option.some.injEq]
          constructor
          · rintro ⟨c, later, first, t, decoded, rfl⟩
            obtain ⟨head, encoded, split⟩ := decodeFirst_eq_some.mp first
            have shorter : later.length ≤ fuel := by
              have lengths := congrArg List.length split
              have some := List.length_pos_of_ne_nil (encodeChar_ne_nil encoded)
              simp only [List.length_append, List.length_cons] at *
              omega
            exact encodeUtf8_cons.mpr
              ⟨head, later, encoded, (induction shorter).mp decoded, split⟩
          · intro encoded
            cases s with
            | nil => cases encoded
            | cons c s =>
                obtain ⟨head, tail, first, others, split⟩ :=
                  encodeUtf8_cons.mp encoded
                have shorter : tail.length ≤ fuel := by
                  have lengths := congrArg List.length split
                  have some := List.length_pos_of_ne_nil
                    (encodeChar_ne_nil first)
                  simp only [List.length_append, List.length_cons] at *
                  omega
                exact ⟨c, tail, decodeFirst_eq_some.mpr ⟨head, first, split⟩, s,
                  (induction shorter).mpr others, rfl⟩

/-- **The bytes that are UTF-8** are the encodings of texts. -/
theorem decodeUtf8_eq_some {bytes : Bytes} {s : Text} :
    decodeUtf8 bytes = some s ↔ encodeUtf8 s = .ok bytes :=
  decodeFrom_eq_some le_rfl

end Python
