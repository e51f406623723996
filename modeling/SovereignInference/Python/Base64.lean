import SovereignInference.Python.Text

/-!
# URL-safe base64

The encoder writes the URL-safe alphabet.  The decoder is the non-validating
one of the standard library: it reads both alphabets, skips every other
character, and drops the spare bits of the last group, so many spellings
decode to the same bytes.
-/

namespace Python

/-- The URL-safe alphabet. -/
def base64Char (value : Nat) : CodePoint :=
  if value < 26 then Fin.ofNat _ (0x41 + value)
  else if value < 52 then Fin.ofNat _ (0x61 + (value - 26))
  else if value < 62 then Fin.ofNat _ (0x30 + (value - 52))
  else if value = 62 then 0x2D
  else 0x5F

/-- The value of a character in the standard alphabet with the URL-safe
substitutes translated into it. -/
def base64Value (c : CodePoint) : Option Nat :=
  let n := c.val
  if 0x41 ≤ n ∧ n ≤ 0x5A then some (n - 0x41)
  else if 0x61 ≤ n ∧ n ≤ 0x7A then some (n - 0x61 + 26)
  else if 0x30 ≤ n ∧ n ≤ 0x39 then some (n - 0x30 + 52)
  else if n = 0x2B ∨ n = 0x2D then some 62
  else if n = 0x2F ∨ n = 0x5F then some 63
  else none

/-- `base64.urlsafe_b64encode` without the padding. -/
def b64uEncode : Bytes → Text
  | [] => []
  | [a] =>
      [base64Char (a.toNat / 4), base64Char (a.toNat % 4 * 16)]
  | [a, b] =>
      [base64Char (a.toNat / 4),
        base64Char (a.toNat % 4 * 16 + b.toNat / 16),
        base64Char (b.toNat % 16 * 4)]
  | a :: b :: c :: rest =>
      base64Char (a.toNat / 4) ::
        base64Char (a.toNat % 4 * 16 + b.toNat / 16) ::
        base64Char (b.toNat % 16 * 4 + c.toNat / 64) ::
        base64Char (c.toNat % 64) :: b64uEncode rest

/-- The loop of `binascii.a2b_base64` in its non-strict mode.  `quad` counts
the characters of the current group of four, `left` holds the bits carried
over from the previous one, and `pads` the padding seen since. -/
def a2bBase64 : Text → (quad left pads : Nat) → Except PyExc Bytes
  | [], quad, _, _ => if quad = 0 then .ok [] else .error .valueError
  | c :: rest, quad, left, pads =>
      if c.val = 0x3D then
        if 2 ≤ quad then
          if 4 ≤ quad + (pads + 1) then .ok []
          else a2bBase64 rest quad left (pads + 1)
        else a2bBase64 rest quad left pads
      else
        match base64Value c with
        | none => a2bBase64 rest quad left pads
        | some value =>
            match quad with
            | 0 => a2bBase64 rest 1 value 0
            | 1 => do
                let tail ← a2bBase64 rest 2 (value % 16) 0
                return .ofNat (left * 4 + value / 16) :: tail
            | 2 => do
                let tail ← a2bBase64 rest 3 (value % 4) 0
                return .ofNat (left * 16 + value / 4) :: tail
            | _ => do
                let tail ← a2bBase64 rest 0 0 0
                return .ofNat (left * 64 + value) :: tail

/-- `base64.urlsafe_b64decode` of a string. -/
def urlsafeB64Decode (s : Text) : Except PyExc Bytes :=
  if s.all (·.val < 0x80) then a2bBase64 s 0 0 0 else .error .valueError

/-- The padding `"=" * (-len(text) % 4)`. -/
def b64Padding (s : Text) : Text :=
  List.replicate ((4 - s.length % 4) % 4) 0x3D

/-- Decode after completing the padding. -/
def b64uDecode (s : Text) : Except PyExc Bytes :=
  urlsafeB64Decode (s ++ b64Padding s)

-- Two spellings of one byte: the spare bits of the last character differ.
example : b64uDecode "AA" = .ok [0] ∧ b64uDecode "AB" = .ok [0] := by decide

theorem base64Value_char {value : Nat} (small : value < 64) :
    base64Value (base64Char value) = some value := by
  have all : ∀ v : Fin 64, base64Value (base64Char v) = some v.val := by
    decide
  exact all ⟨value, small⟩

theorem base64Char_plain {value : Nat} (small : value < 64) :
    (base64Char value).val < 0x80 ∧ (base64Char value).val ≠ 0x3D ∧
      (base64Char value).val ≠ 0x2E := by
  have all : ∀ v : Fin 64, (base64Char v).val < 0x80 ∧
      (base64Char v).val ≠ 0x3D ∧ (base64Char v).val ≠ 0x2E := by
    decide
  exact all ⟨value, small⟩

section

variable {value : Nat} (small : value < 64) (rest : Text) (left pads : Nat)

include small

theorem a2bBase64_first :
    a2bBase64 (base64Char value :: rest) 0 left pads =
      a2bBase64 rest 1 value 0 := by
  rw [a2bBase64, if_neg (base64Char_plain small).2.1, base64Value_char small]
  rfl

theorem a2bBase64_second :
    a2bBase64 (base64Char value :: rest) 1 left pads = do
      let tail ← a2bBase64 rest 2 (value % 16) 0
      return .ofNat (left * 4 + value / 16) :: tail := by
  rw [a2bBase64, if_neg (base64Char_plain small).2.1, base64Value_char small]
  rfl

theorem a2bBase64_third :
    a2bBase64 (base64Char value :: rest) 2 left pads = do
      let tail ← a2bBase64 rest 3 (value % 4) 0
      return .ofNat (left * 16 + value / 4) :: tail := by
  rw [a2bBase64, if_neg (base64Char_plain small).2.1, base64Value_char small]
  rfl

theorem a2bBase64_fourth :
    a2bBase64 (base64Char value :: rest) 3 left pads = do
      let tail ← a2bBase64 rest 0 0 0
      return .ofNat (left * 64 + value) :: tail := by
  rw [a2bBase64, if_neg (base64Char_plain small).2.1, base64Value_char small]
  rfl

end

/-- The padding an encoding lacks. -/
theorem b64Padding_encode (bytes : Bytes) :
    b64Padding (b64uEncode bytes) =
      List.replicate ((3 - bytes.length % 3) % 3) 0x3D := by
  have counts : (4 - (b64uEncode bytes).length % 4) % 4 =
      (3 - bytes.length % 3) % 3 := by
    induction bytes using b64uEncode.induct with
    | case1 => rfl
    | case2 a => rfl
    | case3 a b => rfl
    | case4 a b c rest induction =>
        simp only [b64uEncode, List.length_cons]
        omega
  unfold b64Padding
  rw [counts]

theorem a2bBase64_encode (bytes : Bytes) :
    a2bBase64 (b64uEncode bytes ++
      List.replicate ((3 - bytes.length % 3) % 3) 0x3D) 0 0 0 =
        .ok bytes := by
  induction bytes using b64uEncode.induct with
  | case1 => rfl
  | case2 a =>
      have bound := a.toNat_lt
      simp only [b64uEncode, List.cons_append, List.nil_append]
      rw [a2bBase64_first (by omega), a2bBase64_second (by omega)]
      have whole : a.toNat / 4 * 4 + a.toNat % 4 * 16 / 16 = a.toNat := by
        omega
      rw [whole, UInt8.ofNat_toNat]
      rfl
  | case3 a b =>
      have boundA := a.toNat_lt
      have boundB := b.toNat_lt
      simp only [b64uEncode, List.cons_append, List.nil_append]
      rw [a2bBase64_first (by omega), a2bBase64_second (by omega),
        a2bBase64_third (by omega)]
      have first : a.toNat / 4 * 4 +
          (a.toNat % 4 * 16 + b.toNat / 16) / 16 = a.toNat := by
        omega
      have second : (a.toNat % 4 * 16 + b.toNat / 16) % 16 * 16 +
          b.toNat % 16 * 4 / 4 = b.toNat := by
        omega
      rw [first, second, UInt8.ofNat_toNat, UInt8.ofNat_toNat]
      rfl
  | case4 a b c rest induction =>
      have boundA := a.toNat_lt
      have boundB := b.toNat_lt
      have boundC := c.toNat_lt
      have samePadding : (3 - (a :: b :: c :: rest).length % 3) % 3 =
          (3 - rest.length % 3) % 3 := by
        simp only [List.length_cons]
        omega
      rw [samePadding]
      simp only [b64uEncode, List.cons_append]
      rw [a2bBase64_first (by omega), a2bBase64_second (by omega),
        a2bBase64_third (by omega), a2bBase64_fourth (by omega), induction]
      have first : a.toNat / 4 * 4 +
          (a.toNat % 4 * 16 + b.toNat / 16) / 16 = a.toNat := by
        omega
      have second : (a.toNat % 4 * 16 + b.toNat / 16) % 16 * 16 +
          (b.toNat % 16 * 4 + c.toNat / 64) / 4 = b.toNat := by
        omega
      have third : (b.toNat % 16 * 4 + c.toNat / 64) % 4 * 64 +
          c.toNat % 64 = c.toNat := by
        omega
      rw [first, second, third, UInt8.ofNat_toNat, UInt8.ofNat_toNat,
        UInt8.ofNat_toNat]
      rfl

theorem mem_b64uEncode {bytes : Bytes} {c : CodePoint}
    (member : c ∈ b64uEncode bytes) : ∃ value < 64, c = base64Char value := by
  induction bytes using b64uEncode.induct with
  | case1 => cases member
  | case2 a =>
      have bound := a.toNat_lt
      simp only [b64uEncode, List.mem_cons, List.not_mem_nil, or_false]
        at member
      rcases member with rfl | rfl
      · exact ⟨_, by omega, rfl⟩
      · exact ⟨_, by omega, rfl⟩
  | case3 a b =>
      have boundA := a.toNat_lt
      have boundB := b.toNat_lt
      simp only [b64uEncode, List.mem_cons, List.not_mem_nil, or_false]
        at member
      rcases member with rfl | rfl | rfl
      · exact ⟨_, by omega, rfl⟩
      · exact ⟨_, by omega, rfl⟩
      · exact ⟨_, by omega, rfl⟩
  | case4 a b d rest induction =>
      have boundA := a.toNat_lt
      have boundB := b.toNat_lt
      have boundD := d.toNat_lt
      simp only [b64uEncode, List.mem_cons] at member
      rcases member with rfl | rfl | rfl | rfl | later
      · exact ⟨_, by omega, rfl⟩
      · exact ⟨_, by omega, rfl⟩
      · exact ⟨_, by omega, rfl⟩
      · exact ⟨_, by omega, rfl⟩
      · exact induction later

/-- Decoding undoes encoding. -/
theorem b64uDecode_encode (bytes : Bytes) :
    b64uDecode (b64uEncode bytes) = .ok bytes := by
  unfold b64uDecode urlsafeB64Decode
  rw [if_pos, b64Padding_encode, a2bBase64_encode]
  rw [List.all_eq_true]
  intro c member
  rcases List.mem_append.mp member with encoded | padding
  · obtain ⟨value, small, rfl⟩ := mem_b64uEncode encoded
    exact decide_eq_true (base64Char_plain small).1
  · unfold b64Padding at padding
    rw [List.eq_of_mem_replicate padding]
    rfl

end Python
