import SovereignInference.Python.Base64

/-!
# The one spelling that the encoder writes

Of the many texts that decode to the same bytes only one is the encoding: it
consists of characters of the URL-safe alphabet, and its spare bits are zero.
-/

namespace Python

/-- The text of values from the alphabet. -/
def base64Text (values : List Nat) : Text := values.map base64Char

theorem toNat_ofNat {n : Nat} (below : n < 256) :
    (UInt8.ofNat n).toNat = n := UInt8.toNat_ofNat_of_lt' below

/-- Whole groups and three more values encode something if the last value has
no spare bits. -/
theorem exists_encoded : ∀ values : List Nat, (∀ value ∈ values, value < 64) →
    values.length % 4 = 2 → ∀ last < 64, last % 4 = 0 →
      ∃ bytes, b64uEncode bytes = base64Text (values ++ [last])
  | [], _, length, _, _, _ => by simp at length
  | [_], _, length, _, _, _ => by simp at length
  | [x, y], small, _, last, below, spare => by
      have smallX := small x (by simp)
      have smallY := small y (by simp)
      refine ⟨[.ofNat (x * 4 + y / 16), .ofNat (y % 16 * 16 + last / 4)], ?_⟩
      simp only [b64uEncode, base64Text, List.cons_append, List.nil_append,
        List.map_cons, List.map_nil]
      rw [toNat_ofNat (by omega), toNat_ofNat (by omega)]
      have first : (x * 4 + y / 16) / 4 = x := by omega
      have second : (x * 4 + y / 16) % 4 * 16 +
          (y % 16 * 16 + last / 4) / 16 = y := by omega
      have third : (y % 16 * 16 + last / 4) % 16 * 4 = last := by omega
      rw [first, second, third]
  | [_, _, _], _, length, _, _, _ => by simp at length
  | x :: y :: z :: w :: rest, small, length, last, below, spare => by
      have smallX := small x (by simp)
      have smallY := small y (by simp)
      have smallZ := small z (by simp)
      have smallW := small w (by simp)
      have shorter : rest.length % 4 = 2 := by
        simp only [List.length_cons] at length
        omega
      have smallRest : ∀ value ∈ rest, value < 64 := fun value member =>
        small value (by simp [member])
      obtain ⟨bytes, encoded⟩ :=
        exists_encoded rest smallRest shorter last below spare
      refine ⟨.ofNat (x * 4 + y / 16) :: .ofNat (y % 16 * 16 + z / 4) ::
        .ofNat (z % 4 * 64 + w) :: bytes, ?_⟩
      simp only [b64uEncode, encoded, base64Text, List.cons_append,
        List.map_cons]
      rw [toNat_ofNat (by omega), toNat_ofNat (by omega),
        toNat_ofNat (by omega)]
      have first : (x * 4 + y / 16) / 4 = x := by omega
      have second : (x * 4 + y / 16) % 4 * 16 +
          (y % 16 * 16 + z / 4) / 16 = y := by omega
      have third : (y % 16 * 16 + z / 4) % 16 * 4 +
          (z % 4 * 64 + w) / 64 = z := by omega
      have fourth : (z % 4 * 64 + w) % 64 = w := by omega
      rw [first, second, third, fourth]

/-- What is encoded has this shape: whole groups, and a rest without spare
bits. -/
theorem encoded_values : ∀ bytes : Bytes, bytes.length % 3 = 2 →
    ∃ (values : List Nat) (last : Nat), (∀ value ∈ values, value < 64) ∧
      3 * (values.length + 1) = 4 * bytes.length + 1 ∧ last < 64 ∧
      last % 4 = 0 ∧
      b64uEncode bytes = base64Text (values ++ [last])
  | [], length => by simp at length
  | [_], length => by simp at length
  | [a, b], _ => by
      have boundA := a.toNat_lt
      have boundB := b.toNat_lt
      refine ⟨[a.toNat / 4, a.toNat % 4 * 16 + b.toNat / 16],
        b.toNat % 16 * 4, ?_, rfl, by omega, by omega, rfl⟩
      intro value member
      simp only [List.mem_cons, List.not_mem_nil, or_false] at member
      rcases member with rfl | rfl <;> omega
  | a :: b :: c :: rest, length => by
      have boundA := a.toNat_lt
      have boundB := b.toNat_lt
      have boundC := c.toNat_lt
      have shorter : rest.length % 3 = 2 := by
        simp only [List.length_cons] at length
        omega
      obtain ⟨values, last, small, counted, below, spare, encoded⟩ :=
        encoded_values rest shorter
      refine ⟨a.toNat / 4 :: (a.toNat % 4 * 16 + b.toNat / 16) ::
        (b.toNat % 16 * 4 + c.toNat / 64) :: (c.toNat % 64) :: values, last,
        ?_, ?_, below, spare, ?_⟩
      · intro value member
        simp only [List.mem_cons] at member
        rcases member with rfl | rfl | rfl | rfl | later
        · omega
        · omega
        · omega
        · omega
        · exact small value later
      · simp only [List.length_cons] at counted ⊢
        omega
      · rw [b64uEncode, encoded]
        rfl

end Python
