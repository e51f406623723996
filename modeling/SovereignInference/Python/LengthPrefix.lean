import SovereignInference.Python.Utf8
import SovereignInference.Python.Numeral
import Mathlib.Data.List.Induction

/-!
# Big-endian numbers and fields behind their length

A number has one encoding of each length, and a field that follows its own
length ends where it ends.
-/

namespace Python

open Effects

theorem toBytesBig_eq_ok {length value : Nat} {bytes : Bytes}
    (written : toBytesBig length value = .ok bytes) :
    bytes.length = length ∧ value < 256 ^ length ∧
      fromBytesBig bytes = value := by
  induction length generalizing value bytes with
  | zero =>
      unfold toBytesBig at written
      split_ifs at written with zero
      cases written
      exact ⟨rfl, by rw [zero]; decide, zero.symm⟩
  | succ length induction =>
      unfold toBytesBig at written
      obtain ⟨high, more, written⟩ := bind_eq_ok.mp written
      cases written
      obtain ⟨counted, fits, read⟩ := induction more
      refine ⟨by rw [List.length_append, counted]; rfl, ?_, ?_⟩
      · rw [Nat.pow_succ]
        exact (Nat.div_lt_iff_lt_mul (by decide)).mp fits
      · rw [fromBytesBig_append, read, UInt8.toNat_ofNat']
        omega

theorem fromBytesBig_lt (bytes : Bytes) :
    fromBytesBig bytes < 256 ^ bytes.length := by
  induction bytes using List.reverseRecOn with
  | nil => decide
  | append_singleton high low induction =>
      have small := low.toNat_lt
      rw [fromBytesBig_append, List.length_append, List.length_singleton,
        Nat.pow_succ]
      omega

/-- Bytes of one length are told apart by their number. -/
theorem fromBytesBig_injective {bytes bytes' : Bytes}
    (sameLength : bytes.length = bytes'.length)
    (same : fromBytesBig bytes = fromBytesBig bytes') : bytes = bytes' := by
  induction bytes using List.reverseRecOn generalizing bytes' with
  | nil => exact (List.eq_nil_of_length_eq_zero sameLength.symm).symm
  | append_singleton high low induction =>
      rcases List.eq_nil_or_concat bytes' with rfl | ⟨high', low', rfl⟩
      · simp at sameLength
      rw [List.concat_eq_append] at same sameLength ⊢
      have small := low.toNat_lt
      have small' := low'.toNat_lt
      rw [fromBytesBig_append, fromBytesBig_append] at same
      rw [List.length_append, List.length_append] at sameLength
      rw [induction (Nat.add_right_cancel sameLength) (by omega),
        UInt8.toNat_inj.mp (show low.toNat = low'.toNat by omega)]

/-- Two fields behind their lengths, with what follows them. -/
theorem prefixed_cancel {width : Nat} {field field' head head' later later' :
      Bytes} (counted : toBytesBig width field.length = .ok head)
    (counted' : toBytesBig width field'.length = .ok head')
    (same : head ++ (field ++ later) = head' ++ (field' ++ later')) :
    field = field' ∧ later = later' := by
  obtain ⟨long, _, read⟩ := toBytesBig_eq_ok counted
  obtain ⟨long', _, read'⟩ := toBytesBig_eq_ok counted'
  obtain ⟨sameHead, sameRest⟩ :=
    List.append_inj same (long.trans long'.symm)
  apply List.append_inj sameRest
  rw [← read, ← read', sameHead]

/-- The text of bytes below 128 is encoded as these bytes. -/
theorem encodeUtf8_latin1 {bytes : Bytes}
    (plain : ∀ byte ∈ bytes, byte.toNat < 0x80) :
    encodeUtf8 (latin1 bytes) = .ok bytes := by
  induction bytes with
  | nil => rfl
  | cons byte rest induction =>
      obtain ⟨small, others⟩ := List.forall_mem_cons.mp plain
      have value : (Fin.ofNat 0x110000 byte.toNat).val = byte.toNat :=
        Nat.mod_eq_of_lt (by omega)
      have encoded : encodeChar (Fin.ofNat _ byte.toNat) = .ok [byte] := by
        unfold encodeChar isSurrogate
        rw [value]
        dsimp only
        rw [if_neg, if_pos small, UInt8.ofNat_toNat]
        simp only [Bool.and_eq_true, decide_eq_true_eq]
        omega
      have unfolded : latin1 (byte :: rest) =
          Fin.ofNat _ byte.toNat :: latin1 rest := rfl
      rw [unfolded, encodeUtf8, encoded, induction others]
      rfl

end Python
