import SovereignInference.Python.MemberOrder
import SovereignInference.Python.Utf16
import SovereignInference.Python.Utf8
import SovereignInference.SipProtocol.Documents
import Mathlib.Data.List.Pairwise

/-!
# Canonical JSON and RFC 8785

`canonical_json` orders the members of objects by the code points of their
names, RFC 8785 by the UTF-16 code units.  Everything else is written alike.
-/

namespace SovereignInference.SipProtocol

open Python Python.Json Effects Collections

namespace Jcs

/-- A character inside a string (section 3.2.2.2). -/
def escapeChar (c : CodePoint) : Text :=
  if c = 0x22 ∨ c = 0x5C then [0x5C, c]
  else if c = 0x08 then text "\\b"
  else if c = 0x09 then text "\\t"
  else if c = 0x0A then text "\\n"
  else if c = 0x0C then text "\\f"
  else if c = 0x0D then text "\\r"
  else if c.val < 0x20 then text "\\u00" ++ hexDigits 2 c.val
  else [c]

def serializeString (s : Text) : Text :=
  0x22 :: s.flatMap escapeChar ++ [0x22]

mutual

/-- The text of a value.  Numbers are the integers that a double holds
exactly; there is no text for other values. -/
def serialize : Json → Option Text
  | .null => some "null"
  | .bool true => some "true"
  | .bool false => some "false"
  | .int value =>
      if value.natAbs ≤ 2 ^ 53 - 1 then some (intText value) else none
  | .float _ => none
  | .str value => if Encodable value then some (serializeString value) else none
  | .arr items => do
      let texts ← serializeItems items
      return 0x5B :: join [0x2C] texts ++ [0x5D]
  | .obj fields => do
      let members ← serializeFields fields
      let sorted := members.insertionSort fun a b => utf16 a.1 ≤ utf16 b.1
      return 0x7B :: join [0x2C] (sorted.map fun member =>
        serializeString member.1 ++ 0x3A :: member.2) ++ [0x7D]

def serializeItems : List Json → Option (List Text)
  | [] => some []
  | item :: rest => do
      let first ← serialize item
      return first :: (← serializeItems rest)

def serializeFields : List (Text × Json) → Option (List (Text × Text))
  | [] => some []
  | field :: rest => do
      let first ← serializeField field
      return first :: (← serializeFields rest)

def serializeField : Text × Json → Option (Text × Text)
  | (name, value) => do
      if Encodable name then return (name, ← serialize value) else none

end

end Jcs

/-- Values without floats, lone surrogates, large integers and repeated keys. -/
inductive Interoperable : Json → Prop where
  | null : Interoperable .null
  | bool (value : Bool) : Interoperable (.bool value)
  | int (value : Int) : value.natAbs ≤ 2 ^ 53 - 1 → Interoperable (.int value)
  | str (value : Text) : Encodable value → Interoperable (.str value)
  | arr (items : List Json) : (∀ item ∈ items, Interoperable item) →
      Interoperable (.arr items)
  | obj (fields : Dict) : (fields.map (·.1)).Nodup →
      (∀ field ∈ fields, Encodable field.1) →
      (∀ field ∈ fields, Interoperable field.2) → Interoperable (.obj fields)

theorem Interoperable.distinctKeys {value : Json}
    (interoperable : Interoperable value) : value.DistinctKeys := by
  induction interoperable with
  | null => exact .null
  | bool value => exact .bool value
  | int value _ => exact .int value
  | str value _ => exact .str value
  | arr items _ induction => exact .arr items induction
  | obj fields nodup _ _ induction => exact .obj fields nodup induction

/-- The names of the members of an object inside are encodable. -/
theorem Interoperable.names {value : Json} {object : Dict}
    (interoperable : Interoperable value) (inside : value.HasObject object) :
    (object.map (·.1)).Nodup ∧ ∀ field ∈ object, Encodable field.1 := by
  induction inside with
  | self fields =>
      cases interoperable with
      | obj fields nodup encodable _ => exact ⟨nodup, encodable⟩
  | item member _ induction =>
      cases interoperable with
      | arr items each => exact induction (each _ member)
  | member member _ induction =>
      cases interoperable with
      | obj fields _ _ each => exact induction (each _ member)

private theorem escapeChar_eq (c : CodePoint) :
    Jcs.escapeChar c = escapeJson c := by
  by_cases escaped : c ∈ escapedChars
  · have checked : (escapedChars.all fun c =>
        Jcs.escapeChar c == escapeJson c) = true := by decide +kernel
    exact eq_of_beq (List.all_eq_true.mp checked c escaped)
  · rw [escapeJson_plain escaped]
    have other : ∀ d ∈ escapedChars, c ≠ d := by
      rintro d member rfl
      exact escaped member
    have large : ¬ c.val < 0x20 := by
      intro small
      apply escaped
      refine List.mem_map.mpr ⟨c.val, ?_, Fin.ofNat_val_eq_self c⟩
      simp [small]
    unfold Jcs.escapeChar
    rw [if_neg (not_or.mpr ⟨other _ (by decide), other _ (by decide)⟩),
      if_neg (other _ (by decide)), if_neg (other _ (by decide)),
      if_neg (other _ (by decide)), if_neg (other _ (by decide)),
      if_neg (other _ (by decide)), if_neg large]

private theorem serializeString_eq (s : Text) :
    Jcs.serializeString s = quoteJson s := by
  unfold Jcs.serializeString quoteJson
  rw [funext escapeChar_eq]

theorem serialize_eq {value : Json} (interoperable : Interoperable value) :
    Jcs.serialize value = some (write utf16 value) := by
  induction interoperable with
  | null => rw [Jcs.serialize, write]
  | bool value => cases value <;> rw [Jcs.serialize, write] <;> rfl
  | int value small => rw [Jcs.serialize, write, if_pos small]
  | str value encodable =>
      rw [Jcs.serialize, write, if_pos encodable, serializeString_eq]
  | arr items _ induction =>
      have written : Jcs.serializeItems items =
          some (items.map (write utf16)) := by
        clear * - induction
        induction items with
        | nil => rw [Jcs.serializeItems, List.map_nil]
        | cons item rest more =>
            obtain ⟨first, others⟩ := List.forall_mem_cons.mp induction
            rw [Jcs.serializeItems, first, more others]
            rfl
      rw [Jcs.serialize, written, write, writeItems_eq]
      rfl
  | obj fields _ encodable _ induction =>
      have written : Jcs.serializeFields fields = some
          (fields.map fun field => (field.1, write utf16 field.2)) := by
        clear * - encodable induction
        induction fields with
        | nil => rw [Jcs.serializeFields, List.map_nil]
        | cons field rest more =>
            obtain ⟨name, value⟩ := field
            obtain ⟨plain, encodable⟩ := List.forall_mem_cons.mp encodable
            obtain ⟨first, others⟩ := List.forall_mem_cons.mp induction
            rw [Jcs.serializeFields, Jcs.serializeField, if_pos plain, first,
              more encodable others]
            rfl
      have sameMember : (fun member : Text × Text =>
          Jcs.serializeString member.1 ++ 0x3A :: member.2) = writeMember := by
        funext member
        rw [serializeString_eq]
        rfl
      rw [Jcs.serialize, written, sameMember, write, writeFields_eq]
      rfl

theorem lt_maxStrDigits {value : Nat} (small : value ≤ 2 ^ 53 - 1) :
    value < 10 ^ maxStrDigits := by
  calc value ≤ 2 ^ 53 - 1 := small
    _ < 10 ^ 16 := by decide
    _ ≤ 10 ^ maxStrDigits := Nat.pow_le_pow_right (by decide) (by decide)

theorem dump_eq {value : Json} (interoperable : Interoperable value) :
    value.dump true = .ok (write id value) := by
  induction interoperable with
  | null => rw [dump, write]
  | bool value => rw [dump, write]
  | int value small =>
      rw [dump, write, intRepr, if_pos (lt_maxStrDigits small)]
  | str value _ => rw [dump, write]
  | arr items _ induction =>
      have written : dumpItems true items = .ok (items.map (write id)) := by
        clear * - induction
        induction items with
        | nil => rw [dumpItems, List.map_nil]
        | cons item rest more =>
            obtain ⟨first, others⟩ := List.forall_mem_cons.mp induction
            rw [dumpItems, first, more others]
            rfl
      rw [dump, written, write, writeItems_eq]
      rfl
  | obj fields _ _ _ induction =>
      have written : dumpFields true fields = .ok
          (fields.map fun field => (field.1, write id field.2)) := by
        clear * - induction
        induction fields with
        | nil => rw [dumpFields, List.map_nil]
        | cons field rest more =>
            obtain ⟨name, value⟩ := field
            obtain ⟨first, others⟩ := List.forall_mem_cons.mp induction
            rw [dumpFields, dumpField, first, more others]
            rfl
      have sameSort : ∀ members : List (Text × Text), sortMembers members =
          members.insertionSort fun a b => id a.1 ≤ id b.1 := by
        intro members
        exact insertionSort_congr fun a _ b _ => not_lt
      rw [dump, written, write, writeFields_eq]
      simp only [bind, Except.bind, if_true]
      rw [sameSort]
      rfl

theorem Interoperable.clean {value : Json}
    (interoperable : Interoperable value) : value.Clean := by
  induction interoperable with
  | null => exact clean_null
  | bool value => exact clean_bool value
  | int value small =>
      exact (clean_int value).mpr (lt_maxStrDigits small)
  | str value encodable => exact encodable
  | arr items _ induction => exact (clean_arr items).mpr induction
  | obj fields _ encodable _ induction =>
      exact (clean_obj fields).mpr fun field member =>
        ⟨encodable field member, induction field member⟩

/-- The two orders put the members of an object in the same order exactly if no
two of its names are divergent. -/
theorem ordered_eq_iff {object : Dict}
    (encodable : ∀ field ∈ object, Encodable field.1) :
    ordered id object = ordered utf16 object ↔
      ∀ field ∈ object, ∀ other ∈ object, ¬ Divergent field.1 other.1 := by
  constructor
  · intro alike field member other member' divergent
    have byChars : (ordered utf16 object).Pairwise
        fun a b => a.1 ≤ b.1 := by
      rw [← alike]
      exact List.pairwise_insertionSort _ _
    have byUnits : (ordered utf16 object).Pairwise
        fun a b => utf16 a.1 ≤ utf16 b.1 := List.pairwise_insertionSort _ _
    have apart : (ordered utf16 object).Pairwise
        fun a b => ¬ Divergent a.1 b.1 := by
      refine (byChars.and byUnits).imp ?_
      rintro _ _ ⟨chars, units⟩ divergent
      exact not_both_ordered divergent chars units
    have irreflexive : ¬ Divergent other.1 other.1 := fun divergent =>
      not_both_ordered divergent le_rfl le_rfl
    have symmetric : Std.Symm fun a b : Text × Json =>
        ¬ Divergent a.1 b.1 :=
      ⟨fun _ _ apart divergent => apart (divergent_symm divergent)⟩
    have different : field ≠ other := by
      rintro rfl
      exact irreflexive divergent
    exact apart.forall ((List.mem_insertionSort _).mpr member)
      ((List.mem_insertionSort _).mpr member') different divergent
  · intro apart
    exact insertionSort_congr fun field member other member' =>
      (utf16_le_iff (encodable field member) (encodable other member')
        (apart field member other member')).symm

/-- The two serialisations are compared by their orders of members. -/
theorem canonicalJson_eq_iff {value : Json}
    (interoperable : Interoperable value) :
    (∃ text, Jcs.serialize value = some text ∧
        canonicalJson value = encodeUtf8 text) ↔
      write id value = write utf16 value := by
  have canonical : canonicalJson value = encodeUtf8 (write id value) := by
    unfold canonicalJson dumpBytes
    rw [dump_eq interoperable]
    rfl
  rw [serialize_eq interoperable, canonical]
  constructor
  · rintro ⟨_, ⟨⟩, same⟩
    obtain ⟨bytes, encoded⟩ :=
      (dumpBytes_isOk true value).mpr interoperable.clean
    have encoded' : encodeUtf8 (write id value) = .ok bytes :=
      canonical ▸ encoded
    exact encodeUtf8_injective encoded' (same ▸ encoded')
  · intro same
    exact ⟨_, rfl, by rw [same]⟩

/-- **Canonical JSON is the serialisation of RFC 8785** exactly if no object
has two keys that first differ in a character of the range U+E000 to U+FFFF
and one beyond it. -/
theorem canonicalJson_rfc8785_iff {value : Json}
    (interoperable : Interoperable value) :
    (∃ text, Jcs.serialize value = some text ∧
        canonicalJson value = encodeUtf8 text) ↔
      ∀ object, value.HasObject object → ∀ field ∈ object,
        ∀ other ∈ object, ¬ Divergent field.1 other.1 := by
  rw [canonicalJson_eq_iff interoperable,
    write_eq_iff interoperable.distinctKeys]
  constructor
  · intro alike object inside
    exact (ordered_eq_iff (interoperable.names inside).2).mp
      (alike object inside)
  · intro apart object inside
    exact (ordered_eq_iff (interoperable.names inside).2).mpr
      (apart object inside)

/-- An object whose members are `null`. -/
def namesOnly (names : List Text) : Json :=
  .obj (names.map fun name => (name, .null))

theorem namesOnly_interoperable {names : List Text} (nodup : names.Nodup)
    (encodable : ∀ name ∈ names, Encodable name) :
    Interoperable (namesOnly names) := by
  refine .obj _ ?_ ?_ ?_
  · rw [List.map_map]
    simpa [Function.comp_def] using nodup
  · exact List.forall_mem_map.mpr encodable
  · exact List.forall_mem_map.mpr fun _ _ => .null

theorem canonicalJson_rfc8785_plain :
    ∃ text, Jcs.serialize (namesOnly ["b", [0xE000], "a"]) = some text ∧
      canonicalJson (namesOnly ["b", [0xE000], "a"]) = encodeUtf8 text := by
  have interoperable : Interoperable (namesOnly ["b", [0xE000], "a"]) :=
    namesOnly_interoperable (by decide +kernel) (by decide +kernel)
  refine (canonicalJson_rfc8785_iff interoperable).mpr ?_
  intro object inside
  cases inside with
  | self => decide +kernel
  | member member inside =>
      obtain ⟨_, _, rfl⟩ := List.mem_map.mp member
      cases inside

/-- U+E000 is a smaller character than U+10000, but a larger code unit than
the high surrogate U+D800. -/
theorem canonicalJson_divergent : ¬ ∀ value, Interoperable value →
    ∃ text, Jcs.serialize value = some text ∧
      canonicalJson value = encodeUtf8 text := by
  intro agree
  have interoperable : Interoperable (namesOnly [[0xE000], [0x10000]]) :=
    namesOnly_interoperable (by decide +kernel) (by decide +kernel)
  have same := (canonicalJson_eq_iff interoperable).mp
    (agree _ interoperable)
  have different : write id (namesOnly [[0xE000], [0x10000]]) ≠
      write utf16 (namesOnly [[0xE000], [0x10000]]) := by decide +kernel
  exact different same

end SovereignInference.SipProtocol
