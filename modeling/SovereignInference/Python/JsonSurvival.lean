import SovereignInference.Arithmetic.FloatCompare
import SovereignInference.Python.JsonDicts
import SovereignInference.Python.JsonRoundTrip
import SovereignInference.Python.Schema

/-!
# Values that come back

What is read of a written value equals the value exactly if no string and no
key has a high surrogate before a low one, and no float is a NaN.
-/

namespace Python

open Arithmetic

/-- A pair becomes a character that is no surrogate. -/
theorem joinSurrogates_beyond {c d : CodePoint}
    (pair : isHighSurrogate c ∧ isLowSurrogate d) :
    0x10000 ≤ (joinSurrogates c d).val := by
  simp only [isHighSurrogate, isLowSurrogate, decide_eq_true_eq] at pair
  unfold joinSurrogates
  rw [Fin.val_ofNat, Nat.mod_eq_of_lt (by omega)]
  omega

/-- Only a low surrogate comes first where one came first. -/
theorem head_rejoined {c d : CodePoint} {rest : Text}
    (isHead : (rejoined (c :: rest)).head? = some d)
    (isLow : isLowSurrogate d = true) : d = c := by
  cases rest with
  | nil => exact (Option.some.inj isHead).symm
  | cons e rest =>
      rw [rejoined] at isHead
      split_ifs at isHead with pair
      · obtain rfl := Option.some.inj isHead
        have beyond := joinSurrogates_beyond pair
        rw [isLowSurrogate, decide_eq_true_eq] at isLow
        omega
      · exact (Option.some.inj isHead).symm

/-- Nothing is left to join. -/
theorem unpaired_rejoined (s : Text) : Unpaired (rejoined s) := by
  unfold Unpaired
  induction s using rejoined.induct with
  | case1 => exact List.IsChain.nil
  | case2 c => exact List.IsChain.singleton c
  | case3 c d rest pair induction =>
      rw [rejoined, if_pos pair, List.isChain_cons]
      refine ⟨?_, induction⟩
      rintro e _ ⟨isHigh, _⟩
      have beyond := joinSurrogates_beyond pair
      rw [isHighSurrogate, decide_eq_true_eq] at isHigh
      omega
  | case4 c d rest unpaired induction =>
      rw [rejoined, if_neg unpaired, List.isChain_cons]
      refine ⟨?_, induction⟩
      rintro e isHead ⟨isHigh, isLow⟩
      obtain rfl := head_rejoined isHead isLow
      exact unpaired ⟨isHigh, isLow⟩

namespace Json

theorem find_of_mem {fields : Dict} (distinct : (fields.map (·.1)).Nodup)
    {field : Text × Json} (member : field ∈ fields) :
    fields.find field.1 = some field.2 := by
  rw [Schema.find_eq_lookup, Schema.lookup_of_mem distinct member]

mutual

/-- A value that equals what is read of it. -/
def Survives : Json → Prop
  | .float value => value.isNaN = false
  | .str value => Unpaired value
  | .arr items => SurvivesItems items
  | .obj fields => SurvivesFields fields
  | _ => True

def SurvivesItems : List Json → Prop
  | [] => True
  | item :: rest => Survives item ∧ SurvivesItems rest

def SurvivesFields : List (Text × Json) → Prop
  | [] => True
  | field :: rest => SurvivesField field ∧ SurvivesFields rest

def SurvivesField : Text × Json → Prop
  | (key, value) => Unpaired key ∧ Survives value

end

theorem survivesItems_iff {items : List Json} :
    SurvivesItems items ↔ ∀ item ∈ items, Survives item := by
  induction items with
  | nil => simp [SurvivesItems]
  | cons item rest induction =>
      rw [SurvivesItems, List.forall_mem_cons, induction]

theorem survivesFields_iff {fields : Dict} :
    SurvivesFields fields ↔
      ∀ field ∈ fields, Unpaired field.1 ∧ Survives field.2 := by
  induction fields with
  | nil => simp [SurvivesFields]
  | cons field rest induction =>
      rw [SurvivesFields, List.forall_mem_cons, induction, SurvivesField]

theorem float_beq_self (x : Float) : (x == x) = true ↔ x.isNaN = false := by
  rw [← isNumber_iff]
  constructor
  · exact fun same => (isNumber_of_beq same).1
  · exact fun number => (beq_iff_place number number).mpr rfl

theorem itemsEq_map {f : Json → Json} {items : List Json} :
    itemsEq items (items.map f) = true ↔
      ∀ item ∈ items, item.pyEq (f item) = true := by
  induction items with
  | nil => simp [itemsEq]
  | cons item rest induction =>
      rw [List.map_cons, itemsEq, Bool.and_eq_true, List.forall_mem_cons,
        induction]

theorem fieldsEq_iff {fields others : Dict} :
    fieldsEq fields others = true ↔ ∀ field ∈ fields, ∃ value,
      others.find field.1 = some value ∧ field.2.pyEq value = true := by
  induction fields with
  | nil => simp [fieldsEq]
  | cons field rest induction =>
      obtain ⟨key, value⟩ := field
      rw [fieldsEq, Bool.and_eq_true, List.forall_mem_cons, induction,
        fieldEq, Option.any_eq_true]

/-- With keys that come back, the fields come back in the order of their
keys. -/
theorem reloaded_obj {reads : Text → Text} {fields : Dict}
    (distinct : (fields.map (·.1)).Nodup)
    (kept : ∀ field ∈ fields, reads field.1 = field.1) :
    reloaded reads (.obj fields) = .obj
      ((fields.map fun field =>
        (field.1, reloaded reads field.2)).insertionSort KeyBefore) := by
  let values := fields.map fun field => (field.1, reloaded reads field.2)
  have keys : ((values.insertionSort KeyBefore).map (·.1)).Nodup := by
    have permuted := (List.perm_insertionSort KeyBefore values).map (·.1)
    rw [permuted.nodup_iff, List.map_map]
    exact distinct
  have same : (values.insertionSort KeyBefore).map
      (fun field => (reads field.1, field.2)) =
        values.insertionSort KeyBefore := by
    refine (List.map_congr_left ?_).trans (List.map_id _)
    intro field member
    rw [List.mem_insertionSort] at member
    obtain ⟨original, listed, rfl⟩ := List.mem_map.mp member
    dsimp only
    rw [kept original listed]
    rfl
  rw [reloaded, reloadedFields_eq, same, dictOf_nodup keys]

/-- A dict equals what is read of it if its keys come back and its values
do. -/
theorem pyEq_reloaded_obj {fields : Dict}
    (distinct : (fields.map (·.1)).Nodup) :
    (Json.obj fields).pyEq (reloaded Python.rejoined (.obj fields)) = true ↔
      ∀ field ∈ fields, Unpaired field.1 ∧
        field.2.pyEq (reloaded Python.rejoined field.2) = true := by
  have keys : ∀ key, key ∈ fields.map (·.1) ↔
      ∃ field ∈ fields, field.1 = key := fun _ => List.mem_map
  by_cases unpaired : ∀ field ∈ fields, Unpaired field.1
  · have kept : ∀ field ∈ fields, Python.rejoined field.1 = field.1 :=
      fun field member => (rejoined_eq_iff _).mpr (unpaired field member)
    rw [reloaded_obj distinct kept, pyEq, Bool.and_eq_true,
      List.length_insertionSort, List.length_map, fieldsEq_iff]
    simp only [beq_self_eq_true, true_and, Dict.find_insertionSort]
    refine forall₂_congr fun field member => ?_
    have listed : (field.1, reloaded Python.rejoined field.2) ∈ fields.map
        fun field => (field.1, reloaded Python.rejoined field.2) :=
      List.mem_map_of_mem member
    have nodup : ((fields.map fun field =>
        (field.1, reloaded Python.rejoined field.2)).map (·.1)).Nodup := by
      rw [List.map_map]
      exact distinct
    rw [find_of_mem nodup listed]
    simp [unpaired field member]
  · refine iff_of_false ?_ ?_
    · intro same
      rw [reloaded, pyEq, Bool.and_eq_true, fieldsEq_iff] at same
      apply unpaired
      intro field member
      obtain ⟨value, found, _⟩ := same.2 field member
      obtain ⟨member', listed, isKey⟩ :=
        List.mem_map.mp (dictOf_keys
          (List.mem_map_of_mem (Dict.find_mem found)))
      obtain ⟨original, _, rfl⟩ := List.mem_map.mp listed
      rw [← isKey]
      exact unpaired_rejoined original.1
    · exact fun each => unpaired fun field member => (each field member).1

/-- **A value equals what is read of it** exactly if all of it survives. -/
theorem pyEq_reloaded {value : Json} (distinct : value.DistinctKeys) :
    value.pyEq (reloaded Python.rejoined value) = true ↔ Survives value := by
  induction distinct with
  | null => simp [reloaded, pyEq, Survives]
  | bool value => simp [reloaded, pyEq, numberEq, Survives]
  | int value => simp [reloaded, pyEq, numberEq, Survives]
  | float value =>
      simp only [reloaded, pyEq, numberEq, Survives]
      by_cases isNaN : value.isNaN = true
      · rw [if_pos isNaN]
        refine iff_of_false ?_ fun none =>
          Bool.false_ne_true (none.symm.trans isNaN)
        intro same
        have number := isNumber_iff.mp (isNumber_of_beq same).1
        rw [isNaN] at number
        cases number
      · rw [if_neg isNaN, float_beq_self]
  | str value =>
      rw [reloaded, pyEq_str_left, Json.str.injEq, Survives, rejoined_eq_iff]
  | arr items _ induction =>
      rw [reloaded, reloadedItems_eq, pyEq, itemsEq_map, Survives,
        survivesItems_iff]
      exact forall₂_congr induction
  | obj fields nodup _ induction =>
      rw [pyEq_reloaded_obj nodup, Survives, survivesFields_iff]
      exact forall₂_congr fun field member =>
        and_congr_right fun _ => induction field member

end Json

end Python
