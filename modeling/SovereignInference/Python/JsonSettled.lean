import SovereignInference.Python.JsonSurvival

/-!
# Strings that come back

What is read of a written value differs from the value in the order of keys at
most, exactly if no string and no key has a high surrogate before a low one.
-/

namespace Python

namespace Json

mutual

/-- The strings and the keys of a value. -/
def strings : Json → List Text
  | .str s => [s]
  | .arr items => stringsItems items
  | .obj fields => stringsFields fields
  | _ => []

def stringsItems : List Json → List Text
  | [] => []
  | item :: rest => item.strings ++ stringsItems rest

def stringsFields : List (Text × Json) → List Text
  | [] => []
  | field :: rest => stringsField field ++ stringsFields rest

def stringsField : Text × Json → List Text
  | (key, value) => key :: value.strings

end

/-- A value up to the order of its keys, with the one NaN of `json`. -/
def settled (value : Json) : Json := value.reloaded id

theorem forall_strings_arr {Q : Text → Prop} {items : List Json} :
    (∀ s ∈ strings (.arr items), Q s) ↔
      ∀ item ∈ items, ∀ s ∈ item.strings, Q s := by
  rw [strings]
  induction items with
  | nil => simp [stringsItems]
  | cons item rest induction =>
      rw [stringsItems, List.forall_mem_append, List.forall_mem_cons,
        induction]

theorem forall_strings_obj {Q : Text → Prop} {fields : Dict} :
    (∀ s ∈ strings (.obj fields), Q s) ↔
      ∀ field ∈ fields, Q field.1 ∧ ∀ s ∈ field.2.strings, Q s := by
  rw [strings]
  induction fields with
  | nil => simp [stringsFields]
  | cons field rest induction =>
      rw [stringsFields, List.forall_mem_append, List.forall_mem_cons,
        induction, stringsField, List.forall_mem_cons]

theorem settled_arr (items : List Json) :
    settled (.arr items) = .arr (items.map settled) := by
  rw [settled, reloaded, reloadedItems_eq]
  rfl

theorem settled_obj {fields : Dict} (distinct : (fields.map (·.1)).Nodup) :
    settled (.obj fields) = .obj ((fields.map fun field =>
      (field.1, field.2.settled)).insertionSort KeyBefore) :=
  reloaded_obj distinct fun _ _ => rfl

/-- Sorting the keys changes nothing. -/
theorem settled_insertionSort {fields : Dict}
    (distinct : (fields.map (·.1)).Nodup) :
    settled (.obj (fields.insertionSort KeyBefore)) =
      settled (.obj fields) := by
  have permuted := (List.perm_insertionSort KeyBefore fields).map (·.1)
  have sorts := List.map_insertionSort KeyBefore KeyBefore
    (fun field : Text × Json => (field.1, settled field.2)) fields
    fun _ _ _ _ => Iff.rfl
  rw [settled_obj (permuted.nodup_iff.mpr distinct), settled_obj distinct,
    sorts, (List.pairwise_insertionSort KeyBefore _).insertionSort_eq]

/-- Changing the values of a dict leaves it as it is exactly if it leaves each
of them. -/
theorem settled_map_iff {fields : Dict} (distinct : (fields.map (·.1)).Nodup)
    (f : Json → Json) :
    settled (.obj (fields.map fun field => (field.1, f field.2))) =
        settled (.obj fields) ↔
      ∀ field ∈ fields, settled (f field.2) = settled field.2 := by
  have keys : ∀ g : Json → Json,
      ((fields.map fun field => (field.1, g field.2)).map (·.1)).Nodup := by
    intro g
    rw [List.map_map]
    exact distinct
  rw [settled_obj (keys f), settled_obj distinct, List.map_map]
  constructor
  · intro same field member
    have found : ∀ g : Json → Json, Dict.find
        ((fields.map fun field => (field.1, g field.2)).insertionSort
          KeyBefore) field.1 = some (g field.2) := by
      intro g
      have listed : (field.1, g field.2) ∈
          fields.map fun field => (field.1, g field.2) :=
        List.mem_map_of_mem member
      rw [Dict.find_insertionSort, find_of_mem (keys g) listed]
    have changed := found (settled ∘ f)
    have same' := Json.obj.inj same
    change List.insertionSort KeyBefore (fields.map fun field =>
      (field.1, (settled ∘ f) field.2)) = _ at same'
    rw [same', found settled] at changed
    exact (Option.some.inj changed).symm
  · intro each
    congr 2
    refine List.map_congr_left fun field member => ?_
    exact congrArg (Prod.mk field.1) (each field member)

/-- A dict comes back only with keys that come back. -/
theorem unpaired_of_settled {fields : Dict}
    (distinct : (fields.map (·.1)).Nodup)
    (same : settled (reloaded Python.rejoined (.obj fields)) =
      settled (.obj fields)) :
    ∀ field ∈ fields, Unpaired field.1 := by
  intro field member
  rw [settled_obj distinct, reloaded, settled, reloaded, reloadedFields_eq]
    at same
  have listed : (field.1, settled field.2) ∈ (fields.map fun field =>
      (field.1, settled field.2)).insertionSort KeyBefore :=
    (List.mem_insertionSort _).mpr
      (List.mem_map_of_mem (f := fun field => (field.1, settled field.2))
        member)
  rw [← Json.obj.inj same] at listed
  have known := dictOf_keys (List.mem_map_of_mem (f := Prod.fst) listed)
  obtain ⟨_, listed', isKey⟩ := List.mem_map.mp known
  obtain ⟨_, sorted, rfl⟩ := List.mem_map.mp listed'
  obtain ⟨inner, isInner, rfl⟩ :=
    List.mem_map.mp ((List.mem_insertionSort _).mp sorted)
  have known' := dictOf_keys (List.mem_map_of_mem (f := Prod.fst) isInner)
  obtain ⟨_, listed'', isKey'⟩ := List.mem_map.mp known'
  obtain ⟨original, _, rfl⟩ := List.mem_map.mp listed''
  dsimp only [id] at isKey isKey'
  rw [← isKey, ← isKey']
  exact unpaired_rejoined original.1

/-- A dict comes back if its keys come back and its values do. -/
theorem settled_reloaded_obj {fields : Dict}
    (distinct : (fields.map (·.1)).Nodup) :
    settled (reloaded Python.rejoined (.obj fields)) = settled (.obj fields) ↔
      ∀ field ∈ fields, Unpaired field.1 ∧
        settled (reloaded Python.rejoined field.2) = settled field.2 := by
  have keys : ((fields.map fun field =>
      (field.1, reloaded Python.rejoined field.2)).map (·.1)).Nodup := by
    rw [List.map_map]
    exact distinct
  have settles (unpaired : ∀ field ∈ fields, Unpaired field.1) :
      settled (reloaded Python.rejoined (.obj fields)) =
          settled (.obj fields) ↔
        ∀ field ∈ fields,
          settled (reloaded Python.rejoined field.2) = settled field.2 := by
    have kept : ∀ field ∈ fields, Python.rejoined field.1 = field.1 :=
      fun field member => (rejoined_eq_iff _).mpr (unpaired field member)
    rw [reloaded_obj distinct kept, settled_insertionSort keys,
      settled_map_iff distinct]
  constructor
  · intro same
    have unpaired := unpaired_of_settled distinct same
    exact fun field member =>
      ⟨unpaired field member, (settles unpaired).mp same field member⟩
  · intro each
    exact (settles fun field member => (each field member).1).mpr
      fun field member => (each field member).2

/-- **A value comes back**, up to the order of its keys, exactly if all of its
strings do. -/
theorem settled_reloaded_iff {value : Json} (distinct : value.DistinctKeys) :
    settled (reloaded Python.rejoined value) = settled value ↔
      ∀ s ∈ value.strings, Unpaired s := by
  induction distinct with
  | null => simp [reloaded, strings]
  | bool value => simp [reloaded, strings]
  | int value => simp [reloaded, strings]
  | float value =>
      refine iff_of_true ?_ (by simp [strings])
      simp only [settled, reloaded]
      split_ifs <;> simp_all
  | str value =>
      simp only [settled, reloaded, id, Json.str.injEq, strings,
        List.forall_mem_singleton]
      exact rejoined_eq_iff value
  | arr items _ induction =>
      rw [reloaded, reloadedItems_eq, settled_arr, settled_arr, List.map_map,
        Json.arr.injEq, List.map_inj_left, forall_strings_arr]
      exact forall₂_congr induction
  | obj fields nodup _ induction =>
      rw [settled_reloaded_obj nodup, forall_strings_obj]
      exact forall₂_congr fun field member =>
        and_congr_right fun _ => induction field member

end Json

end Python
