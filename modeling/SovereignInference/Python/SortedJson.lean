import SovereignInference.Collections.StableSort
import SovereignInference.Python.Json
import Mathlib.Data.List.Lex

/-!
# Dicts up to the order of their keys

`json.dumps` with `sort_keys` writes the fields of every dict in the order of
their keys.  Reading the text back gives the same value but for that order,
and looking up a key does not depend on it.
-/

namespace Python

open Collections

/-- Fields in the order of their keys. -/
def KeyBefore (a b : Text × Json) : Prop := a.1 ≤ b.1

instance : DecidableRel KeyBefore :=
  fun a b => inferInstanceAs (Decidable (a.1 ≤ b.1))

instance : Std.Total KeyBefore := ⟨fun a b => le_total a.1 b.1⟩

instance : IsTrans (Text × Json) KeyBefore :=
  ⟨fun _ _ _ first second => le_trans (α := Text) first second⟩

namespace Json

mutual

/-- `json.loads` of what `json.dumps` writes with `sort_keys`. -/
def sorted : Json → Json
  | .arr items => .arr (sortedItems items)
  | .obj fields => .obj ((sortedFields fields).insertionSort KeyBefore)
  | value => value

def sortedItems : List Json → List Json
  | [] => []
  | item :: rest => item.sorted :: sortedItems rest

def sortedFields : List (Text × Json) → List (Text × Json)
  | [] => []
  | field :: rest => sortedField field :: sortedFields rest

def sortedField : Text × Json → Text × Json
  | (key, value) => (key, value.sorted)

end

theorem sortedItems_eq (items : List Json) :
    sortedItems items = items.map sorted := by
  induction items with
  | nil => rfl
  | cons item rest induction => simp [sortedItems, induction]

theorem sortedFields_eq (fields : Dict) :
    sortedFields fields = fields.map fun field => (field.1, field.2.sorted) := by
  induction fields with
  | nil => rfl
  | cons field rest induction =>
      obtain ⟨key, value⟩ := field
      simp [sortedFields, sortedField, induction]

/-- Sorting the values of the fields leaves the keys where they are. -/
theorem sortedFields_insertionSort (fields : Dict) :
    sortedFields (fields.insertionSort KeyBefore) =
      (sortedFields fields).insertionSort KeyBefore := by
  rw [sortedFields_eq, sortedFields_eq]
  exact List.map_insertionSort _ _ _ _ fun _ _ _ _ => Iff.rfl

mutual

/-- Sorting again changes nothing. -/
theorem sorted_sorted : (value : Json) → value.sorted.sorted = value.sorted
  | .null => rfl
  | .bool _ => rfl
  | .int _ => rfl
  | .float _ => rfl
  | .str _ => rfl
  | .arr items => by
      simp only [sorted]
      rw [sortedItems_sorted items]
  | .obj fields => by
      simp only [sorted]
      rw [sortedFields_insertionSort, sortedFields_sorted fields,
        (List.pairwise_insertionSort KeyBefore _).insertionSort_eq]

theorem sortedItems_sorted : (items : List Json) →
    sortedItems (sortedItems items) = sortedItems items
  | [] => rfl
  | item :: rest => by
      simp only [sortedItems]
      rw [sorted_sorted item, sortedItems_sorted rest]

theorem sortedFields_sorted : (fields : List (Text × Json)) →
    sortedFields (sortedFields fields) = sortedFields fields
  | [] => rfl
  | field :: rest => by
      simp only [sortedFields]
      rw [sortedField_sorted field, sortedFields_sorted rest]

theorem sortedField_sorted : (field : Text × Json) →
    sortedField (sortedField field) = sortedField field
  | (key, value) => by
      simp only [sortedField]
      rw [sorted_sorted value]

end

end Json

namespace Dict

/-- A dict in the order of its keys, and so are those inside it. -/
def sorted (fields : Dict) : Dict :=
  (fields.map fun field => (field.1, field.2.sorted)).insertionSort KeyBefore

theorem sorted_obj (fields : Dict) :
    (Json.obj fields).sorted = .obj fields.sorted := by
  rw [Json.sorted, Json.sortedFields_eq]
  rfl

theorem sorted_sorted (fields : Dict) :
    fields.sorted.sorted = fields.sorted := by
  have twice := Json.sorted_sorted (.obj fields)
  rw [sorted_obj, sorted_obj] at twice
  exact Json.obj.inj twice

/-- The first field of a key stays the first. -/
theorem find_insertionSort (fields : Dict) (key : Text) :
    find (fields.insertionSort KeyBefore) key = fields.find key := by
  have alike : ∀ a ∈ fields.filter (·.1 = key), a.1 = key := fun a member =>
    of_decide_eq_true (List.mem_filter.mp member).2
  have ordered : (fields.filter (·.1 = key)).Pairwise KeyBefore := by
    apply List.pairwise_of_forall_mem_list
    intro a inA b inB
    exact (alike a inA).trans_le (alike b inB).ge
  have kept : (fields.insertionSort KeyBefore).filter (·.1 = key) =
      fields.filter (·.1 = key) := by
    rw [filter_insertionSort, ordered.insertionSort_eq]
  unfold find
  rw [← List.head?_filter, ← List.head?_filter, kept]

theorem find_sorted (fields : Dict) (key : Text) :
    fields.sorted.find key = (fields.find key).map Json.sorted := by
  unfold sorted
  rw [find_insertionSort]
  induction fields with
  | nil => rfl
  | cons field rest induction =>
      rw [List.map_cons, find_cons, find_cons]
      split_ifs
      · rfl
      · exact induction

end Dict

end Python
