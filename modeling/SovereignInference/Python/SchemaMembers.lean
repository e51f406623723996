import SovereignInference.Python.SameMembers
import SovereignInference.Python.Schema

/-!
# Schemas and the order of members

A schema sees the members of an object through their keys, so it holds of a
value exactly if it holds of the value with its members in another order.
-/

namespace Python

open Json

section

variable {value other : Json}

theorem Json.SameMembers.holds_eq (same : SameMembers value other)
    (name : TypeName) : name.holds value = name.holds other := by
  cases same with
  | arr _ _ => cases name <;> rfl
  | obj _ _ => cases name <;> rfl
  | _ => rfl

theorem Json.SameMembers.asStr_eq (same : SameMembers value other) :
    value.asStr = other.asStr := by
  cases same <;> rfl

theorem Json.SameMembers.isStr_eq (same : SameMembers value other) (s : Text) :
    value.isStr s = other.isStr s := by
  cases same <;> rfl

theorem Json.SameMembers.atLeast_eq (same : SameMembers value other)
    (bound : Int) :
    Schema.atLeast bound value = Schema.atLeast bound other := by
  cases same <;> rfl

end

theorem find_isSome_iff {fields : Dict} {key : Text} :
    (fields.find key).isSome = true ↔ key ∈ fields.map (·.1) := by
  simp [Dict.find, List.find?_isSome]

/-- Lists with the same items, by their places. -/
theorem all_items {items others : List Json} (check : Json → Bool)
    (length : items.length = others.length)
    (each : ∀ (place : Nat) item other, items[place]? = some item →
      others[place]? = some other → check item = check other) :
    items.all check = others.all check := by
  induction items generalizing others with
  | nil =>
      rw [List.eq_nil_of_length_eq_zero length.symm]
  | cons item rest induction =>
      cases others with
      | nil => cases length
      | cons other others =>
          rw [List.all_cons, List.all_cons, each 0 item other rfl rfl,
            induction (Nat.succ_injective length) fun place =>
              each (place + 1)]

mutual

/-- **A schema sees the members of an object through their keys.** -/
theorem Schema.valid_sameMembers : (schema : Schema) → {value other : Json} →
    SameMembers value other → schema.valid value = schema.valid other
  | .type name, _, _, same => same.holds_eq name
  | .const s, _, _, same => same.isStr_eq s
  | .enum values, _, _, same => by
      unfold Schema.valid
      simp only [same.isStr_eq]
  | .pattern _, _, _, same | .minLength _, _, _, same
  | .maxLength _, _, _, same => by
      unfold Schema.valid
      rw [same.asStr_eq]
  | .minimum bound, _, _, same => same.atLeast_eq bound
  | .minItems bound, _, _, same => by
      cases same with
      | arr length _ =>
          unfold Schema.valid
          simp only [Json.asList, Option.all_some, length]
      | _ => rfl
  | .items schema, _, _, same => by
      cases same with
      | arr length each =>
          unfold Schema.valid
          simp only [Json.asList, Option.all_some]
          exact all_items _ length fun place item other isItem isOther =>
            Schema.valid_sameMembers schema
              (each place item other isItem isOther)
      | _ => rfl
  | .required keys, _, _, same => by
      cases same with
      | obj known _ =>
          unfold Schema.valid
          simp only [Json.asDict, Option.all_some, known]
      | _ => rfl
  | .property key schema, _, _, same => by
      cases same with
      | @obj fields others known each =>
          unfold Schema.valid
          simp only [Json.asDict, Option.all_some]
          have both := known key
          cases found : fields.find key with
          | none =>
              cases found' : others.find key with
              | none => rfl
              | some other => simp [found, found'] at both
          | some value =>
              cases found' : others.find key with
              | none => simp [found, found'] at both
              | some other =>
                  exact Schema.valid_sameMembers schema
                    (each key value other found found')
      | _ => rfl
  | .onlyProperties keys, _, _, same => by
      cases same with
      | @obj fields others known _ =>
          have listed : ∀ fields : Dict,
              (fields.all fun field => keys.contains field.1) = true ↔
                ∀ key, (fields.find key).isSome = true → key ∈ keys := by
            intro fields
            simp only [find_isSome_iff, List.all_eq_true,
              List.contains_iff_mem, List.forall_mem_map]
          unfold Schema.valid
          simp only [Json.asDict, Option.all_some]
          rw [Bool.eq_iff_iff, listed, listed]
          simp only [known]
      | _ => rfl
  | .all schemas, _, _, same => Schema.allValid_sameMembers schemas same

theorem Schema.allValid_sameMembers : (schemas : List Schema) →
    {value other : Json} → SameMembers value other →
      Schema.allValid schemas value = Schema.allValid schemas other
  | [], _, _, _ => rfl
  | schema :: rest, _, _, same => by
      unfold Schema.allValid
      rw [Schema.valid_sameMembers schema same,
        Schema.allValid_sameMembers rest same]

end

end Python
