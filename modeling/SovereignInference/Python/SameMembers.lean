import SovereignInference.Python.JsonEncoding
import SovereignInference.Python.JsonSurvival

/-!
# Values up to the order of members

Two values are the same up to the order of the members of their objects if
their objects have the same values under the same keys.  Among values without
repeated keys, the ones with sorted keys represent them.
-/

namespace Python

namespace Json

/-- Equal up to the order of the members of objects, at every depth. -/
inductive SameMembers : Json → Json → Prop where
  | null : SameMembers .null .null
  | bool (value : Bool) : SameMembers (.bool value) (.bool value)
  | int (value : Int) : SameMembers (.int value) (.int value)
  | float (value : Float) : SameMembers (.float value) (.float value)
  | str (value : Text) : SameMembers (.str value) (.str value)
  | arr {items others : List Json} : items.length = others.length →
      (∀ (place : Nat) item other, items[place]? = some item →
        others[place]? = some other → SameMembers item other) →
      SameMembers (.arr items) (.arr others)
  | obj {fields others : Dict} :
      (∀ key, (fields.find key).isSome = (others.find key).isSome) →
      (∀ key value other, fields.find key = some value →
        others.find key = some other → SameMembers value other) →
      SameMembers (.obj fields) (.obj others)

theorem SameMembers.symm {value other : Json}
    (same : SameMembers value other) : SameMembers other value := by
  induction same with
  | null => exact .null
  | bool value => exact .bool value
  | int value => exact .int value
  | float value => exact .float value
  | str value => exact .str value
  | arr length _ induction =>
      exact .arr length.symm fun place item other isItem isOther =>
        induction place other item isOther isItem
  | obj known _ induction =>
      exact .obj (fun key => (known key).symm)
        fun key value other found found' =>
          induction key other value found' found

theorem sorted_keys_nodup {fields : Dict}
    (distinct : (fields.map (·.1)).Nodup) :
    (fields.sorted.map (·.1)).Nodup := by
  have permuted := (List.perm_insertionSort KeyBefore
    (fields.map fun field => (field.1, field.2.sorted))).map (·.1)
  unfold Dict.sorted
  rw [permuted.nodup_iff, List.map_map]
  exact distinct

theorem mem_iff_find {fields : Dict} (distinct : (fields.map (·.1)).Nodup)
    (field : Text × Json) :
    field ∈ fields ↔ fields.find field.1 = some field.2 :=
  ⟨find_of_mem distinct, Dict.find_mem⟩

/-- Sorted dicts with the same values under the same keys are equal. -/
theorem sorted_ext {fields others : Dict}
    (distinct : (fields.map (·.1)).Nodup)
    (distinct' : (others.map (·.1)).Nodup)
    (same : ∀ key, fields.sorted.find key = others.sorted.find key) :
    fields.sorted = others.sorted := by
  have nodup := sorted_keys_nodup distinct
  have nodup' := sorted_keys_nodup distinct'
  have members : ∀ field, field ∈ fields.sorted ↔ field ∈ others.sorted := by
    intro field
    rw [mem_iff_find nodup, mem_iff_find nodup', same]
  have permuted : fields.sorted.Perm others.sorted :=
    (List.perm_ext_iff_of_nodup (List.Nodup.of_map _ nodup)
      (List.Nodup.of_map _ nodup')).mpr members
  apply permuted.eq_of_pairwise _
    (List.pairwise_insertionSort KeyBefore _)
    (List.pairwise_insertionSort KeyBefore _)
  intro a b inFields inOthers before after
  have sameKey : a.1 = b.1 := le_antisymm before after
  have first := (mem_iff_find nodup' a).mp ((members a).mp inFields)
  have second := (mem_iff_find nodup' b).mp inOthers
  rw [sameKey, second] at first
  exact Prod.ext sameKey (Option.some.inj first).symm

/-- A dict with these keys. -/
theorem distinct_obj {fields : Dict} (keys : List String)
    (named : fields.map (·.1) = keys.map text)
    (nodup : (keys.map text).Nodup)
    (each : ∀ field ∈ fields, field.2.DistinctKeys) :
    (Json.obj fields).DistinctKeys :=
  .obj fields (by rwa [named]) each

theorem DistinctKeys.of_find {fields : Dict}
    (distinct : (Json.obj fields).DistinctKeys) {key : Text} {value : Json}
    (found : fields.find key = some value) : value.DistinctKeys := by
  cases distinct with
  | obj _ _ each => exact each _ (Dict.find_mem found)

theorem DistinctKeys.sorted {value : Json} (distinct : value.DistinctKeys) :
    value.sorted.DistinctKeys := by
  induction distinct with
  | null => exact .null
  | bool value => exact .bool value
  | int value => exact .int value
  | float value => exact .float value
  | str value => exact .str value
  | arr items _ induction =>
      rw [Json.sorted, sortedItems_eq]
      refine .arr _ ?_
      rw [List.forall_mem_map]
      exact induction
  | obj fields nodup _ induction =>
      rw [Dict.sorted_obj]
      refine .obj _ (sorted_keys_nodup nodup) ?_
      intro field member
      obtain ⟨other, isField, rfl⟩ :=
        List.mem_map.mp ((List.mem_insertionSort _).mp member)
      exact induction other isField

theorem SameMembers.sorted_eq {value other : Json}
    (same : SameMembers value other) (distinct : value.DistinctKeys)
    (distinct' : other.DistinctKeys) : value.sorted = other.sorted := by
  induction same with
  | null => rfl
  | bool value => rfl
  | int value => rfl
  | float value => rfl
  | str value => rfl
  | @arr items others length _ induction =>
      cases distinct with
      | arr _ each =>
          cases distinct' with
          | arr _ each' =>
              rw [sorted, sorted, sortedItems_eq, sortedItems_eq]
              congr 1
              apply List.ext_getElem
              · rw [List.length_map, List.length_map, length]
              · intro place inside inside'
                rw [List.length_map] at inside inside'
                rw [List.getElem_map, List.getElem_map]
                exact induction place _ _ (List.getElem?_eq_getElem inside)
                  (List.getElem?_eq_getElem inside')
                  (each _ (List.getElem_mem inside))
                  (each' _ (List.getElem_mem inside'))
  | @obj fields others known _ induction =>
      have values := @DistinctKeys.of_find fields distinct
      have values' := @DistinctKeys.of_find others distinct'
      cases distinct with
      | obj _ nodup _ =>
          cases distinct' with
          | obj _ nodup' _ =>
              rw [Dict.sorted_obj, Dict.sorted_obj]
              congr 1
              apply sorted_ext nodup nodup'
              intro key
              rw [Dict.find_sorted, Dict.find_sorted]
              have both := known key
              cases found : fields.find key with
              | none =>
                  rw [found] at both
                  have absent : others.find key = none := by
                    rw [← Option.isNone_iff_eq_none,
                      ← Option.isSome_eq_false_iff]
                    exact both.symm
                  rw [absent]
              | some value =>
                  rw [found] at both
                  obtain ⟨other, found'⟩ :=
                    Option.isSome_iff_exists.mp both.symm
                  rw [found']
                  exact congrArg some (induction key value other found found'
                    (values found) (values' found'))

theorem SameMembers.of_sorted {value other : Json}
    (distinct : value.DistinctKeys) (same : value.sorted = other.sorted) :
    SameMembers value other := by
  induction distinct generalizing other with
  | null =>
      cases other with
      | null => exact .null
      | _ => simp [sorted] at same
  | bool value =>
      cases other with
      | bool other =>
          cases same
          exact .bool value
      | _ => simp [sorted] at same
  | int value =>
      cases other with
      | int other =>
          cases same
          exact .int value
      | _ => simp [sorted] at same
  | float value =>
      cases other with
      | float other =>
          cases same
          exact .float value
      | _ => simp [sorted] at same
  | str value =>
      cases other with
      | str other =>
          cases same
          exact .str value
      | _ => simp [sorted] at same
  | arr items _ induction =>
      cases other with
      | arr others =>
          rw [sorted, sorted, sortedItems_eq, sortedItems_eq,
            Json.arr.injEq] at same
          refine .arr (by simpa using congrArg List.length same) ?_
          intro place item other isItem isOther
          apply induction item (List.mem_of_getElem? isItem)
          have places := congrArg (fun values => values[place]?) same
          simpa [isItem, isOther] using places
      | _ => simp [sorted] at same
  | obj fields _ _ induction =>
      cases other with
      | obj others =>
          rw [Dict.sorted_obj, Dict.sorted_obj, Json.obj.injEq] at same
          have found : ∀ key, (Dict.find fields key).map sorted =
              (Dict.find others key).map sorted := by
            intro key
            rw [← Dict.find_sorted, ← Dict.find_sorted, same]
          refine .obj ?_ ?_
          · intro key
            simpa using congrArg Option.isSome (found key)
          · intro key value other isValue isOther
            apply induction (key, value) (Dict.find_mem isValue)
            have values := found key
            rw [isValue, isOther] at values
            exact Option.some.inj values
      | _ => simp [sorted] at same

/-- **Values are the same up to the order of members** exactly if they are
equal once their keys are sorted. -/
theorem sameMembers_iff {value other : Json}
    (distinct : value.DistinctKeys) (distinct' : other.DistinctKeys) :
    SameMembers value other ↔ value.sorted = other.sorted :=
  ⟨fun same => same.sorted_eq distinct distinct', .of_sorted distinct⟩

/-- Fields that are both missing, or have the same value. -/
def SameField : Option Json → Option Json → Prop
  | none, none => True
  | some value, some other => SameMembers value other
  | _, _ => False

/-- Dicts are the same if their fields are. -/
theorem sameMembers_obj {fields others : Dict} :
    SameMembers (.obj fields) (.obj others) ↔
      ∀ key, SameField (fields.find key) (others.find key) := by
  constructor
  · intro same key
    cases same with
    | obj known values =>
        have both := known key
        have each := values key
        cases found : Dict.find fields key with
        | none =>
            cases found' : Dict.find others key with
            | none => trivial
            | some other => simp [found, found'] at both
        | some value =>
            cases found' : Dict.find others key with
            | none => simp [found, found'] at both
            | some other => exact each value other found found'
  · intro each
    refine .obj ?_ ?_
    · intro key
      have field := each key
      cases found : Dict.find fields key with
      | none =>
          cases found' : Dict.find others key with
          | none => rfl
          | some other => simp [found, found', SameField] at field
      | some value =>
          cases found' : Dict.find others key with
          | none => simp [found, found', SameField] at field
          | some other => rfl
    · intro key value other found found'
      have field := each key
      rwa [found, found'] at field

theorem SameMembers.refl {value : Json} (distinct : value.DistinctKeys) :
    SameMembers value value :=
  .of_sorted distinct rfl

/-- The members of an object in another order. -/
theorem sameMembers_of_perm {fields others : Dict}
    (distinct : (Json.obj fields).DistinctKeys)
    (permuted : fields.Perm others) :
    (Json.obj others).DistinctKeys ∧
      SameMembers (.obj fields) (.obj others) := by
  have nodup : (fields.map (·.1)).Nodup := by
    cases distinct with
    | obj _ nodup _ => exact nodup
  have nodup' := (permuted.map (·.1)).nodup_iff.mp nodup
  have sameFind : ∀ key, fields.find key = others.find key := by
    intro key
    apply Option.ext
    intro value
    rw [← mem_iff_find nodup (key, value), permuted.mem_iff]
    exact mem_iff_find nodup' (key, value)
  constructor
  · cases distinct with
    | obj _ _ each =>
        exact .obj others nodup' fun field member =>
          each field (permuted.mem_iff.mpr member)
  · refine sameMembers_obj.mpr fun key => ?_
    rw [← sameFind]
    cases found : fields.find key with
    | none => trivial
    | some value => exact .refl (distinct.of_find found)

/-- Only clean values are the same as clean ones. -/
theorem SameMembers.clean {value other : Json}
    (same : SameMembers value other) (distinct : other.DistinctKeys)
    (isClean : value.Clean) : other.Clean := by
  induction same with
  | null => exact isClean
  | bool value => exact isClean
  | int value => exact isClean
  | float value => exact isClean
  | str value => exact isClean
  | @arr items others length _ induction =>
      cases distinct with
      | arr _ each =>
          rw [clean_arr] at isClean ⊢
          intro other member
          obtain ⟨place, inside, rfl⟩ := List.getElem_of_mem member
          rw [← length] at inside
          exact induction place _ _ (List.getElem?_eq_getElem inside)
            (List.getElem?_eq_getElem _) (each _ member)
            (isClean _ (List.getElem_mem inside))
  | @obj fields others known _ induction =>
      cases distinct with
      | obj _ nodup each =>
          rw [clean_obj] at isClean ⊢
          intro field member
          have found := find_of_mem nodup member
          have both := known field.1
          rw [found] at both
          obtain ⟨value, found'⟩ := Option.isSome_iff_exists.mp both
          have clean := isClean _ (Dict.find_mem found')
          exact ⟨clean.1, induction field.1 value field.2 found' found
            (each field member) clean.2⟩

mutual

/-- Whether no object repeats a key. -/
def hasDistinctKeys : Json → Bool
  | .arr items => itemsDistinct items
  | .obj fields => decide (fields.map (·.1)).Nodup && fieldsDistinct fields
  | _ => true

def itemsDistinct : List Json → Bool
  | [] => true
  | item :: rest => hasDistinctKeys item && itemsDistinct rest

def fieldsDistinct : List (Text × Json) → Bool
  | [] => true
  | field :: rest => fieldDistinct field && fieldsDistinct rest

def fieldDistinct : Text × Json → Bool
  | (_, value) => hasDistinctKeys value

end

theorem itemsDistinct_eq (items : List Json) :
    itemsDistinct items = items.all hasDistinctKeys := by
  induction items with
  | nil => rfl
  | cons item rest induction => rw [itemsDistinct, induction, List.all_cons]

private theorem fieldsDistinct_eq (fields : Dict) :
    fieldsDistinct fields = fields.all fun field => field.2.hasDistinctKeys := by
  induction fields with
  | nil => rfl
  | cons field rest induction =>
      obtain ⟨key, value⟩ := field
      rw [fieldsDistinct, induction, List.all_cons, fieldDistinct]

theorem DistinctKeys.decided {value : Json} (distinct : value.DistinctKeys) :
    value.hasDistinctKeys = true := by
  induction distinct with
  | arr items _ induction =>
      rw [hasDistinctKeys, itemsDistinct_eq, List.all_eq_true]
      exact induction
  | obj fields nodup _ induction =>
      rw [hasDistinctKeys, fieldsDistinct_eq, Bool.and_eq_true,
        List.all_eq_true]
      exact ⟨decide_eq_true nodup, induction⟩
  | _ => rfl

mutual

theorem distinctKeys_of : (value : Json) →
    value.hasDistinctKeys = true → value.DistinctKeys
  | .null, _ => .null
  | .bool value, _ => .bool value
  | .int value, _ => .int value
  | .float value, _ => .float value
  | .str value, _ => .str value
  | .arr items, distinct => .arr items (itemsDistinct_of items distinct)
  | .obj fields, distinct =>
      .obj fields (of_decide_eq_true (Bool.and_eq_true_iff.mp distinct).1)
        (fieldsDistinct_of fields (Bool.and_eq_true_iff.mp distinct).2)

theorem itemsDistinct_of : (items : List Json) →
    itemsDistinct items = true → ∀ item ∈ items, item.DistinctKeys
  | [], _ => List.forall_mem_nil _
  | item :: rest, distinct => List.forall_mem_cons.mpr
      ⟨distinctKeys_of item (Bool.and_eq_true_iff.mp distinct).1,
        itemsDistinct_of rest (Bool.and_eq_true_iff.mp distinct).2⟩

theorem fieldsDistinct_of : (fields : List (Text × Json)) →
    fieldsDistinct fields = true → ∀ field ∈ fields, field.2.DistinctKeys
  | [], _ => List.forall_mem_nil _
  | field :: rest, distinct => List.forall_mem_cons.mpr
      ⟨fieldDistinct_of field (Bool.and_eq_true_iff.mp distinct).1,
        fieldsDistinct_of rest (Bool.and_eq_true_iff.mp distinct).2⟩

theorem fieldDistinct_of : (field : Text × Json) →
    fieldDistinct field = true → field.2.DistinctKeys
  | (_, value), distinct => distinctKeys_of value distinct

end

instance (value : Json) : Decidable value.DistinctKeys :=
  decidable_of_iff _ ⟨distinctKeys_of value, DistinctKeys.decided⟩

instance (value : Json) : Decidable value.Clean :=
  decidable_of_iff ((dumpBytes false value).isOk = true) (by
    rw [← dumpBytes_isOk false value]
    cases dumpBytes false value <;> simp [Except.isOk, Except.toBool])

end Json

end Python
