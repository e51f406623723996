import SovereignInference.Collections.StableSort
import SovereignInference.Python.Json
import Mathlib.Data.List.Lex

/-!
# The order of the members of JSON objects

Two encodings of a value that differ only in the order in which they put the
members of objects are the same text exactly if they put the members of every
object in the same order.
-/

namespace Python

open Effects Collections

namespace Json

/-- The characters that are escaped. -/
def escapedChars : List CodePoint :=
  ((List.range 0x20) ++ [0x22, 0x5C]).map (Fin.ofNat _)

theorem escapeJson_plain {c : CodePoint} (plain : c ∉ escapedChars) :
    escapeJson c = [c] := by
  have member : ∀ n, n < 0x20 ∨ n = 0x22 ∨ n = 0x5C → c.val ≠ n := by
    intro n isEscaped same
    apply plain
    refine List.mem_map.mpr ⟨n, ?_, ?_⟩
    · simpa using isEscaped
    · rw [← same]
      exact Fin.ofNat_val_eq_self c
  have large : ¬ c.val < 0x20 := fun small => member _ (.inl small) rfl
  unfold escapeJson
  split
  case h_8 => rw [if_neg large]
  case h_1 => exact absurd ‹c.val = 0x22› (member _ (.inr (.inl rfl)))
  case h_2 => exact absurd ‹c.val = 0x5C› (member _ (.inr (.inr rfl)))
  all_goals exact absurd ‹c.val = _› (member _ (.inl (by decide)))

theorem escapeJson_escaped : ∀ c ∈ escapedChars,
    (escapeJson c).head? = some 0x5C ∧ ∀ d ∈ escapedChars,
      escapeJson c <+: escapeJson d → c = d := by
  have checked : (escapedChars.all fun c =>
      (escapeJson c).head? == some 0x5C && escapedChars.all fun d =>
        !(escapeJson c).isPrefixOf (escapeJson d) || c == d) = true := by
    decide +kernel
  simpa [← List.isPrefixOf_iff_prefix, imp_iff_not_or] using checked

theorem escapeJson_start (c : CodePoint) :
    ∃ first rest, escapeJson c = first :: rest ∧ first ≠ 0x22 ∧
      (first = 0x5C ↔ c ∈ escapedChars) := by
  by_cases escaped : c ∈ escapedChars
  · obtain ⟨starts, _⟩ := escapeJson_escaped c escaped
    obtain ⟨rest, split⟩ := List.head?_eq_some_iff.mp starts
    exact ⟨_, rest, split, by decide, iff_of_true rfl escaped⟩
  · refine ⟨c, [], escapeJson_plain escaped, ?_, iff_of_false ?_ escaped⟩
    · rintro rfl
      exact escaped (by decide)
    · rintro rfl
      exact escaped (by decide)

private theorem escapeJson_cancel {c d : CodePoint} {later later' : Text}
    (same : escapeJson c ++ later = escapeJson d ++ later') :
    c = d ∧ later = later' := by
  have sameChar : c = d := by
    obtain ⟨first, rest, split, _, escaped⟩ := escapeJson_start c
    obtain ⟨first', rest', split', _, escaped'⟩ := escapeJson_start d
    have sameFirst : first = first' := by
      rw [split, split', List.cons_append, List.cons_append,
        List.cons.injEq] at same
      exact same.1
    by_cases isEscaped : c ∈ escapedChars
    · have isEscaped' : d ∈ escapedChars := by
        rw [← escaped', ← sameFirst, escaped]
        exact isEscaped
      have starts : escapeJson c <+: escapeJson d ++ later' :=
        ⟨later, same⟩
      rcases List.prefix_or_prefix_of_prefix starts
        (List.prefix_append _ _) with before | after
      · exact (escapeJson_escaped c isEscaped).2 d isEscaped' before
      · exact ((escapeJson_escaped d isEscaped').2 c isEscaped after).symm
    · have isPlain : d ∉ escapedChars := by
        rw [← escaped', ← sameFirst, escaped]
        exact isEscaped
      rw [escapeJson_plain isEscaped, escapeJson_plain isPlain] at same
      exact (List.cons.inj same).1
  subst sameChar
  exact ⟨rfl, List.append_cancel_left same⟩

theorem quoteJson_cancel {s t : Text} {later later' : Text}
    (same : quoteJson s ++ later = quoteJson t ++ later') :
    s = t ∧ later = later' := by
  have inner : s.flatMap escapeJson ++ 0x22 :: later =
      t.flatMap escapeJson ++ 0x22 :: later' := by
    unfold quoteJson at same
    simpa using same
  clear same
  induction s generalizing t with
  | nil =>
      cases t with
      | nil => exact ⟨rfl, (List.cons.inj inner).2⟩
      | cons d rest =>
          obtain ⟨first, others, split, notQuote, _⟩ := escapeJson_start d
          rw [List.flatMap_nil, List.flatMap_cons, split] at inner
          exact absurd (List.cons.inj inner).1.symm notQuote
  | cons c rest induction =>
      cases t with
      | nil =>
          obtain ⟨first, others, split, notQuote, _⟩ := escapeJson_start c
          rw [List.flatMap_nil, List.flatMap_cons, split] at inner
          exact absurd (List.cons.inj inner).1 notQuote
      | cons d rest' =>
          rw [List.flatMap_cons, List.flatMap_cons, List.append_assoc,
            List.append_assoc] at inner
          obtain ⟨sameChar, inner⟩ := escapeJson_cancel inner
          obtain ⟨sameRest, sameLater⟩ := induction inner
          exact ⟨by rw [sameChar, sameRest], sameLater⟩

/-- The objects inside a value, the value itself included. -/
inductive HasObject : Json → Dict → Prop where
  | self (fields : Dict) : HasObject (.obj fields) fields
  | item {items : List Json} {item : Json} {object : Dict} :
      item ∈ items → HasObject item object → HasObject (.arr items) object
  | member {fields : Dict} {field : Text × Json} {object : Dict} :
      field ∈ fields → HasObject field.2 object →
        HasObject (.obj fields) object

/-- No object has a key twice. -/
inductive DistinctKeys : Json → Prop where
  | null : DistinctKeys .null
  | bool (value : Bool) : DistinctKeys (.bool value)
  | int (value : Int) : DistinctKeys (.int value)
  | float (value : Float) : DistinctKeys (.float value)
  | str (value : Text) : DistinctKeys (.str value)
  | arr (items : List Json) : (∀ item ∈ items, DistinctKeys item) →
      DistinctKeys (.arr items)
  | obj (fields : Dict) : (fields.map (·.1)).Nodup →
      (∀ field ∈ fields, DistinctKeys field.2) → DistinctKeys (.obj fields)

section

variable {κ : Type} [LinearOrder κ] (key : Text → κ)

mutual

/-- The compact text of a value, with the members of objects in the order of
their keys. -/
def write : Json → Text
  | .null => "null"
  | .bool value => if value then "true" else "false"
  | .int value => intText value
  | .float value => floatRepr value
  | .str value => quoteJson value
  | .arr items => 0x5B :: join [0x2C] (writeItems items) ++ [0x5D]
  | .obj fields =>
      0x7B :: join [0x2C] (((writeFields fields).insertionSort
        fun a b => key a.1 ≤ key b.1).map writeMember) ++ [0x7D]

def writeItems : List Json → List Text
  | [] => []
  | item :: rest => write item :: writeItems rest

def writeFields : List (Text × Json) → List (Text × Text)
  | [] => []
  | field :: rest => writeField field :: writeFields rest

def writeField : Text × Json → Text × Text
  | (key, value) => (key, write value)

end

theorem writeItems_eq (items : List Json) :
    writeItems key items = items.map (write key) := by
  induction items with
  | nil => rfl
  | cons item rest induction => simp [writeItems, induction]

theorem writeFields_eq (fields : Dict) :
    writeFields key fields =
      fields.map fun field => (field.1, write key field.2) := by
  induction fields with
  | nil => rfl
  | cons field rest induction =>
      obtain ⟨name, value⟩ := field
      simp [writeFields, writeField, induction]

/-- The members of an object in the order in which they are written. -/
def ordered (fields : Dict) : Dict :=
  fields.insertionSort fun a b => key a.1 ≤ key b.1

/-- A member as it is written. -/
def writtenField (field : Text × Json) : Text :=
  writeMember (field.1, write key field.2)

theorem write_obj (fields : Dict) :
    write key (.obj fields) = 0x7B ::
      join [0x2C] ((ordered key fields).map (writtenField key)) ++ [0x7D] := by
  unfold write ordered
  have sorts := List.map_insertionSort (fun a b => key a.1 ≤ key b.1)
    (fun a b => key a.1 ≤ key b.1)
    (fun field : Text × Json => (field.1, write key field.2)) fields
    fun _ _ _ _ => Iff.rfl
  rw [writeFields_eq, ← sorts, List.map_map]
  rfl

theorem join_cons (item : Text) (rest : List Text) :
    join [0x2C] (item :: rest) = item ++ rest.flatMap (0x2C :: ·) := by
  induction rest generalizing item with
  | nil => simp [join]
  | cons next rest induction => simp [join, induction]

end

section

variable {κ κ' : Type} [LinearOrder κ] [LinearOrder κ'] {key : Text → κ}
  {key' : Text → κ'}

/-- If two continued encodings of the value are the same, so are the encodings
and what continues them. -/
def Cancels (key : Text → κ) (key' : Text → κ') (value : Json) : Prop :=
  ∀ later later', write key value ++ later = write key' value ++ later' →
    write key value = write key' value ∧ later = later'

theorem cancels_same {value : Json} (same : write key value = write key' value) :
    Cancels key key' value := by
  intro later later' equal
  rw [same] at equal
  exact ⟨same, List.append_cancel_left equal⟩

theorem items_cancel {items : List Json}
    (cancels : ∀ item ∈ items, Cancels key key' item) {later later' : Text}
    (equal : join [0x2C] (items.map (write key)) ++ 0x5D :: later =
      join [0x2C] (items.map (write key')) ++ 0x5D :: later') :
    (∀ item ∈ items, write key item = write key' item) ∧ later = later' := by
  have tails : ∀ rest : List Json, (∀ item ∈ rest, Cancels key key' item) →
      (rest.map (write key)).flatMap (0x2C :: ·) ++ 0x5D :: later =
        (rest.map (write key')).flatMap (0x2C :: ·) ++ 0x5D :: later' →
      (∀ item ∈ rest, write key item = write key' item) ∧ later = later' := by
    intro rest
    induction rest with
    | nil =>
        intro _ equal
        exact ⟨nofun, (List.cons.inj equal).2⟩
    | cons item rest induction =>
        intro cancels equal
        simp only [List.map_cons, List.flatMap_cons, List.cons_append,
          List.append_assoc, List.cons.injEq, true_and] at equal
        obtain ⟨sameItem, equal⟩ := cancels item List.mem_cons_self _ _ equal
        obtain ⟨sameRest, sameLater⟩ := induction
          (fun other member => cancels other (List.mem_cons_of_mem _ member))
          equal
        exact ⟨List.forall_mem_cons.mpr ⟨sameItem, sameRest⟩, sameLater⟩
  cases items with
  | nil => exact ⟨nofun, (List.cons.inj equal).2⟩
  | cons item rest =>
      rw [List.map_cons, List.map_cons, join_cons, join_cons,
        List.append_assoc, List.append_assoc] at equal
      obtain ⟨sameItem, equal⟩ := cancels item List.mem_cons_self _ _ equal
      obtain ⟨sameRest, sameLater⟩ := tails rest
        (fun other member => cancels other (List.mem_cons_of_mem _ member))
        equal
      exact ⟨List.forall_mem_cons.mpr ⟨sameItem, sameRest⟩, sameLater⟩

/-- Members of one object can be told apart by their names. -/
theorem writtenField_cancel {fields : Dict}
    (distinct : (fields.map (·.1)).Nodup)
    (cancels : ∀ field ∈ fields, Cancels key key' field.2)
    {field other : Text × Json} (inFields : field ∈ fields)
    (inFields' : other ∈ fields) {later later' : Text}
    (equal : writtenField key field ++ later =
      writtenField key' other ++ later') :
    field = other ∧ writtenField key field = writtenField key' other ∧
      later = later' := by
  unfold writtenField writeMember at equal ⊢
  simp only [List.append_assoc, List.cons_append] at equal
  obtain ⟨sameName, equal⟩ := quoteJson_cancel equal
  have sameField : field = other :=
    List.inj_on_of_nodup_map distinct inFields inFields' sameName
  subst sameField
  obtain ⟨sameValue, sameLater⟩ :=
    cancels field inFields _ _ (List.cons.inj equal).2
  exact ⟨rfl, by rw [sameValue], sameLater⟩

theorem fields_cancel {fields : Dict} (distinct : (fields.map (·.1)).Nodup)
    (cancels : ∀ field ∈ fields, Cancels key key' field.2)
    {first second : Dict} (within : first ⊆ fields) (within' : second ⊆ fields)
    {later later' : Text}
    (equal : join [0x2C] (first.map (writtenField key)) ++ 0x7D :: later =
      join [0x2C] (second.map (writtenField key')) ++ 0x7D :: later') :
    first = second ∧
      first.map (writtenField key) = second.map (writtenField key') ∧
      later = later' := by
  have notBrace : ∀ {κ : Type} [LinearOrder κ] (key : Text → κ) field,
      ∃ rest, writtenField key field = 0x22 :: rest := by
    intro κ _ key field
    exact ⟨_, rfl⟩
  have tails : ∀ first second : Dict, first ⊆ fields → second ⊆ fields →
      (first.map (writtenField key)).flatMap (0x2C :: ·) ++ 0x7D :: later =
        (second.map (writtenField key')).flatMap (0x2C :: ·) ++
          0x7D :: later' →
      first = second ∧
        first.map (writtenField key) = second.map (writtenField key') ∧
        later = later' := by
    intro first
    induction first with
    | nil =>
        intro second _ _ equal
        cases second with
        | nil => exact ⟨rfl, rfl, (List.cons.inj equal).2⟩
        | cons other rest =>
            exact absurd (List.cons.inj equal).1 (by decide)
    | cons field rest induction =>
        intro second within within' equal
        cases second with
        | nil => exact absurd (List.cons.inj equal).1 (by decide)
        | cons other rest' =>
            simp only [List.map_cons, List.flatMap_cons, List.cons_append,
              List.append_assoc, List.cons.injEq, true_and] at equal
            obtain ⟨sameField, sameText, equal⟩ :=
              writtenField_cancel distinct cancels
                (within List.mem_cons_self) (within' List.mem_cons_self) equal
            obtain ⟨sameRest, sameTexts, sameLater⟩ := induction rest'
              (List.subset_of_cons_subset within)
              (List.subset_of_cons_subset within') equal
            refine ⟨by rw [sameField, sameRest], ?_, sameLater⟩
            rw [List.map_cons, List.map_cons, sameText, sameTexts]
  cases first with
  | nil =>
      cases second with
      | nil => exact ⟨rfl, rfl, (List.cons.inj equal).2⟩
      | cons other rest =>
          obtain ⟨others, starts⟩ := notBrace key' other
          rw [List.map_cons, join_cons, starts] at equal
          exact absurd (List.cons.inj equal).1 (by decide)
  | cons field rest =>
      cases second with
      | nil =>
          obtain ⟨others, starts⟩ := notBrace key field
          rw [List.map_cons, join_cons, starts] at equal
          exact absurd (List.cons.inj equal).1 (by decide)
      | cons other rest' =>
          rw [List.map_cons, List.map_cons, join_cons, join_cons,
            List.append_assoc, List.append_assoc] at equal
          obtain ⟨sameField, sameText, equal⟩ :=
            writtenField_cancel distinct cancels
              (within List.mem_cons_self) (within' List.mem_cons_self) equal
          obtain ⟨sameRest, sameTexts, sameLater⟩ := tails rest rest'
            (List.subset_of_cons_subset within)
            (List.subset_of_cons_subset within') equal
          refine ⟨by rw [sameField, sameRest], ?_, sameLater⟩
          rw [List.map_cons, List.map_cons, sameText, sameTexts]

theorem ordered_subset (key : Text → κ) (fields : Dict) :
    ordered key fields ⊆ fields := fun _ member =>
  (List.mem_insertionSort _).mp member

private theorem cancels_of_distinctKeys {value : Json}
    (distinct : value.DistinctKeys) : Cancels key key' value := by
  induction distinct with
  | null => exact cancels_same rfl
  | bool value => exact cancels_same rfl
  | int value => exact cancels_same rfl
  | float value => exact cancels_same rfl
  | str value => exact cancels_same rfl
  | arr items _ cancels =>
      intro later later' equal
      unfold write at equal ⊢
      simp only [writeItems_eq, List.cons_append, List.append_assoc,
        List.nil_append, List.cons.injEq, true_and] at equal ⊢
      obtain ⟨sameItems, sameLater⟩ := items_cancel cancels equal
      rw [List.map_congr_left sameItems]
      exact ⟨rfl, sameLater⟩
  | obj fields nodup _ cancels =>
      intro later later' equal
      rw [write_obj, write_obj] at equal ⊢
      simp only [List.cons_append, List.append_assoc, List.nil_append,
        List.cons.injEq, true_and] at equal ⊢
      obtain ⟨_, sameTexts, sameLater⟩ := fields_cancel nodup cancels
        (ordered_subset key fields) (ordered_subset key' fields) equal
      rw [sameTexts]
      exact ⟨rfl, sameLater⟩

/-- **Two orders of members** give the same text exactly if they order the
members of every object alike. -/
theorem write_eq_iff {value : Json} (distinct : value.DistinctKeys) :
    write key value = write key' value ↔
      ∀ object, value.HasObject object →
        ordered key object = ordered key' object := by
  induction distinct with
  | null => exact iff_of_true rfl nofun
  | bool value => exact iff_of_true rfl nofun
  | int value => exact iff_of_true rfl nofun
  | float value => exact iff_of_true rfl nofun
  | str value => exact iff_of_true rfl nofun
  | arr items each induction =>
      have cancels : ∀ item ∈ items, Cancels key key' item :=
        fun item member => cancels_of_distinctKeys (each item member)
      constructor
      · intro equal object inside
        cases inside with
        | item member inside =>
            have continued : write key (.arr items) ++ [] =
                write key' (.arr items) ++ [] := by rw [equal]
            unfold write at continued
            simp only [writeItems_eq, List.cons_append, List.append_assoc,
              List.nil_append, List.cons.injEq, true_and] at continued
            obtain ⟨sameItems, _⟩ := items_cancel cancels continued
            exact (induction _ member).mp (sameItems _ member) object inside
      · intro alike
        unfold write
        rw [writeItems_eq, writeItems_eq,
          List.map_congr_left fun item member =>
            (induction item member).mpr fun object inside =>
              alike object (.item member inside)]
  | obj fields nodup each induction =>
      have cancels : ∀ field ∈ fields, Cancels key key' field.2 :=
        fun field member => cancels_of_distinctKeys (each field member)
      constructor
      · intro equal
        have continued : write key (.obj fields) ++ [] =
            write key' (.obj fields) ++ [] := by rw [equal]
        rw [write_obj, write_obj] at continued
        simp only [List.cons_append, List.append_assoc, List.nil_append,
          List.cons.injEq, true_and] at continued
        obtain ⟨sameOrder, sameTexts, _⟩ := fields_cancel nodup cancels
          (ordered_subset key fields) (ordered_subset key' fields) continued
        intro object inside
        cases inside with
        | self => exact sameOrder
        | @member _ field _ member inside =>
            apply (induction field member).mp _ object inside
            have listed : field ∈ ordered key fields :=
              (List.mem_insertionSort _).mpr member
            rw [← sameOrder] at sameTexts
            have same := List.map_inj_left.mp sameTexts field listed
            unfold writtenField writeMember at same
            exact (List.cons.inj (List.append_cancel_left same)).2
      · intro alike
        rw [write_obj, write_obj, ← alike fields (.self fields)]
        rw [List.map_congr_left]
        intro field listed
        have member := ordered_subset key fields listed
        unfold writtenField
        rw [(induction field member).mpr fun object inside =>
          alike object (.member member inside)]

end

end Json

end Python
