import SovereignInference.Python.Json

/-!
# JSON Schema

The keywords of JSON Schema that documents with string enumerations, patterns
and number bounds use, with the meaning of the specification.  Patterns are
anchored at both ends; as in Python, the end may be followed by a newline.
-/

namespace Python

/-- Anchored regular expressions over ranges of code points. -/
inductive Regex where
  | literal (word : Text)
  | repeated (ranges : List (Nat × Nat)) (least : Nat) (most : Option Nat)
  | seq (first second : Regex)
  | optional (body : Regex)

namespace Regex

def inRanges (ranges : List (Nat × Nat)) (c : CodePoint) : Bool :=
  ranges.any fun range => range.1 ≤ c.val ∧ c.val ≤ range.2

/-- What can be left of a string after matching at its start. -/
def rests : Regex → Text → List Text
  | .literal word, s =>
      if startsWith s word then [s.drop word.length] else []
  | .repeated ranges least most, s =>
      let available := (s.takeWhile (inRanges ranges)).length
      let longest := (most.map (min available)).getD available
      (List.range' least (longest + 1 - least)).map fun count => s.drop count
  | .seq first second, s => (first.rests s).flatMap second.rests
  | .optional body, s => s :: body.rests s

/-- `re.search` of the pattern with `^` and `$` around it. -/
def matchesText (pattern : Regex) (s : Text) : Bool :=
  (pattern.rests s).any fun rest => rest = [] ∨ rest = [0x0A]

end Regex

inductive TypeName where
  | string
  | integer
  | number
  | array
  | object
  deriving DecidableEq

/-- A float without fraction. -/
def isWhole (x : Float) : Bool :=
  let (numerator, denominator) := floatScaled x 0
  x.isFinite && numerator % denominator == 0

def TypeName.holds : TypeName → Json → Bool
  | .string, .str _ => true
  | .integer, .int _ => true
  | .integer, .float x => isWhole x
  | .number, .int _ => true
  | .number, .float _ => true
  | .array, .arr _ => true
  | .object, .obj _ => true
  | _, _ => false

inductive Schema where
  | type (name : TypeName)
  | const (value : Text)
  | enum (values : List Text)
  | pattern (regex : Regex)
  | minLength (bound : Nat)
  | maxLength (bound : Nat)
  | minimum (bound : Int)
  | minItems (bound : Nat)
  | items (schema : Schema)
  | required (keys : List Text)
  | property (key : Text) (schema : Schema)
  | onlyProperties (keys : List Text)
  | all (schemas : List Schema)

namespace Schema

/-- `bound <= x` for a number; a NaN is below no bound. -/
def atLeast (bound : Int) : Json → Bool
  | .int value => bound ≤ value
  | .float value => !(value < Float.ofInt bound)
  | _ => true

mutual

/-- The document satisfies the schema. -/
def valid : Schema → Json → Bool
  | .type name, document => name.holds document
  | .const value, document => document.isStr value
  | .enum values, document => values.any fun value => document.isStr value
  | .pattern regex, document => document.asStr.all regex.matchesText
  | .minLength bound, document =>
      document.asStr.all fun s => bound ≤ s.length
  | .maxLength bound, document =>
      document.asStr.all fun s => s.length ≤ bound
  | .minimum bound, document => atLeast bound document
  | .minItems bound, document =>
      document.asList.all fun items => bound ≤ items.length
  | .items schema, document =>
      document.asList.all fun items => items.all schema.valid
  | .required keys, document =>
      document.asDict.all fun fields =>
        keys.all fun key => (fields.find key).isSome
  | .property key schema, document =>
      document.asDict.all fun fields => (fields.find key).all schema.valid
  | .onlyProperties keys, document =>
      document.asDict.all fun fields =>
        fields.all fun field => keys.contains field.1
  | .all schemas, document => allValid schemas document

def allValid : List Schema → Json → Bool
  | [], _ => true
  | schema :: rest, document => schema.valid document && allValid rest document

end

/-- A string with further constraints. -/
def string (constraints : List Schema) : Schema :=
  .all (.type .string :: constraints)

/-- A closed object: its properties and which of them are required. -/
def record (required : List Text) (properties : List (Text × Schema)) :
    Schema :=
  .all [.type .object, .required required,
    .onlyProperties (properties.map (·.1)),
    .all (properties.map fun entry => .property entry.1 entry.2)]

theorem allValid_iff (schemas : List Schema) (document : Json) :
    allValid schemas document ↔
      ∀ schema ∈ schemas, schema.valid document := by
  induction schemas with
  | nil => simp [allValid]
  | cons schema rest induction => simp [allValid, induction]

variable {required : List Text} {properties : List (Text × Schema)}
  {document : Json}

/-- A valid record is a dict whose properties satisfy their schemas. -/
theorem record_valid (valid : (record required properties).valid document) :
    ∃ fields : Dict, document = .obj fields ∧
      (∀ key ∈ required, ∃ value, fields.find key = some value) ∧
      ∀ entry ∈ properties, ∀ value, fields.find entry.1 = some value →
        entry.2.valid value := by
  have parts : ∀ schema ∈ [Schema.type .object, .required required,
      .onlyProperties (properties.map (·.1)),
      .all (properties.map fun entry => .property entry.1 entry.2)],
      schema.valid document := (allValid_iff _ _).mp valid
  have isObject := parts (.type .object) (by simp)
  have hasRequired := parts (.required required) (by simp)
  have hasProperties := parts
    (.all (properties.map fun entry => .property entry.1 entry.2)) (by simp)
  obtain ⟨fields, rfl⟩ : ∃ fields : Dict, document = .obj fields := by
    cases document with
    | obj fields => exact ⟨fields, rfl⟩
    | _ => simp [Schema.valid, TypeName.holds] at isObject
  refine ⟨fields, rfl, ?_, ?_⟩
  · intro key member
    simp only [Schema.valid, Json.asDict, Option.all_some, List.all_eq_true]
      at hasRequired
    exact Option.isSome_iff_exists.mp (hasRequired key member)
  · intro entry member value found
    have each := (allValid_iff _ _).mp hasProperties
      (.property entry.1 entry.2) (List.mem_map.mpr ⟨entry, member, rfl⟩)
    simpa [Schema.valid, Json.asDict, found] using each

/-- A field of a valid record satisfies the schema listed for it. -/
theorem record_field {fields : Dict} {key : Text} {schema : Schema}
    {value : Json} (valid : (record required properties).valid (.obj fields))
    (listed : properties.find? (·.1 = key) = some (key, schema))
    (found : fields.find key = some value) : schema.valid value := by
  obtain ⟨others, same, _, each⟩ := record_valid valid
  cases same
  exact each (key, schema) (List.mem_of_find?_eq_some listed) value found

/-- When a dict satisfies a closed object. -/
theorem record_valid_iff {fields : Dict} :
    (record required properties).valid (.obj fields) = true ↔
      (∀ key ∈ required, (fields.find key).isSome = true) ∧
      (∀ field ∈ fields, field.1 ∈ properties.map (·.1)) ∧
      ∀ entry ∈ properties, (fields.find entry.1).all entry.2.valid = true := by
  have listed : allValid
      (properties.map fun entry => .property entry.1 entry.2) (.obj fields) =
        true ↔ ∀ entry ∈ properties,
          (fields.find entry.1).all entry.2.valid = true := by
    rw [allValid_iff, List.forall_mem_map]
    rfl
  rw [← listed]
  simp [record, Schema.valid, allValid, TypeName.holds, Json.asDict]

/-- With distinct keys, an entry is found under its key. -/
theorem lookup_of_mem {β : Type} {entries : List (Text × β)}
    (distinct : (entries.map (·.1)).Nodup) {entry : Text × β}
    (member : entry ∈ entries) : entries.lookup entry.1 = some entry.2 := by
  obtain ⟨before, after, rfl⟩ := List.append_of_mem member
  rw [List.lookup_eq_some_iff]
  refine ⟨before, after, rfl, ?_⟩
  intro other inBefore
  rw [List.map_append, List.map_cons] at distinct
  have apart := (List.nodup_append.mp distinct).2.2 other.1
    (List.mem_map_of_mem inBefore) entry.1 List.mem_cons_self
  exact bne_iff_ne.mpr apart.symm

theorem find_eq_lookup (fields : Dict) (key : Text) :
    fields.find key = fields.lookup key := by
  induction fields with
  | nil => rfl
  | cons field rest induction =>
      rw [Dict.find_cons, induction, List.lookup_cons]
      by_cases here : field.1 = key
      · subst here
        rw [if_pos rfl, beq_self_eq_true]
      · rw [if_neg here, beq_false_of_ne (Ne.symm here)]

/-- With distinct keys, each field of a dict is looked up among the
properties. -/
theorem record_valid_lookup {fields : Dict}
    (distinct : (fields.map (·.1)).Nodup)
    (distinct' : (properties.map (·.1)).Nodup) :
    (record required properties).valid (.obj fields) = true ↔
      (∀ key ∈ required, key ∈ fields.map (·.1)) ∧
      ∀ field ∈ fields, ((properties.lookup field.1).any
        fun schema => schema.valid field.2) = true := by
  have isSome : ∀ key, (fields.find key).isSome = true ↔
      key ∈ fields.map (·.1) := by
    intro key
    simp [Dict.find, List.find?_isSome]
  rw [record_valid_iff]
  simp only [isSome]
  refine and_congr_right fun _ => ?_
  constructor
  · intro both field member
    obtain ⟨known, valid⟩ := both
    obtain ⟨entry, listed, same⟩ := List.mem_map.mp (known field member)
    have holds := valid entry listed
    rw [same, find_eq_lookup, lookup_of_mem distinct member] at holds
    rw [← same, lookup_of_mem distinct' listed]
    exact holds
  · intro each
    constructor
    · intro field member
      have holds := each field member
      cases found : properties.lookup field.1 with
      | none => simp [found] at holds
      | some schema =>
          obtain ⟨before, after, split, _⟩ := List.lookup_eq_some_iff.mp found
          rw [split]
          simp
    · intro entry listed
      cases found : fields.find entry.1 with
      | none => rfl
      | some value =>
          rw [find_eq_lookup] at found
          obtain ⟨before, after, split, _⟩ := List.lookup_eq_some_iff.mp found
          have member : (entry.1, value) ∈ fields := by
            rw [split]
            simp
          have holds := each _ member
          rw [lookup_of_mem distinct' listed] at holds
          exact holds

theorem string_valid {constraints : List Schema}
    (valid : (string constraints).valid document) :
    ∃ s, document = .str s ∧
      ∀ schema ∈ constraints, schema.valid (.str s) := by
  have parts := (allValid_iff _ _).mp valid
  have isString := parts (.type .string) List.mem_cons_self
  cases document with
  | str s =>
      refine ⟨s, rfl, ?_⟩
      intro schema member
      exact parts schema (List.mem_cons_of_mem _ member)
  | _ => simp [Schema.valid, TypeName.holds] at isString

end Schema

end Python
