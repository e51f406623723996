import SovereignInference.Python.FloatText
import SovereignInference.Python.JsonLimits
import SovereignInference.Python.JsonStrings

/-!
# Reading what `json.dumps` writes

The layout of a writer is how it quotes strings and where it puts spaces.
Reading what a writer with sorted keys lays out gives the value back, but for
the order of its keys, for what its strings are read as, and for NaNs.  It
fails if more is nested than the scanner allows.
-/

namespace Python

open Effects

namespace Json

variable {α : Type}

/-- How strings are quoted, and the spaces of a writer. -/
structure Layout where
  quote : Text → Text
  /-- What is read of a quoted string. -/
  reads : Text → Text
  /-- What stands before an item inside so many brackets. -/
  line : Nat → Text
  /-- What stands after a colon. -/
  gap : Text
  opens : ∀ s, ∃ later, quote s = 0x22 :: later
  quoted : ∀ s rest, scanString (quote s ++ rest).tail = some (reads s, rest)
  lines : ∀ level, ∀ c ∈ line level, isJsonSpace c = true
  gaps : ∀ c ∈ gap, isJsonSpace c = true

namespace Layout

variable (layout : Layout)

/-- Items between brackets. -/
def bracketed (opening closing : CodePoint) (level : Nat)
    (items : List Text) : Text :=
  if items = [] then [opening, closing]
  else
    opening :: layout.line (level + 1) ++
      join (0x2C :: layout.line (level + 1)) items ++
      layout.line level ++ [closing]

def member (member : Text × Text) : Text :=
  layout.quote member.1 ++ 0x3A :: layout.gap ++ member.2

mutual

/-- The text of a value inside so many brackets, with sorted keys. -/
def render (level : Nat) : Json → Text
  | .null => "null"
  | .bool value => if value then "true" else "false"
  | .int value => intText value
  | .float value => floatText value
  | .str value => layout.quote value
  | .arr items =>
      layout.bracketed 0x5B 0x5D level (renderItems (level + 1) items)
  | .obj fields => layout.bracketed 0x7B 0x7D level
      ((sortMembers (renderFields (level + 1) fields)).map layout.member)

def renderItems (level : Nat) : List Json → List Text
  | [] => []
  | item :: rest => render level item :: renderItems level rest

def renderFields (level : Nat) : List (Text × Json) → List (Text × Text)
  | [] => []
  | field :: rest => renderField level field :: renderFields level rest

def renderField (level : Nat) : Text × Json → Text × Text
  | (key, value) => (key, render level value)

end

theorem renderItems_eq (level : Nat) (items : List Json) :
    layout.renderItems level items = items.map (layout.render level) := by
  induction items with
  | nil => rfl
  | cons item rest induction => simp [renderItems, induction]

theorem renderFields_eq (level : Nat) (fields : Dict) :
    layout.renderFields level fields =
      fields.map fun field => (field.1, layout.render level field.2) := by
  induction fields with
  | nil => rfl
  | cons field rest induction =>
      obtain ⟨key, value⟩ := field
      simp [renderFields, renderField, induction]

end Layout

section

variable (reads : Text → Text)

mutual

/-- `json.loads` of a text with such strings. -/
def reloaded : Json → Json
  | .float value => .float (if value.isNaN then floatNan else value)
  | .str value => .str (reads value)
  | .arr items => .arr (reloadedItems items)
  | .obj fields => .obj (dictOf
      (((reloadedFields fields).insertionSort KeyBefore).map fun field =>
        (reads field.1, field.2)))
  | value => value

def reloadedItems : List Json → List Json
  | [] => []
  | item :: rest => reloaded item :: reloadedItems rest

def reloadedFields : List (Text × Json) → List (Text × Json)
  | [] => []
  | field :: rest => reloadedField field :: reloadedFields rest

def reloadedField : Text × Json → Text × Json
  | (key, value) => (key, reloaded value)

end

/-- What is read of a value, where so many arrays and objects may be
nested. -/
def readBack (depth : Nat) (value : Json) : Except ScanError Json :=
  if nesting value ≤ depth then .ok (reloaded reads value)
  else .error .recursionError

end

/-- The text starts with an ASCII character that is no space and closes
nothing. -/
def Starts (s : Text) : Prop :=
  ∃ c rest, s = c :: rest ∧ isJsonSpace c = false ∧ c ≠ 0x5D ∧ c.val < 0x7D

theorem Starts.skipSpace {s : Text} (starts : Starts s) (rest : Text) :
    skipSpace (s ++ rest) = s ++ rest := by
  obtain ⟨c, later, rfl, notSpace, _⟩ := starts
  unfold Json.skipSpace
  rw [List.cons_append, List.dropWhile_cons_of_neg (by simp [notSpace])]

theorem skipSpace_spaces {spaces : Text}
    (all : ∀ c ∈ spaces, isJsonSpace c = true) (rest : Text) :
    skipSpace (spaces ++ rest) = skipSpace rest := by
  unfold skipSpace
  rw [List.dropWhile_append_of_pos all]

/-- The scanner reads a text before whatever ends a number. -/
def ScansTo (scan : Scanner α) (s : Text) (outcome : Except ScanError α) :
    Prop :=
  Starts s ∧ ∀ rest, Ends rest →
    scan (s ++ rest) = outcome.map fun value => (value, rest)

theorem scanOnce_leaf {s : Text} (notOpens : ¬ Opens s) (depth : Nat) :
    scanOnce depth s = scanLeaf s := by
  have closed : ¬ (s.head? = some 0x5B ∨ s.head? = some 0x7B) := notOpens
  cases depth with
  | zero =>
      unfold scanOnce
      rw [if_neg closed]
  | succ depth =>
      change scanValue (scanOnce depth) s = _
      unfold scanValue
      rw [if_neg fun bracket => notOpens (.inl bracket),
        if_neg fun brace => notOpens (.inr brace)]

/-- A word is scanned. -/
theorem scansTo_word {word : Text × Json} (member : word ∈ words)
    (depth : Nat) : ScansTo (scanOnce depth) word.1 (.ok word.2) := by
  have leaf : ∀ rest, scanLeaf (word.1 ++ rest) = .ok (word.2, rest) ∧
      ¬ Opens (word.1 ++ rest) := by
    simp only [words, List.mem_cons, List.not_mem_nil, or_false] at member
    intro rest
    rcases member with rfl | rfl | rfl | rfl | rfl | rfl <;>
      exact ⟨rfl, by rintro (same | same) <;> cases same⟩
  constructor
  · simp only [words, List.mem_cons, List.not_mem_nil, or_false] at member
    rcases member with rfl | rfl | rfl | rfl | rfl | rfl <;>
      exact ⟨_, _, rfl, by decide, by decide, by decide⟩
  · intro rest _
    rw [scanOnce_leaf (leaf rest).2, (leaf rest).1]
    rfl

theorem scansTo_string (layout : Layout) (s : Text) (depth : Nat) :
    ScansTo (scanOnce depth) (layout.quote s)
      (.ok (.str (layout.reads s))) := by
  obtain ⟨later, quote⟩ := layout.opens s
  constructor
  · exact ⟨_, _, quote, by decide, by decide, by decide⟩
  · intro rest _
    have quoted : (layout.quote s ++ rest).head? = some 0x22 := by
      rw [quote]
      rfl
    have opens : ¬ Opens (layout.quote s ++ rest) := by
      rw [Opens, quoted]
      rintro (same | same) <;> cases same
    rw [scanOnce_leaf opens]
    unfold scanLeaf
    rw [if_pos quoted, layout.quoted]
    rfl

private theorem Starts.ofNumber {s : Text} (starts : StartsNumber s) :
    Starts s := by
  obtain ⟨c, rest, digit, rfl | rfl⟩ := starts
  · have bounds := Decimal.digit_bounds digit
    refine ⟨c, rest, rfl, ?_, ?_, ?_⟩
    · simp only [isJsonSpace, Bool.or_eq_false_iff, beq_eq_false_iff_ne]
      omega
    · rintro rfl
      cases digit
    · omega
  · exact ⟨0x2D, c :: rest, rfl, by decide, by decide, by decide⟩

theorem scansTo_number {sign digits part : Text} {value : Json}
    (signed : sign = [] ∨ sign = [0x2D]) (isWhole : IsWhole digits)
    (reads : ∀ rest, Ends rest →
      scanNumber (sign ++ (digits ++ (part ++ rest))) = .ok (value, rest))
    (depth : Nat) :
    ScansTo (scanOnce depth) (sign ++ (digits ++ part)) (.ok value) := by
  have starts : ∀ rest, StartsNumber (sign ++ (digits ++ rest)) :=
    startsNumber_append signed isWhole
  refine ⟨.ofNumber (starts part), ?_⟩
  intro rest ends
  rw [List.append_assoc sign, List.append_assoc digits,
    scanOnce_leaf (starts _).notOpens.1, (starts _).scanLeaf, reads rest ends]
  rfl

theorem scansTo_int {value : Int} (short : value.natAbs < 10 ^ maxStrDigits)
    (depth : Nat) :
    ScansTo (scanOnce depth) (intText value) (.ok (.int value)) := by
  obtain ⟨sign, signed, split⟩ : ∃ sign, (sign = [] ∨ sign = [0x2D]) ∧
      intText value = sign ++ natText value.natAbs := by
    unfold intText
    split_ifs
    · exact ⟨[0x2D], .inr rfl, rfl⟩
    · exact ⟨[], .inl rfl, rfl⟩
  have isWhole := natText_isWhole value.natAbs
  have parsed := parseInt_intText short
  rw [split] at parsed ⊢
  have written := @scansTo_number sign (natText value.natAbs) []
    (.int value) signed isWhole (by
      intro rest ends
      have scanned := scanNumeral_append signed isWhole (.inl ⟨rfl, rfl⟩)
        (List.forall_mem_nil _) (.inl rfl) ends
      rw [List.nil_append, List.nil_append, List.nil_append] at scanned
      unfold scanNumber
      rw [List.nil_append, scanned]
      dsimp only
      rw [if_pos rfl, parsed]) depth
  rwa [List.append_nil] at written

private theorem scansTo_finite {value : Float}
    (isFinite : value.isFinite = true) (depth : Nat) :
    ScansTo (scanOnce depth) (floatRepr value) (.ok (.float value)) := by
  obtain ⟨sign, digits, fraction, places, exponent, power, signed, isWhole,
    isFraction, isPlaces, isExponent, isFloat, split, reads, same⟩ :=
      floatRepr_reads isFinite
  obtain ⟨isDigits, nonempty⟩ := isWhole.isDigits
  have parsed := parseFloat_parts signed isDigits nonempty isFraction isPlaces
    isExponent reads
  rw [split, List.append_assoc digits] at *
  apply scansTo_number signed isWhole
  intro rest ends
  have scanned := scanNumeral_append signed isWhole isFraction isPlaces
    isExponent ends
  unfold scanNumber
  rw [List.append_assoc fraction, scanned]
  dsimp only
  rw [if_neg isFloat, List.append_assoc sign, parsed, same]

theorem scansTo_float (reads : Text → Text) (value : Float) (depth : Nat) :
    ScansTo (scanOnce depth) (floatText value)
      (.ok (reloaded reads (.float value))) := by
  simp only [reloaded]
  unfold floatText
  split_ifs with isNaN isFinite negative
  · have member : (text "NaN", Json.float floatNan) ∈ words := by
      simp [words]
    exact scansTo_word member depth
  · exact scansTo_finite isFinite depth
  · have member : (text "-Infinity", Json.float (-floatInfinity)) ∈ words := by
      simp [words]
    rw [eq_infinity (Bool.not_eq_true _ ▸ isNaN) isFinite, if_pos negative]
    exact scansTo_word member depth
  · have member : (text "Infinity", Json.float floatInfinity) ∈ words := by
      simp [words]
    rw [eq_infinity (Bool.not_eq_true _ ▸ isNaN) isFinite, if_neg negative]
    exact scansTo_word member depth

/-- A bracket that closes an array or an object. -/
def Closes (close : CodePoint) : Prop := close = 0x5D ∨ close = 0x7D

theorem ends_spaces {spaces : Text}
    (all : ∀ c ∈ spaces, isJsonSpace c = true) {c : CodePoint}
    (notInNumeral : ¬ InNumeral c) (rest : Text) :
    Ends (spaces ++ c :: rest) := by
  cases spaces with
  | nil =>
      intro d isHead
      cases isHead
      exact notInNumeral
  | cons space others =>
      intro d isHead
      cases isHead
      intro inNumeral
      have bounds := inNumeral.bounds
      have isSpace := all space List.mem_cons_self
      simp only [isJsonSpace, Bool.or_eq_true, beq_iff_eq] at isSpace
      omega

theorem Closes.ends {close : CodePoint} (closes : Closes close) :
    ¬ InNumeral close := by
  unfold InNumeral
  rcases closes with rfl | rfl <;> decide

theorem ends_comma (rest : Text) : Ends (0x2C :: rest) := by
  intro c isHead
  cases isHead
  unfold InNumeral
  decide

section

variable {close : CodePoint}

theorem scanSeparator_close (closes : Closes close) {spaces : Text}
    (all : ∀ c ∈ spaces, isJsonSpace c = true) (rest : Text) :
    scanSeparator close (spaces ++ close :: rest) = some (false, rest) := by
  have notSpace : isJsonSpace close = false := by
    rcases closes with rfl | rfl <;> decide
  unfold scanSeparator
  rw [skipSpace_spaces all]
  unfold skipSpace
  rw [List.dropWhile_cons_of_neg (by simp [notSpace])]
  dsimp only
  rw [if_pos rfl]

theorem scanSeparator_comma (closes : Closes close) {spaces s : Text}
    (all : ∀ c ∈ spaces, isJsonSpace c = true) (starts : Starts s)
    (rest : Text) :
    scanSeparator close (0x2C :: (spaces ++ (s ++ rest))) =
      some (true, s ++ rest) := by
  have notComma : (0x2C : CodePoint) ≠ close := by
    rcases closes with rfl | rfl <;> decide
  unfold scanSeparator
  have comma : skipSpace (0x2C :: (spaces ++ (s ++ rest))) =
      0x2C :: (spaces ++ (s ++ rest)) := rfl
  rw [comma]
  dsimp only
  rw [if_neg notComma, if_pos rfl, skipSpace_spaces all, starts.skipSpace]

variable {β : Type} {scan : Scanner α} {written : β → Text}
  {outcome : β → Except ScanError α}

/-- A series starts with its first item. -/
theorem join_starts (separator item : Text) (others : List Text) :
    ∃ more, join separator (item :: others) = item ++ more := by
  cases others with
  | nil => exact ⟨[], (List.append_nil _).symm⟩
  | cons _ _ => exact ⟨_, List.append_assoc _ _ _⟩

theorem length_le_join (separator : Text) {items : List Text}
    (nonempty : ∀ item ∈ items, item ≠ []) :
    items.length ≤ (join separator items).length := by
  induction items with
  | nil => exact le_rfl
  | cons item rest induction =>
      obtain ⟨first, later⟩ := List.forall_mem_cons.mp nonempty
      have positive := List.length_pos_iff.mpr first
      cases rest with
      | nil => exact positive
      | cons _ _ =>
          have shorter := induction later
          simp only [join, List.length_append, List.length_cons] at shorter ⊢
          omega

/-- Items with commas between them are scanned up to the closing bracket. -/
theorem scanSeries_written (closes : Closes close) {line last : Text}
    (lines : ∀ c ∈ line, isJsonSpace c = true)
    (lasts : ∀ c ∈ last, isJsonSpace c = true) (rest : Text)
    {items : List β} (nonempty : items ≠ [])
    (each : ∀ item ∈ items, ScansTo scan (written item) (outcome item))
    {fuel : Nat} (enough : items.length ≤ fuel) :
    scanSeries scan close fuel
        (join (0x2C :: line) (items.map written) ++
          (last ++ close :: rest)) =
      (items.mapM outcome).map fun values => (values, rest) := by
  induction items generalizing fuel with
  | nil => exact absurd rfl nonempty
  | cons item others induction =>
      obtain ⟨first, later⟩ := List.forall_mem_cons.mp each
      obtain ⟨fuel, rfl⟩ : ∃ more, fuel = more + 1 :=
        ⟨fuel - 1, by rw [List.length_cons] at enough; omega⟩
      rw [List.length_cons] at enough
      cases others with
      | nil =>
          change scanSeries scan close (fuel + 1)
            (written item ++ (last ++ close :: rest)) = _
          unfold scanSeries
          rw [first.2 _ (ends_spaces lasts closes.ends _), List.mapM_cons]
          cases outcome item with
          | error error => rfl
          | ok value =>
              simp only [Except.map, ok_bind,
                scanSeparator_close closes lasts]
              rfl
      | cons next others =>
          have starts := (later next List.mem_cons_self).1
          have scanned := induction (by simp) later (by omega : _ ≤ fuel)
          have split : join (0x2C :: line)
              ((item :: next :: others).map written) ++
                (last ++ close :: rest) =
              written item ++ (0x2C :: (line ++
                (join (0x2C :: line) ((next :: others).map written) ++
                (last ++ close :: rest)))) := by
            simp [join]
          obtain ⟨more, joined⟩ : ∃ more,
              join (0x2C :: line) ((next :: others).map written) =
                written next ++ more :=
            join_starts _ _ _
          rw [split]
          unfold scanSeries
          rw [first.2 _ (ends_comma _), List.mapM_cons]
          cases outcome item with
          | error error => rfl
          | ok value =>
              rw [joined, List.append_assoc] at scanned ⊢
              simp only [Except.map, ok_bind,
                scanSeparator_comma closes lines starts, scanned]
              cases (next :: others).mapM outcome <;> rfl

/-- What starts after the spaces does not close the bracket. -/
theorem scanBracket_spaces (closes : Closes close) {spaces s : Text}
    (all : ∀ c ∈ spaces, isJsonSpace c = true) (starts : Starts s)
    (rest : Text) :
    scanBracket scan close (spaces ++ (s ++ rest)) =
      scanSeries scan close (s ++ rest).length (s ++ rest) := by
  obtain ⟨c, later, rfl, _, notArray, small⟩ := id starts
  have notClose : c ≠ close := by
    rcases closes with rfl | rfl
    · exact notArray
    · rintro rfl
      exact absurd small (by decide)
  unfold scanBracket
  rw [skipSpace_spaces all, starts.skipSpace]
  dsimp only
  rw [List.cons_append, List.head?_cons,
    if_neg fun same => notClose (Option.some.inj same)]

theorem scanBracket_written (layout : Layout) {opening : CodePoint}
    (closes : Closes close) (level : Nat) (rest : Text) {items : List β}
    (each : ∀ item ∈ items, ScansTo scan (written item) (outcome item)) :
    scanBracket scan close
        (layout.bracketed opening close level (items.map written) ++
          rest).tail =
      (items.mapM outcome).map fun values => (values, rest) := by
  unfold Layout.bracketed
  cases items with
  | nil =>
      have notSpace : isJsonSpace close = false := by
        rcases closes with rfl | rfl <;> decide
      have spaced : skipSpace (close :: rest) = close :: rest := by
        unfold skipSpace
        rw [List.dropWhile_cons_of_neg (by simp [notSpace])]
      unfold scanBracket
      rw [List.map_nil, if_pos rfl]
      dsimp only [List.cons_append, List.nil_append, List.tail_cons]
      rw [spaced, List.head?_cons, if_pos rfl]
      rfl
  | cons item others =>
      have starts := (each item List.mem_cons_self).1
      have nonempty : ∀ s ∈ (item :: others).map written, s ≠ [] := by
        intro s member
        obtain ⟨other, isItem, rfl⟩ := List.mem_map.mp member
        obtain ⟨c, later, split, _⟩ := (each other isItem).1
        rw [split]
        exact List.cons_ne_nil c later
      have lines := layout.lines (level + 1)
      have lasts := layout.lines level
      generalize layout.line (level + 1) = line at *
      generalize layout.line level = last at *
      have atLeast := length_le_join (0x2C :: line) nonempty
      rw [List.length_map] at atLeast
      have scanned := @scanSeries_written α close β scan written outcome closes
        line last lines lasts rest (item :: others) (List.cons_ne_nil _ _) each
      rw [if_neg (by simp)]
      obtain ⟨more, joined⟩ : ∃ more,
          join (0x2C :: line) ((item :: others).map written) =
            written item ++ more :=
        join_starts _ _ _
      simp only [List.cons_append, List.append_assoc, List.tail_cons,
        List.nil_append]
      rw [joined, List.append_assoc] at scanned ⊢
      rw [joined, List.length_append] at atLeast
      rw [scanBracket_spaces closes lines starts]
      apply scanned
      simp only [List.length_append]
      omega

end

theorem scansTo_member (layout : Layout) {scan : Scanner Json} {s : Text}
    {outcome : Except ScanError Json} (key : Text)
    (scans : ScansTo scan s outcome) :
    ScansTo (scanMember scan) (layout.member (key, s))
      (outcome.map fun value => (layout.reads key, value)) := by
  obtain ⟨later, quote⟩ := layout.opens key
  have split : ∀ rest, layout.member (key, s) ++ rest =
      layout.quote key ++ (0x3A :: (layout.gap ++ (s ++ rest))) := by
    intro rest
    unfold Layout.member
    simp
  have keyed : ∀ rest, scanKey (layout.member (key, s) ++ rest) =
      some (layout.reads key, s ++ rest) := by
    intro rest
    have quoted : (layout.quote key ++
        (0x3A :: (layout.gap ++ (s ++ rest)))).head? = some 0x22 := by
      rw [quote]
      rfl
    have colon : skipSpace (0x3A :: (layout.gap ++ (s ++ rest))) =
        0x3A :: (layout.gap ++ (s ++ rest)) := rfl
    unfold scanKey
    rw [split, if_neg (not_not.mpr quoted), layout.quoted]
    simp only [Option.bind_eq_bind, Option.bind_some]
    rw [colon, List.head?_cons, if_neg (not_not.mpr rfl), List.tail_cons,
      skipSpace_spaces layout.gaps, scans.1.skipSpace]
  constructor
  · have whole := split []
    rw [List.append_nil, quote] at whole
    exact ⟨_, _, whole, by decide, by decide, by decide⟩
  · intro rest ends
    unfold scanMember
    rw [keyed]
    dsimp only
    rw [scans.2 rest ends]
    cases outcome <;> rfl

section

variable (reads : Text → Text)

theorem reloadedItems_eq (items : List Json) :
    reloadedItems reads items = items.map (reloaded reads) := by
  induction items with
  | nil => rfl
  | cons item rest induction => simp [reloadedItems, induction]

theorem reloadedFields_eq (fields : Dict) :
    reloadedFields reads fields =
      fields.map fun field => (field.1, reloaded reads field.2) := by
  induction fields with
  | nil => rfl
  | cons field rest induction =>
      obtain ⟨key, value⟩ := field
      simp [reloadedFields, reloadedField, induction]

theorem nestingItems_le {items : List Json} {depth : Nat} :
    nestingItems items ≤ depth ↔ ∀ item ∈ items, nesting item ≤ depth := by
  induction items with
  | nil => simp [nestingItems]
  | cons item rest induction =>
      rw [nestingItems, max_le_iff, List.forall_mem_cons, induction]

theorem nestingFields_le {fields : Dict} {depth : Nat} :
    nestingFields fields ≤ depth ↔
      ∀ field ∈ fields, nesting field.2 ≤ depth := by
  induction fields with
  | nil => simp [nestingFields]
  | cons field rest induction =>
      rw [nestingFields, max_le_iff, List.forall_mem_cons, induction,
        nestingField]

theorem mapM_readBack (depth : Nat) (items : List Json) :
    items.mapM (readBack reads depth) =
      if nestingItems items ≤ depth then .ok (reloadedItems reads items)
      else .error .recursionError := by
  unfold readBack
  rw [mapM_ite (reloaded reads), reloadedItems_eq]
  simp only [nestingItems_le]

/-- A member as it is read. -/
def readMember (depth : Nat) (field : Text × Json) :
    Except ScanError (Text × Json) :=
  (readBack reads depth field.2).map fun value => (reads field.1, value)

theorem mapM_readMember (depth : Nat) (fields : Dict) :
    (fields.insertionSort KeyBefore).mapM (readMember reads depth) =
      if nestingFields fields ≤ depth then
        .ok (((reloadedFields reads fields).insertionSort KeyBefore).map
          fun field => (reads field.1, field.2))
      else .error .recursionError := by
  have each : readMember reads depth = fun field : Text × Json =>
      if nesting field.2 ≤ depth then
        .ok (reads field.1, reloaded reads field.2)
      else .error .recursionError := by
    funext field
    unfold readMember readBack
    split_ifs <;> rfl
  have sorts := List.map_insertionSort KeyBefore KeyBefore
    (fun field : Text × Json => (field.1, reloaded reads field.2)) fields
    fun _ _ _ _ => Iff.rfl
  rw [each, mapM_ite, reloadedFields_eq, ← sorts, List.map_map]
  simp only [nestingFields_le, List.mem_insertionSort]
  rfl

end

/-- Where something opens, nothing is read without a level left. -/
theorem scanOnce_zero {s : Text} (opens : Opens s) :
    scanOnce 0 s = .error .recursionError :=
  if_pos opens

section

variable (layout : Layout)

theorem sortMembers_render (level : Nat) (fields : Dict) :
    sortMembers (layout.renderFields level fields) =
      (fields.insertionSort KeyBefore).map fun field =>
        (field.1, layout.render level field.2) := by
  have sorts := List.map_insertionSort KeyBefore
    (fun a b : Text × Text => ¬ b.1 < a.1)
    (fun field : Text × Json => (field.1, layout.render level field.2)) fields
    fun _ _ _ _ => not_lt.symm
  unfold sortMembers
  rw [layout.renderFields_eq, ← sorts]

theorem head_bracketed (opening closing : CodePoint) (level : Nat)
    (items : List Text) (rest : Text) :
    (layout.bracketed opening closing level items ++ rest).head? =
      some opening := by
  unfold Layout.bracketed
  split_ifs <;> rfl

theorem starts_bracketed {opening : CodePoint}
    (plain : isJsonSpace opening = false ∧ opening ≠ 0x5D ∧
      opening.val < 0x7D) (closing : CodePoint) (level : Nat)
    (items : List Text) :
    Starts (layout.bracketed opening closing level items) := by
  have isHead := head_bracketed layout opening closing level items []
  rw [List.append_nil] at isHead
  obtain ⟨rest, split⟩ := List.head?_eq_some_iff.mp isHead
  exact ⟨opening, rest, split, plain⟩

theorem scansTo_array {depth level : Nat} {items : List Json}
    (each : ∀ depth, ∀ item ∈ items, ScansTo (scanOnce depth)
      (layout.render (level + 1) item) (readBack layout.reads depth item)) :
    ScansTo (scanOnce depth) (layout.render level (.arr items))
      (readBack layout.reads depth (.arr items)) := by
  unfold Layout.render
  rw [layout.renderItems_eq]
  refine ⟨starts_bracketed layout (by decide) _ _ _, ?_⟩
  intro rest _
  have opens := head_bracketed layout 0x5B 0x5D level
    (items.map (layout.render (level + 1))) rest
  unfold readBack
  rw [nesting]
  cases depth with
  | zero =>
      rw [scanOnce_zero (.inl opens), if_neg (by omega)]
      rfl
  | succ depth =>
      change scanValue (scanOnce depth) _ = _
      unfold scanValue
      rw [if_pos opens, scanBracket_written layout (.inl rfl) level rest
        (each depth), mapM_readBack]
      simp only [Nat.add_le_add_iff_right, reloaded]
      split_ifs <;> rfl

/-- A member as it is laid out. -/
def renderedMember (level : Nat) (field : Text × Json) : Text :=
  layout.member (field.1, layout.render level field.2)

theorem render_obj (level : Nat) (fields : Dict) :
    layout.render level (.obj fields) = layout.bracketed 0x7B 0x7D level
      ((fields.insertionSort KeyBefore).map
        (renderedMember layout (level + 1))) := by
  rw [Layout.render, sortMembers_render, List.map_map]
  rfl

private theorem scansTo_object {depth level : Nat} {fields : Dict}
    (each : ∀ depth, ∀ field ∈ fields, ScansTo (scanOnce depth)
      (layout.render (level + 1) field.2)
      (readBack layout.reads depth field.2)) :
    ScansTo (scanOnce depth) (layout.render level (.obj fields))
      (readBack layout.reads depth (.obj fields)) := by
  rw [render_obj]
  refine ⟨starts_bracketed layout (by decide) _ _ _, ?_⟩
  intro rest _
  have opens := head_bracketed layout 0x7B 0x7D level
    ((fields.insertionSort KeyBefore).map
      (renderedMember layout (level + 1))) rest
  unfold readBack
  rw [nesting]
  cases depth with
  | zero =>
      rw [scanOnce_zero (.inr opens), if_neg (by omega)]
      rfl
  | succ depth =>
      have members : ∀ field ∈ fields.insertionSort KeyBefore,
          ScansTo (scanMember (scanOnce depth))
            (renderedMember layout (level + 1) field)
            (readMember layout.reads depth field) := by
        intro field member
        exact scansTo_member layout field.1
          (each depth field ((List.mem_insertionSort _).mp member))
      change scanValue (scanOnce depth) _ = _
      unfold scanValue
      rw [if_neg (by rw [opens]; decide), if_pos opens,
        scanBracket_written layout (.inr rfl) level rest members,
        mapM_readMember]
      simp only [Nat.add_le_add_iff_right, reloaded]
      split_ifs <;> rfl

mutual

/-- **The scanner reads what is laid out.** -/
theorem scansTo_render {depth level : Nat} : (value : Json) →
    ShortIntegers value → ScansTo (scanOnce depth) (layout.render level value)
      (readBack layout.reads depth value)
  | .null, _ => by
      have member : (text "null", Json.null) ∈ words := by simp [words]
      exact scansTo_word member depth
  | .bool true, _ => by
      have member : (text "true", Json.bool true) ∈ words := by simp [words]
      exact scansTo_word member depth
  | .bool false, _ => by
      have member : (text "false", Json.bool false) ∈ words := by simp [words]
      exact scansTo_word member depth
  | .int value, short => scansTo_int short depth
  | .float value, _ => scansTo_float layout.reads value depth
  | .str value, _ => scansTo_string layout value depth
  | .arr items, short => scansTo_array layout (scansTo_items items short)
  | .obj fields, short => scansTo_object layout (scansTo_fields fields short)

theorem scansTo_items {level : Nat} : (items : List Json) →
    ShortIntegersItems items → ∀ depth, ∀ item ∈ items,
      ScansTo (scanOnce depth) (layout.render level item)
        (readBack layout.reads depth item)
  | [], _ => fun _ => List.forall_mem_nil _
  | item :: rest, short => fun depth => List.forall_mem_cons.mpr
      ⟨scansTo_render item short.1, scansTo_items rest short.2 depth⟩

theorem scansTo_fields {level : Nat} : (fields : List (Text × Json)) →
    ShortIntegersFields fields → ∀ depth, ∀ field ∈ fields,
      ScansTo (scanOnce depth) (layout.render level field.2)
        (readBack layout.reads depth field.2)
  | [], _ => fun _ => List.forall_mem_nil _
  | field :: rest, short => fun depth => List.forall_mem_cons.mpr
      ⟨scansTo_field field short.1, scansTo_fields rest short.2 depth⟩

theorem scansTo_field {depth level : Nat} : (field : Text × Json) →
    ShortIntegersField field →
      ScansTo (scanOnce depth) (layout.render level field.2)
        (readBack layout.reads depth field.2)
  | (_, value), short => scansTo_render value short

end

/-- **`json.loads` of what is laid out** gives the value back as far as it
can, or finds too much nested. -/
theorem loads_render {value : Json} (short : ShortIntegers value)
    (depth : Nat) :
    loads depth (layout.render 0 value) =
      readBack layout.reads depth value := by
  obtain ⟨starts, scanned⟩ :=
    @scansTo_render layout depth 0 value short
  have noMark : (layout.render 0 value).head? ≠ some 0xFEFF := by
    obtain ⟨c, rest, split, _, _, small⟩ := starts
    rw [split]
    rintro ⟨⟩
    exact absurd small (by decide)
  have whole := scanned [] (by nofun)
  have spaced := starts.skipSpace []
  rw [List.append_nil] at whole spaced
  unfold loads
  rw [if_neg noMark, spaced, whole]
  cases readBack layout.reads depth value <;> rfl

end

private theorem newlineIndent_spaces (level : Nat) :
    ∀ c ∈ newlineIndent level, isJsonSpace c = true := by
  unfold newlineIndent
  rw [List.forall_mem_cons]
  refine ⟨by decide, ?_⟩
  intro c member
  rw [List.eq_of_mem_replicate member]
  decide

/-- `indent=2`. -/
def pretty : Layout where
  quote := quoteAscii
  reads := Python.rejoined
  line := newlineIndent
  gap := [0x20]
  opens := fun _ => ⟨_, rfl⟩
  quoted := scanString_quoteAscii
  lines := newlineIndent_spaces
  gaps := List.forall_mem_singleton.mpr rfl

private theorem indentedMember_eq : indentedMember = pretty.member := by
  funext member
  unfold indentedMember Layout.member
  rw [List.append_assoc, List.append_assoc]
  rfl

mutual

theorem indented_eq (level : Nat) : (value : Json) →
    indented level value = pretty.render level value
  | .null | .bool _ | .int _ | .float _ | .str _ => rfl
  | .arr items => by
      rw [indented, Layout.render, indentedItems_render]
      rfl
  | .obj fields => by
      rw [indented, Layout.render, indentedFields_render, indentedMember_eq]
      rfl

theorem indentedItems_render (level : Nat) : (items : List Json) →
    indentedItems level items = pretty.renderItems level items
  | [] => rfl
  | item :: rest => by
      rw [indentedItems, Layout.renderItems, indented_eq,
        indentedItems_render]

theorem indentedFields_render (level : Nat) :
    (fields : List (Text × Json)) →
      indentedFields level fields = pretty.renderFields level fields
  | [] => rfl
  | field :: rest => by
      rw [indentedFields, Layout.renderFields, indentedField_render,
        indentedFields_render]

theorem indentedField_render (level : Nat) : (field : Text × Json) →
    indentedField level field = pretty.renderField level field
  | (_, value) => by
      rw [indentedField, Layout.renderField, indented_eq]

end

/-- `json.loads` of the indented text of a value. -/
theorem loads_indented {value : Json} (short : ShortIntegers value)
    (depth : Nat) :
    loads depth (indented 0 value) = readBack Python.rejoined depth value := by
  rw [indented_eq]
  exact loads_render pretty short depth

end Json

end Python
