import SovereignInference.Python.JsonEncoding
import SovereignInference.Python.JsonSurvival

/-!
# Reading compact JSON

With compact separators, and escapes only where JSON needs them, every string
is read as it was.  So reading what is written of a clean value gives the
value with its keys in order.
-/

namespace Python

open Arithmetic Effects

namespace Json

/-- What is scanned of a character of a string. -/
def compactUnit (c : CodePoint) : Bool × CodePoint :=
  (c.val < 0x20 ∧ c.val ∉ shortEscapes, c)

private theorem scanUnits_escapeJson (c : CodePoint) (rest : Text) :
    scanUnits (escapeJson c ++ rest) =
      (scanUnits rest).map fun (units, later) =>
        (compactUnit c :: units, later) := by
  have short : ∀ {n : Nat} {letter : CodePoint}, c.val = n →
      n ∈ shortEscapes → letter ≠ 0x75 →
      unescape letter = some (Fin.ofNat _ n) →
      scanUnits (0x5C :: letter :: rest) =
        (scanUnits rest).map fun (units, later) =>
          (compactUnit c :: units, later) := by
    intro n letter same isShort notNumber stands
    rw [scanUnits_shortEscape same notNumber stands]
    unfold compactUnit
    rw [same, decide_eq_false (by simp [isShort])]
  unfold escapeJson
  split
  case h_1 same => exact short same (by decide) (by decide) rfl
  case h_2 same => exact short same (by decide) (by decide) rfl
  case h_3 same => exact short same (by decide) (by decide) rfl
  case h_4 same => exact short same (by decide) (by decide) rfl
  case h_5 same => exact short same (by decide) (by decide) rfl
  case h_6 same => exact short same (by decide) (by decide) rfl
  case h_7 same => exact short same (by decide) (by decide) rfl
  case h_8 quote slash newline return' tab feed back =>
    have notShort : c.val ∉ shortEscapes := by
      simp only [shortEscapes, List.mem_cons, List.not_mem_nil, or_false]
      rintro (same | same | same | same | same | same | same)
      exacts [quote same, slash same, newline same, return' same, tab same,
        feed same, back same]
    split_ifs with control
    · have small : c.val < 0x10000 := by omega
      have scanned := scanUnits_escapeUnit small rest
      unfold escapeUnit at scanned
      rw [scanned, Fin.ofNat_val_eq_self]
      unfold compactUnit
      rw [decide_eq_true ⟨control, notShort⟩]
    · rw [List.singleton_append, scanUnits_plain]
      · unfold compactUnit
        rw [decide_eq_false fun both => control both.1]
      · rintro rfl
        exact quote rfl
      · rintro rfl
        exact slash rfl
      · exact control

theorem scanUnits_compact (s rest : Text) :
    scanUnits (s.flatMap escapeJson ++ 0x22 :: rest) =
      some (s.map compactUnit, rest) := by
  induction s with
  | nil =>
      rw [List.flatMap_nil, List.nil_append, scanUnits.eq_def]
      rfl
  | cons c s induction =>
      rw [List.flatMap_cons, List.append_assoc, scanUnits_escapeJson,
        induction]
      rfl

/-- No surrogate is written by its number. -/
theorem joinUnits_compact (s : Text) : joinUnits (s.map compactUnit) = s := by
  induction s with
  | nil => rfl
  | cons c rest induction =>
      cases rest with
      | nil => rfl
      | cons d rest =>
          rw [List.map_cons] at induction ⊢
          unfold compactUnit at induction ⊢
          rw [List.map_cons, joinUnits, if_neg, induction]
          rintro ⟨escaped, _, isHigh, _⟩
          have control := (of_decide_eq_true escaped).1
          simp only [isHighSurrogate, decide_eq_true_eq] at isHigh
          omega

private theorem scanString_quoteJson (s rest : Text) :
    scanString ((quoteJson s ++ rest).tail) = some (s, rest) := by
  unfold scanString quoteJson
  rw [List.cons_append, List.cons_append, List.tail_cons, List.append_assoc,
    List.singleton_append, scanUnits_compact, Option.map_some]
  dsimp only
  rw [joinUnits_compact]

/-- `separators=(",", ":")` and `ensure_ascii=False`. -/
def compact : Layout where
  quote := quoteJson
  reads := id
  line := fun _ => []
  gap := []
  opens := fun _ => ⟨_, rfl⟩
  quoted := scanString_quoteJson
  lines := fun _ => List.forall_mem_nil _
  gaps := List.forall_mem_nil _

theorem bracketed_compact (opening closing : CodePoint) (level : Nat)
    (items : List Text) :
    compact.bracketed opening closing level items =
      opening :: join [0x2C] items ++ [closing] := by
  unfold Layout.bracketed
  split_ifs with none
  · subst none
    rfl
  · exact congrArg (· ++ [closing]) (List.append_nil _)

theorem member_compact : compact.member = writeMember := by
  funext member
  unfold Layout.member writeMember
  rw [List.append_assoc]
  rfl

theorem floatText_finite {x : Float} (isFinite : x.isFinite = true) :
    floatText x = floatRepr x := by
  have number := isNumber_iff.mp (isNumber_of_isFinite isFinite)
  unfold floatText
  rw [number, if_neg nofun, if_pos isFinite]

mutual

/-- What is dumped of a clean value is laid out so. -/
theorem dump_compact (level : Nat) : (value : Json) → value.Clean →
    dump true value = .ok (compact.render level value)
  | .null, _ => rfl
  | .bool _, _ => rfl
  | .int value, short => by
      rw [dump, Layout.render, intRepr, if_pos ((clean_int value).mp short)]
  | .float value, isFinite => by
      change value.isFinite = true at isFinite
      rw [dump, Layout.render, if_pos isFinite, floatText_finite isFinite]
  | .str _, _ => rfl
  | .arr items, clean => by
      rw [dump, dumpItems_compact (level + 1) items clean, Layout.render,
        bracketed_compact]
      rfl
  | .obj fields, clean => by
      rw [dump, dumpFields_compact (level + 1) fields clean, Layout.render,
        bracketed_compact, member_compact]
      rfl

theorem dumpItems_compact (level : Nat) : (items : List Json) →
    CleanItems items →
      dumpItems true items = .ok (compact.renderItems level items)
  | [], _ => rfl
  | item :: rest, clean => by
      rw [dumpItems, dump_compact level item clean.1,
        dumpItems_compact level rest clean.2]
      rfl

theorem dumpFields_compact (level : Nat) : (fields : List (Text × Json)) →
    CleanFields fields →
      dumpFields true fields = .ok (compact.renderFields level fields)
  | [], _ => rfl
  | field :: rest, clean => by
      rw [dumpFields, dumpField_compact level field clean.1,
        dumpFields_compact level rest clean.2]
      rfl

theorem dumpField_compact (level : Nat) : (field : Text × Json) →
    CleanField field →
      dumpField true field = .ok (compact.renderField level field)
  | (_, value), clean => by
      rw [dumpField, dump_compact level value clean.2]
      rfl

end

mutual

theorem Clean.shortIntegers : (value : Json) → value.Clean →
    ShortIntegers value
  | .null, _ | .bool _, _ | .float _, _ | .str _, _ => trivial
  | .int _, short => short
  | .arr items, clean => shortIntegersItems items clean
  | .obj fields, clean => shortIntegersFields fields clean

theorem shortIntegersItems : (items : List Json) → CleanItems items →
    ShortIntegersItems items
  | [], _ => trivial
  | item :: rest, clean =>
      ⟨Clean.shortIntegers item clean.1, shortIntegersItems rest clean.2⟩

theorem shortIntegersFields : (fields : List (Text × Json)) →
    CleanFields fields → ShortIntegersFields fields
  | [], _ => trivial
  | field :: rest, clean =>
      ⟨shortIntegersField field clean.1, shortIntegersFields rest clean.2⟩

theorem shortIntegersField : (field : Text × Json) → CleanField field →
    ShortIntegersField field
  | (_, value), clean => Clean.shortIntegers value clean.2

end

theorem unpaired_of_encodable {s : Text} (encodable : Encodable s) :
    Unpaired s := by
  induction s with
  | nil => exact .nil
  | cons c rest induction =>
      obtain ⟨first, others⟩ := List.forall_mem_cons.mp encodable
      cases rest with
      | nil => exact .singleton c
      | cons d rest =>
          refine List.isChain_cons_cons.mpr ⟨?_, induction others⟩
          rintro ⟨isHigh, _⟩
          simp only [isSurrogate, isHighSurrogate, Bool.and_eq_false_iff,
            decide_eq_false_iff_not, decide_eq_true_eq] at first isHigh
          omega

/-- Of a clean value, only the order of keys is lost. -/
theorem reloaded_clean {reads : Text → Text}
    (kept : ∀ s, Encodable s → reads s = s) {value : Json}
    (distinct : value.DistinctKeys) (clean : value.Clean) :
    reloaded reads value = value.sorted := by
  induction distinct with
  | null => rfl
  | bool value => rfl
  | int value => rfl
  | float value =>
      have number := isNumber_iff.mp (isNumber_of_isFinite clean)
      rw [reloaded, number, if_neg Bool.false_ne_true]
      rfl
  | str value => exact congrArg Json.str (kept value clean)
  | arr items _ induction =>
      rw [clean_arr] at clean
      rw [reloaded, reloadedItems_eq, sorted, sortedItems_eq,
        List.map_congr_left fun item member =>
          induction item member (clean item member)]
  | obj fields nodup _ induction =>
      rw [clean_obj] at clean
      rw [reloaded_obj nodup fun field member =>
          kept field.1 (clean field member).1,
        Dict.sorted_obj, Dict.sorted,
        List.map_congr_left fun field member =>
          congrArg (Prod.mk field.1)
            (induction field member (clean field member).2)]

private theorem survives_of_clean {value : Json} (distinct : value.DistinctKeys)
    (clean : value.Clean) : Survives value := by
  induction distinct with
  | null => trivial
  | bool value => trivial
  | int value => trivial
  | float value => exact isNumber_iff.mp (isNumber_of_isFinite clean)
  | str value => exact unpaired_of_encodable clean
  | arr items _ induction =>
      rw [clean_arr] at clean
      exact survivesItems_iff.mpr fun item member =>
        induction item member (clean item member)
  | obj fields _ _ induction =>
      rw [clean_obj] at clean
      exact survivesFields_iff.mpr fun field member =>
        ⟨unpaired_of_encodable (clean field member).1,
          induction field member (clean field member).2⟩

/-- A clean value equals the value with its keys in order. -/
theorem pyEq_sorted {value : Json} (distinct : value.DistinctKeys)
    (clean : value.Clean) : value.pyEq value.sorted = true := by
  have kept : ∀ s, Encodable s → Python.rejoined s = s := fun s encodable =>
    (rejoined_eq_iff s).mpr (unpaired_of_encodable encodable)
  rw [← reloaded_clean kept distinct clean]
  exact (pyEq_reloaded distinct).mpr (survives_of_clean distinct clean)

section

variable (layout : Layout)

mutual

/-- The text does not depend on the order of keys. -/
theorem render_sorted {level : Nat} : (value : Json) →
    layout.render level value.sorted = layout.render level value
  | .null | .bool _ | .int _ | .float _ | .str _ => rfl
  | .arr items => by
      rw [sorted, Layout.render, Layout.render, layout.renderItems_eq,
        layout.renderItems_eq, sortedItems_eq, List.map_map]
      congr 1
      exact List.map_congr_left (renderItems_sorted items)
  | .obj fields => by
      have fixed := (List.pairwise_insertionSort KeyBefore
        (sortedFields fields)).insertionSort_eq
      rw [sorted, render_obj, render_obj, fixed,
        ← sortedFields_insertionSort, sortedFields_eq, List.map_map]
      congr 1
      apply List.map_congr_left
      intro field member
      have same : layout.render (level + 1) field.2.sorted =
          layout.render (level + 1) field.2 :=
        renderFields_sorted fields field ((List.mem_insertionSort _).mp member)
      unfold renderedMember
      dsimp only [Function.comp_apply]
      rw [same]

theorem renderItems_sorted {level : Nat} : (items : List Json) →
    ∀ item ∈ items, layout.render level item.sorted =
      layout.render level item
  | [] => List.forall_mem_nil _
  | item :: rest => List.forall_mem_cons.mpr
      ⟨render_sorted item, renderItems_sorted rest⟩

theorem renderFields_sorted {level : Nat} : (fields : List (Text × Json)) →
    ∀ field ∈ fields, layout.render level field.2.sorted =
      layout.render level field.2
  | [] => List.forall_mem_nil _
  | field :: rest => List.forall_mem_cons.mpr
      ⟨renderField_sorted field, renderFields_sorted rest⟩

theorem renderField_sorted {level : Nat} : (field : Text × Json) →
    layout.render level field.2.sorted = layout.render level field.2
  | (_, value) => render_sorted value

end

end

/-- **Reading what is dumped of a clean value** gives the value, with its keys
in order. -/
theorem loads_compact {value : Json} (distinct : value.DistinctKeys)
    (clean : value.Clean) {depth : Nat} (shallow : nesting value ≤ depth) :
    loads depth (compact.render 0 value) = .ok value.sorted := by
  rw [loads_render compact (Clean.shortIntegers value clean), readBack,
    if_pos shallow]
  exact congrArg Except.ok (reloaded_clean (fun _ _ => rfl) distinct clean)

end Json

end Python
