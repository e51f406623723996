import SovereignInference.Python.Json

/-!
# Which values have a JSON encoding

A value is clean if its strings and keys have no lone surrogate, its floats are
finite and its integers are short enough to be written.  Exactly the clean
values can be dumped to bytes.
-/

namespace Python

open Effects

private theorem isSurrogate_digitText {value : Nat} (digit : value < 10) :
    isSurrogate (digitText value) = false := by
  have small : (digitText value).val = 0x30 + value := by
    show (0x30 + value) % 0x110000 = 0x30 + value
    omega
  simp only [isSurrogate, small]
  simp
  omega

private theorem encodable_natDigits (fuel value : Nat) (later : Text)
    (plain : Encodable later) : Encodable (natDigits fuel value later) := by
  induction fuel generalizing value later with
  | zero => exact plain
  | succ fuel induction =>
      have digits : Encodable (digitText (value % 10) :: later) := by
        simp [plain, isSurrogate_digitText (Nat.mod_lt value (by decide))]
      unfold natDigits
      dsimp only
      split_ifs
      · exact digits
      · exact induction _ _ digits

theorem encodable_natText (value : Nat) : Encodable (natText value) :=
  encodable_natDigits _ _ _ encodable_nil

theorem encodable_intText (value : Int) : Encodable (intText value) := by
  unfold intText
  split_ifs
  · simp [encodable_natText, isSurrogate]
  · exact encodable_natText _

theorem encodable_rstrip {c : CodePoint} {s : Text} (plain : Encodable s) :
    Encodable (rstrip c s) := by
  apply plain.of_subset
  intro d member
  unfold rstrip at member
  rw [List.mem_reverse] at member
  exact List.mem_reverse.mp (List.dropWhile_subset _ member)

theorem encodable_shortestDigits (x : Float) :
    Encodable (shortestDigits x).1 := by
  unfold shortestDigits
  dsimp only
  split_ifs
  · simp [isSurrogate]
  · split
    · exact encodable_nil
    · exact encodable_rstrip (encodable_natText _)

theorem encodable_leftPad (width : Nat) {s : Text} (plain : Encodable s) :
    Encodable (leftPad width s) := by
  unfold leftPad
  rw [encodable_append]
  exact ⟨encodable_replicate (by decide) _, plain⟩

theorem encodable_take {s : Text} (plain : Encodable s) (count : Nat) :
    Encodable (s.take count) :=
  plain.of_subset (List.take_subset _ _)

private theorem encodable_drop {s : Text} (plain : Encodable s) (count : Nat) :
    Encodable (s.drop count) :=
  plain.of_subset (List.drop_subset _ _)

theorem encodable_floatRepr (x : Float) : Encodable (floatRepr x) := by
  have digits := encodable_shortestDigits x
  unfold floatRepr nonFiniteText
  generalize shortestDigits x = parts at digits
  obtain ⟨written, point⟩ := parts
  have tail : Encodable written.tail :=
    digits.of_subset fun _ => List.mem_of_mem_tail
  have zeros : ∀ count, Encodable (List.replicate count 0x30) :=
    encodable_replicate (by decide)
  have exponent := encodable_leftPad 2 (encodable_natText (point - 1).natAbs)
  dsimp only at digits ⊢
  split_ifs <;>
    simp [digits, tail, zeros, exponent, encodable_take digits,
      encodable_drop digits, isSurrogate]

namespace Json

mutual

/-- Everything in the value can be written and encoded. -/
def Clean : Json → Prop
  | .int value => value.natAbs < 10 ^ maxStrDigits
  | .float value => value.isFinite
  | .str value => Encodable value
  | .arr items => CleanItems items
  | .obj fields => CleanFields fields
  | _ => True

def CleanItems : List Json → Prop
  | [] => True
  | item :: rest => item.Clean ∧ CleanItems rest

def CleanFields : List (Text × Json) → Prop
  | [] => True
  | field :: rest => CleanField field ∧ CleanFields rest

def CleanField : Text × Json → Prop
  | (key, value) => Encodable key ∧ value.Clean

end

private theorem cleanItems_iff (items : List Json) :
    CleanItems items ↔ ∀ item ∈ items, item.Clean := by
  induction items with
  | nil => simp [CleanItems]
  | cons item rest induction => simp [CleanItems, induction]

theorem cleanFields_iff (fields : Dict) :
    CleanFields fields ↔
      ∀ field ∈ fields, Encodable field.1 ∧ field.2.Clean := by
  induction fields with
  | nil => simp [CleanFields]
  | cons field rest induction =>
      obtain ⟨key, value⟩ := field
      simp [CleanFields, CleanField, induction]

@[simp] theorem clean_null : Clean .null := trivial

@[simp] theorem clean_bool (value : Bool) : Clean (.bool value) := trivial

@[simp] theorem clean_int (value : Int) :
    Clean (.int value) ↔ value.natAbs < 10 ^ maxStrDigits := Iff.rfl

@[simp] theorem clean_str (value : Text) :
    Clean (.str value) ↔ Encodable value := Iff.rfl

@[simp] theorem clean_arr (items : List Json) :
    Clean (.arr items) ↔ ∀ item ∈ items, item.Clean := cleanItems_iff items

@[simp] theorem clean_obj (fields : Dict) :
    Clean (.obj fields) ↔
      ∀ field ∈ fields, Encodable field.1 ∧ field.2.Clean :=
  cleanFields_iff fields

theorem encodable_hexDigits (width value : Nat) :
    Encodable (hexDigits width value) := by
  intro c member
  obtain ⟨place, _, rfl⟩ := List.mem_map.mp member
  have digit : value / 16 ^ place % 16 < 16 := Nat.mod_lt _ (by decide)
  generalize value / 16 ^ place % 16 = n at digit
  revert n
  decide

theorem encodable_quoteJson (s : Text) :
    Encodable (quoteJson s) ↔ Encodable s := by
  have each : ∀ c, Encodable (escapeJson c) ↔ isSurrogate c = false := by
    intro c
    unfold escapeJson
    split
    case h_8 n =>
      split_ifs with control
      · have plain : isSurrogate c = false := by
          simp only [isSurrogate]
          simp
          omega
        simp [plain, encodable_hexDigits]
      · simp
    all_goals
      rename_i equality
      simp [isSurrogate, equality]
  simp [quoteJson, encodable_flatMap each, isSurrogate]

theorem encodable_join {separator : Text} (plain : Encodable separator)
    (items : List Text) :
    Encodable (join separator items) ↔ ∀ item ∈ items, Encodable item := by
  induction items with
  | nil => simp [join]
  | cons item rest induction =>
      cases rest with
      | nil => simp [join]
      | cons next rest => simp [join, plain, induction]

private theorem encodable_writeMember (member : Text × Text) :
    Encodable (writeMember member) ↔
      Encodable member.1 ∧ Encodable member.2 := by
  have colon : isSurrogate 0x3A = false := by decide
  simp [writeMember, encodable_quoteJson, colon]

theorem encodable_object (members : List (Text × Text)) :
    Encodable (0x7B :: join [0x2C] (members.map writeMember) ++ [0x7D]) ↔
      ∀ member ∈ members, Encodable member.1 ∧ Encodable member.2 := by
  have comma : Encodable [0x2C] := by simp [isSurrogate]
  have brace : isSurrogate 0x7B = false ∧ Encodable [0x7D] := by
    simp [isSurrogate]
  rw [encodable_append, encodable_cons, encodable_join comma,
    List.forall_mem_map]
  simp only [brace, true_and, and_true, encodable_writeMember]

/-- A dumped value can be encoded. -/
def Dumps (sortKeys : Bool) (value : Json) : Prop :=
  ∃ written, dump sortKeys value = .ok written ∧ Encodable written

mutual

theorem dumps_iff (sortKeys : Bool) :
    ∀ value : Json, value.Dumps sortKeys ↔ value.Clean
  | .null => by simp [Dumps, dump]
  | .bool value => by
      cases value <;> simp [Dumps, dump]
  | .int value => by
      unfold Dumps dump intRepr
      split_ifs with short
      · simp [encodable_intText, short]
      · simp [short]
  | .float value => by
      unfold Dumps dump Clean
      split_ifs with finite
      · simp [encodable_floatRepr, finite]
      · simp [finite]
  | .str value => by
      simp [Dumps, dump, encodable_quoteJson]
  | .arr items => by
      have each := dumpsItems_iff sortKeys items
      have bracket : isSurrogate 0x5B = false ∧ isSurrogate 0x5D = false := by
        decide
      have comma : Encodable [0x2C] := by simp [isSurrogate]
      unfold Dumps dump Clean
      rw [← each]
      cases dumpItems sortKeys items with
      | error error => simp
      | ok written => simp [bracket, encodable_join comma]
  | .obj fields => by
      have each := dumpsFields_iff sortKeys fields
      unfold Dumps dump Clean
      rw [← each]
      cases dumpFields sortKeys fields with
      | error error => simp
      | ok members =>
          have sorted : ∀ member, member ∈ sortMembers members ↔
              member ∈ members := fun member =>
            List.mem_insertionSort _
          cases sortKeys with
          | false =>
              simp only [ok_bind, pure_eq_ok, Except.ok.injEq,
                exists_eq_left', Bool.false_eq_true, if_false,
                encodable_object]
          | true =>
              simp only [ok_bind, pure_eq_ok, Except.ok.injEq,
                exists_eq_left', if_true, encodable_object, sorted]

theorem dumpsItems_iff (sortKeys : Bool) :
    ∀ items : List Json,
      (∃ written, dumpItems sortKeys items = .ok written ∧
        ∀ item ∈ written, Encodable item) ↔ CleanItems items
  | [] => by simp [dumpItems, CleanItems]
  | item :: rest => by
      have head := dumps_iff sortKeys item
      have tail := dumpsItems_iff sortKeys rest
      unfold dumpItems CleanItems
      rw [← head, ← tail]
      unfold Dumps
      cases dump sortKeys item with
      | error error => simp
      | ok written =>
          cases dumpItems sortKeys rest with
          | error error => simp
          | ok others => simp

theorem dumpsFields_iff (sortKeys : Bool) :
    ∀ fields : List (Text × Json),
      (∃ members, dumpFields sortKeys fields = .ok members ∧
        ∀ member ∈ members, Encodable member.1 ∧ Encodable member.2) ↔
        CleanFields fields
  | [] => by simp [dumpFields, CleanFields]
  | field :: rest => by
      have head := dumpsField_iff sortKeys field
      have tail := dumpsFields_iff sortKeys rest
      unfold dumpFields CleanFields
      rw [← head, ← tail]
      cases dumpField sortKeys field with
      | error error => simp
      | ok member =>
          cases dumpFields sortKeys rest with
          | error error => simp
          | ok others =>
              simp only [ok_bind, pure_eq_ok, Except.ok.injEq,
                exists_eq_left', List.forall_mem_cons]

theorem dumpsField_iff (sortKeys : Bool) :
    ∀ field : Text × Json,
      (∃ member, dumpField sortKeys field = .ok member ∧
        Encodable member.1 ∧ Encodable member.2) ↔ CleanField field
  | (key, value) => by
      have written := dumps_iff sortKeys value
      unfold dumpField CleanField
      rw [← written]
      unfold Dumps
      cases dump sortKeys value with
      | error error => simp
      | ok text => simp

end

/-- Exactly the clean values have bytes. -/
theorem dumpBytes_isOk (sortKeys : Bool) (value : Json) :
    (∃ bytes, dumpBytes sortKeys value = .ok bytes) ↔ value.Clean := by
  rw [← dumps_iff sortKeys value]
  unfold dumpBytes Dumps
  cases dump sortKeys value with
  | error error => simp
  | ok written => simp [encodeUtf8_isOk]

end Json

end Python
