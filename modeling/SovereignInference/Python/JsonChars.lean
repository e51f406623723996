import SovereignInference.Python.JsonRoundTrip

/-!
# The characters that are written

Outside of strings and spaces, `json.dumps` writes printed ASCII only.  So what
holds of these characters, and of what a layout writes for strings and spaces,
holds of all that is written.
-/

namespace Python.Json

/-- A printed character of ASCII, or the delete character. -/
def Printed (c : CodePoint) : Prop := 0x20 ≤ c.val ∧ c.val < 0x80

instance (c : CodePoint) : Decidable (Printed c) :=
  inferInstanceAs (Decidable (0x20 ≤ c.val ∧ c.val < 0x80))

theorem inNumeral_printed {s : Text} (isNumeral : ∀ c ∈ s, InNumeral c) :
    ∀ c ∈ s, Printed c := by
  intro c member
  have bounds := (isNumeral c member).bounds
  exact ⟨by omega, bounds.2.1⟩

theorem sign_inNumeral {sign : Text} (signed : sign = [] ∨ sign = [0x2D]) :
    ∀ c ∈ sign, InNumeral c := by
  rcases signed with rfl | rfl
  · exact List.forall_mem_nil _
  · exact List.forall_mem_singleton.mpr (.inr (.inr (.inl rfl)))

theorem words_printed {word : Text × Json} (member : word ∈ words) :
    ∀ c ∈ word.1, Printed c := by
  have all : (words.all fun word => word.1.all fun c => decide (Printed c)) =
      true := by decide
  have printed := List.all_eq_true.mp (List.all_eq_true.mp all word member)
  exact fun c inWord => of_decide_eq_true (printed c inWord)

theorem intText_printed (value : Int) : ∀ c ∈ intText value, Printed c := by
  apply inNumeral_printed
  unfold intText
  have digits := inNumeral_digits (isDigits_natText value.natAbs)
  split_ifs
  · exact List.forall_mem_cons.mpr ⟨.inr (.inr (.inl rfl)), digits⟩
  · exact digits

theorem floatText_printed (value : Float) :
    ∀ c ∈ floatText value, Printed c := by
  unfold floatText
  split_ifs with _ isFinite
  · have member : (text "NaN", Json.float floatNan) ∈ words := by simp [words]
    exact words_printed member
  · obtain ⟨sign, digits, fraction, places, exponent, _, signed, isWhole,
      isFraction, isPlaces, isExponent, _, split, _⟩ :=
        floatRepr_reads isFinite
    have fractionPlain : ∀ c ∈ fraction, InNumeral c :=
      isFraction.inNumeral isPlaces
    apply inNumeral_printed
    rw [split]
    simp only [List.forall_mem_append]
    exact ⟨sign_inNumeral signed, ⟨inNumeral_digits isWhole.isDigits.1,
      fractionPlain⟩, isExponent.inNumeral⟩
  · have member : (text "-Infinity", Json.float (-floatInfinity)) ∈ words := by
      simp [words]
    exact words_printed member
  · have member : (text "Infinity", Json.float floatInfinity) ∈ words := by
      simp [words]
    exact words_printed member

/-- What a layout writes satisfies a predicate, and so does printed ASCII. -/
structure Layout.Keeps (layout : Layout) (Good : CodePoint → Prop) :
    Prop where
  printed : ∀ c, Printed c → Good c
  quote : ∀ s, ∀ c ∈ layout.quote s, Good c
  line : ∀ level, ∀ c ∈ layout.line level, Good c
  gap : ∀ c ∈ layout.gap, Good c

namespace Layout.Keeps

variable {layout : Layout} {Good : CodePoint → Prop}

theorem join {separator : Text} (good : ∀ c ∈ separator, Good c)
    {items : List Text} (each : ∀ item ∈ items, ∀ c ∈ item, Good c) :
    ∀ c ∈ Json.join separator items, Good c := by
  induction items with
  | nil => exact List.forall_mem_nil _
  | cons item rest induction =>
      obtain ⟨first, others⟩ := List.forall_mem_cons.mp each
      cases rest with
      | nil => exact first
      | cons next rest =>
          exact List.forall_mem_append.mpr
            ⟨List.forall_mem_append.mpr ⟨first, good⟩, induction others⟩

theorem bracketed (keeps : layout.Keeps Good) {opening closing : CodePoint}
    (opens : Printed opening) (closes : Printed closing) (level : Nat)
    {items : List Text} (each : ∀ item ∈ items, ∀ c ∈ item, Good c) :
    ∀ c ∈ layout.bracketed opening closing level items, Good c := by
  have good := keeps.printed opening opens
  have good' := keeps.printed closing closes
  have comma : ∀ c ∈ 0x2C :: layout.line (level + 1), Good c :=
    List.forall_mem_cons.mpr ⟨keeps.printed _ (by decide), keeps.line _⟩
  unfold Layout.bracketed
  split_ifs
  · exact List.forall_mem_cons.mpr ⟨good, List.forall_mem_singleton.mpr good'⟩
  · simp only [List.cons_append, List.forall_mem_cons, List.forall_mem_append]
    exact ⟨good, ⟨⟨keeps.line _, join comma each⟩, keeps.line _⟩, good',
      List.forall_mem_nil _⟩

theorem member (keeps : layout.Keeps Good) {member : Text × Text}
    (each : ∀ c ∈ member.2, Good c) : ∀ c ∈ layout.member member, Good c := by
  unfold Layout.member
  simp only [List.forall_mem_append, List.forall_mem_cons]
  exact ⟨⟨keeps.quote _, keeps.printed _ (by decide), keeps.gap⟩, each⟩

theorem word (keeps : layout.Keeps Good) {word : Text × Json}
    (member : word ∈ words) : ∀ c ∈ word.1, Good c := fun c inWord =>
  keeps.printed c (words_printed member c inWord)

mutual

/-- **Every character that is written** satisfies the predicate. -/
theorem render (keeps : layout.Keeps Good) {level : Nat} : (value : Json) →
    ∀ c ∈ layout.render level value, Good c
  | .null => keeps.word (by simp [words] : (text "null", .null) ∈ words)
  | .bool true =>
      keeps.word (by simp [words] : (text "true", .bool true) ∈ words)
  | .bool false =>
      keeps.word (by simp [words] : (text "false", .bool false) ∈ words)
  | .int value => fun c member =>
      keeps.printed c (intText_printed value c member)
  | .float value => fun c member =>
      keeps.printed c (floatText_printed value c member)
  | .str value => keeps.quote value
  | .arr items =>
      keeps.bracketed (by decide) (by decide) level (keeps.renderItems items)
  | .obj fields => by
      rw [Layout.render]
      apply keeps.bracketed (by decide) (by decide)
      intro line member
      obtain ⟨written, listed, rfl⟩ := List.mem_map.mp member
      have isField := (List.mem_insertionSort _).mp listed
      exact keeps.member (keeps.renderFields fields written isField)

theorem renderItems (keeps : layout.Keeps Good) {level : Nat} :
    (items : List Json) →
      ∀ item ∈ layout.renderItems level items, ∀ c ∈ item, Good c
  | [] => List.forall_mem_nil _
  | item :: rest => List.forall_mem_cons.mpr
      ⟨keeps.render item, keeps.renderItems rest⟩

theorem renderFields (keeps : layout.Keeps Good) {level : Nat} :
    (fields : List (Text × Json)) →
      ∀ field ∈ layout.renderFields level fields, ∀ c ∈ field.2, Good c
  | [] => List.forall_mem_nil _
  | field :: rest => List.forall_mem_cons.mpr
      ⟨keeps.renderField field, keeps.renderFields rest⟩

theorem renderField (keeps : layout.Keeps Good) {level : Nat} :
    (field : Text × Json) →
      ∀ c ∈ (layout.renderField level field).2, Good c
  | (_, value) => keeps.render value

end

end Layout.Keeps

end Python.Json
