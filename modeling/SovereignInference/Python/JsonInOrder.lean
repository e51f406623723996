import SovereignInference.Python.JsonBytes

/-!
# Writing members in their order

Without `sort_keys` the members of an object are written in their order.  What
is then read of a clean value is the value itself.
-/

namespace Python

open Arithmetic Effects

namespace Json

/-- A layout, with the spaces after and before brackets. -/
structure Style extends Layout where
  /-- What stands before the first of some items. -/
  first : Nat → Text
  /-- What stands after the last one. -/
  last : Nat → Text
  firsts : ∀ level, ∀ c ∈ first level, isJsonSpace c = true
  lasts : ∀ level, ∀ c ∈ last level, isJsonSpace c = true

/-- The items stand on the lines of the layout. -/
def Layout.style (layout : Layout) : Style :=
  { layout with
    first := fun level => layout.line (level + 1), last := layout.line
    firsts := fun level => layout.lines (level + 1), lasts := layout.lines }

namespace Style

variable (style : Style)

/-- Items between brackets. -/
def bracketed (opening closing : CodePoint) (level : Nat)
    (items : List Text) : Text :=
  if items = [] then [opening, closing]
  else
    opening :: style.first level ++
      join (0x2C :: style.line (level + 1)) items ++
      style.last level ++ [closing]

mutual

/-- The text of a value inside so many brackets. -/
def write (level : Nat) : Json → Text
  | .null => "null"
  | .bool value => if value then "true" else "false"
  | .int value => intText value
  | .float value => floatText value
  | .str value => style.quote value
  | .arr items =>
      style.bracketed 0x5B 0x5D level (writeItems (level + 1) items)
  | .obj fields => style.bracketed 0x7B 0x7D level
      ((writeFields (level + 1) fields).map style.member)

def writeItems (level : Nat) : List Json → List Text
  | [] => []
  | item :: rest => write level item :: writeItems level rest

def writeFields (level : Nat) : List (Text × Json) → List (Text × Text)
  | [] => []
  | field :: rest => writeField level field :: writeFields level rest

def writeField (level : Nat) : Text × Json → Text × Text
  | (key, value) => (key, write level value)

end

theorem writeItems_map (level : Nat) (items : List Json) :
    style.writeItems level items = items.map (style.write level) := by
  induction items with
  | nil => rfl
  | cons item rest induction => simp [writeItems, induction]

/-- A member as it is written. -/
def writtenMember (level : Nat) (field : Text × Json) : Text :=
  style.member (field.1, style.write level field.2)

theorem writeFields_map (level : Nat) (fields : Dict) :
    (style.writeFields level fields).map style.member =
      fields.map (style.writtenMember level) := by
  induction fields with
  | nil => rfl
  | cons field rest induction =>
      obtain ⟨key, value⟩ := field
      rw [writeFields, List.map_cons, List.map_cons, induction]
      rfl

theorem starts_bracketed {opening : CodePoint}
    (opens : isJsonSpace opening = false ∧ opening ≠ 0x5D ∧
      opening.val < 0x7D) (closing : CodePoint) (level : Nat)
    (items : List Text) :
    Starts (style.bracketed opening closing level items) := by
  unfold bracketed
  split_ifs
  · exact ⟨_, _, rfl, opens⟩
  · exact ⟨_, _, rfl, opens⟩

theorem head_bracketed (opening closing : CodePoint) (level : Nat)
    (items : List Text) (rest : Text) :
    (style.bracketed opening closing level items ++ rest).head? =
      some opening := by
  unfold bracketed
  split_ifs <;> rfl

variable {α β : Type} {close : CodePoint} {scan : Scanner α}
  {written : β → Text} {outcome : β → Except ScanError α}

/-- The scanner reads items between brackets. -/
theorem scanBracket_written {opening : CodePoint} (closes : Closes close)
    (level : Nat) (rest : Text) {items : List β}
    (each : ∀ item ∈ items, ScansTo scan (written item) (outcome item)) :
    scanBracket scan close
        (style.bracketed opening close level (items.map written) ++
          rest).tail =
      (items.mapM outcome).map fun values => (values, rest) := by
  unfold bracketed
  cases items with
  | nil =>
      exact Json.scanBracket_written style.toLayout closes level rest each
  | cons item others =>
      have starts := (each item List.mem_cons_self).1
      have nonempty : ∀ s ∈ (item :: others).map written, s ≠ [] := by
        intro s member
        obtain ⟨other, isItem, rfl⟩ := List.mem_map.mp member
        obtain ⟨c, later, split, _⟩ := (each other isItem).1
        rw [split]
        exact List.cons_ne_nil c later
      have firsts := style.firsts level
      have lines := style.lines (level + 1)
      have lasts := style.lasts level
      generalize style.first level = first at *
      generalize style.line (level + 1) = line at *
      generalize style.last level = last at *
      have atLeast := length_le_join (0x2C :: line) nonempty
      rw [List.length_map] at atLeast
      obtain ⟨more, joined⟩ : ∃ more,
          join (0x2C :: line) ((item :: others).map written) =
            written item ++ more :=
        join_starts _ _ _
      rw [if_neg (by simp)]
      simp only [List.cons_append, List.append_assoc, List.tail_cons,
        List.nil_append]
      rw [joined, List.append_assoc, scanBracket_spaces closes firsts starts,
        ← List.append_assoc, ← joined]
      apply scanSeries_written closes lines lasts rest (List.cons_ne_nil _ _)
        each
      rw [List.length_append]
      omega

end Style

/-- A value, where so many arrays and objects may be nested. -/
def readWhole (depth : Nat) (value : Json) : Except ScanError Json :=
  if nesting value ≤ depth then .ok value else .error .recursionError

theorem mapM_readWhole (depth : Nat) (items : List Json) :
    items.mapM (readWhole depth) =
      if nestingItems items ≤ depth then .ok items
      else .error .recursionError := by
  have whole := @mapM_ite _ _ _ (fun item => nesting item ≤ depth) _ id
    ScanError.recursionError items
  rw [List.map_id] at whole
  simp only [nestingItems_le]
  exact whole

section

variable {style : Style} (kept : ∀ s, Encodable s → style.reads s = s)

include kept

private theorem mapM_readFields (depth : Nat) {fields : Dict}
    (clean : ∀ field ∈ fields, Encodable field.1) :
    (fields.mapM fun field => (readWhole depth field.2).map fun value =>
        (style.reads field.1, value)) =
      if nestingFields fields ≤ depth then .ok fields
      else .error .recursionError := by
  have each : (fun field : Text × Json => (readWhole depth field.2).map
      fun value => (style.reads field.1, value)) = fun field =>
        if nesting field.2 ≤ depth then
          .ok (style.reads field.1, field.2)
        else .error .recursionError := by
    funext field
    unfold readWhole
    split_ifs <;> rfl
  have same : fields.map (fun field => (style.reads field.1, field.2)) =
      fields := by
    refine (List.map_congr_left fun field member => ?_).trans fields.map_id
    rw [kept field.1 (clean field member)]
    rfl
  rw [each, mapM_ite, same]
  simp only [nestingFields_le]

/-- **The scanner reads what is written** in order. -/
theorem scansTo_write {value : Json} (distinct : value.DistinctKeys)
    (clean : value.Clean) {depth level : Nat} :
    ScansTo (scanOnce depth) (style.write level value)
      (readWhole depth value) := by
  induction distinct generalizing depth level with
  | null =>
      have member : (text "null", Json.null) ∈ words := by simp [words]
      exact scansTo_word member depth
  | bool value =>
      cases value with
      | true =>
          have member : (text "true", Json.bool true) ∈ words := by
            simp [words]
          exact scansTo_word member depth
      | false =>
          have member : (text "false", Json.bool false) ∈ words := by
            simp [words]
          exact scansTo_word member depth
  | int value => exact scansTo_int clean depth
  | float value =>
      have scans := scansTo_float style.reads value depth
      have number := isNumber_iff.mp (isNumber_of_isFinite clean)
      rwa [reloaded, number, if_neg Bool.false_ne_true] at scans
  | str value =>
      have scans := scansTo_string style.toLayout value depth
      rwa [kept value clean] at scans
  | arr items _ induction =>
      rw [clean_arr] at clean
      rw [Style.write, style.writeItems_map]
      refine ⟨style.starts_bracketed (by decide) _ _ _, ?_⟩
      intro rest _
      have opens := style.head_bracketed 0x5B 0x5D level
        (items.map (style.write (level + 1))) rest
      unfold readWhole
      rw [nesting]
      cases depth with
      | zero =>
          rw [scanOnce_zero (.inl opens), if_neg (by omega)]
          rfl
      | succ depth =>
          change scanValue (scanOnce depth) _ = _
          unfold scanValue
          rw [if_pos opens, style.scanBracket_written (.inl rfl) level rest
            fun item member => induction item member (clean item member),
            mapM_readWhole]
          simp only [Nat.add_le_add_iff_right]
          split_ifs <;> rfl
  | obj fields nodup _ induction =>
      rw [clean_obj] at clean
      rw [Style.write, style.writeFields_map]
      refine ⟨style.starts_bracketed (by decide) _ _ _, ?_⟩
      intro rest _
      have opens := style.head_bracketed 0x7B 0x7D level
        (fields.map (style.writtenMember (level + 1))) rest
      unfold readWhole
      rw [nesting]
      cases depth with
      | zero =>
          rw [scanOnce_zero (.inr opens), if_neg (by omega)]
          rfl
      | succ depth =>
          change scanValue (scanOnce depth) _ = _
          unfold scanValue
          have members : ∀ field ∈ fields,
              ScansTo (scanMember (scanOnce depth))
                (style.writtenMember (level + 1) field)
                ((readWhole depth field.2).map fun value =>
                  (style.reads field.1, value)) :=
            fun field member => scansTo_member style.toLayout field.1
              (induction field member (clean field member).2)
          rw [if_neg (by rw [opens]; decide), if_pos opens,
            style.scanBracket_written (.inr rfl) level rest members,
            mapM_readFields kept depth fun field member =>
              (clean field member).1]
          simp only [Nat.add_le_add_iff_right]
          split_ifs
          · simp only [Except.map, ok_bind, dictOf_nodup nodup]
            rfl
          · rfl

/-- **`json.loads` of what is written in order** gives the value. -/
theorem loads_write {value : Json} (distinct : value.DistinctKeys)
    (clean : value.Clean) (depth : Nat) :
    loads depth (style.write 0 value) = readWhole depth value := by
  obtain ⟨starts, scanned⟩ :=
    @scansTo_write style kept value distinct clean depth 0
  have noMark : (style.write 0 value).head? ≠ some 0xFEFF := by
    obtain ⟨c, rest, split, _, _, small⟩ := starts
    rw [split]
    rintro ⟨⟩
    exact absurd small (by decide)
  have whole := scanned [] (by nofun)
  have spaced := starts.skipSpace []
  rw [List.append_nil] at whole spaced
  unfold loads
  rw [if_neg noMark, spaced, whole]
  cases readWhole depth value <;> rfl

end

private theorem scanNumber_flat :
    Gives scanNumber fun value => nesting value = 0 := by
  intro s value rest read
  unfold scanNumber at read
  split at read
  · cases read
  · split_ifs at read
    · split at read <;> cases read
      rfl
    · split at read <;> cases read
      rfl

private theorem scanLeaf_flat :
    Gives scanLeaf fun value => nesting value = 0 := by
  have each : ∀ word ∈ words, nesting word.2 = 0 := by
    simp [words, nesting]
  intro s value rest read
  unfold scanLeaf at read
  split_ifs at read
  · split at read <;> cases read
    rfl
  · split at read
    · rename_i worded
      obtain ⟨word, found, same⟩ := Option.map_eq_some_iff.mp worded
      cases same
      cases read
      exact each word (List.mem_of_find?_eq_some found)
    · exact scanNumber_flat _ _ _ read

private theorem scanOnce_nesting (depth : Nat) :
    Gives (scanOnce depth) fun value => nesting value ≤ depth := by
  induction depth with
  | zero =>
      intro s value rest read
      unfold scanOnce at read
      split_ifs at read
      exact (scanLeaf_flat _ _ _ read).le
  | succ depth induction =>
      intro s value rest read
      change scanValue (scanOnce depth) s = _ at read
      unfold scanValue at read
      split_ifs at read
      · obtain ⟨⟨items, _⟩, scanned, same⟩ := bind_eq_ok.mp read
        cases same
        have each := scanBracket_gives induction _ _ _ _ scanned
        exact Nat.succ_le_succ (nestingItems_le.mpr each)
      · obtain ⟨⟨members, _⟩, scanned, same⟩ := bind_eq_ok.mp read
        cases same
        have each := scanBracket_gives (scanMember_gives induction) _ _ _ _
          scanned
        exact Nat.succ_le_succ (nestingFields_le.mpr fun field member =>
          each field (dictOf_fields member))
      · exact (scanLeaf_flat _ _ _ read).le.trans (Nat.zero_le _)

/-- No value that is read is nested too deeply. -/
theorem loads_nesting {depth : Nat} {s : Text} {value : Json}
    (read : loads depth s = .ok value) : nesting value ≤ depth := by
  unfold loads at read
  split_ifs at read
  split at read
  · rename_i scanned
    split_ifs at read
    cases read
    exact scanOnce_nesting depth _ _ _ scanned
  · cases read

/-- What a style writes satisfies a predicate, and so does printed ASCII. -/
structure Style.Keeps (style : Style) (Good : CodePoint → Prop) : Prop
    extends style.toLayout.Keeps Good where
  first : ∀ level, ∀ c ∈ style.first level, Good c
  last : ∀ level, ∀ c ∈ style.last level, Good c

namespace Style.Keeps

variable {style : Style} {Good : CodePoint → Prop}

theorem bracketed (keeps : style.Keeps Good) {opening closing : CodePoint}
    (opens : Printed opening) (closes : Printed closing) (level : Nat)
    {items : List Text} (each : ∀ item ∈ items, ∀ c ∈ item, Good c) :
    ∀ c ∈ style.bracketed opening closing level items, Good c := by
  have good := keeps.printed opening opens
  have good' := keeps.printed closing closes
  have comma : ∀ c ∈ 0x2C :: style.line (level + 1), Good c :=
    List.forall_mem_cons.mpr ⟨keeps.printed _ (by decide), keeps.line _⟩
  unfold Style.bracketed
  split_ifs
  · exact List.forall_mem_cons.mpr ⟨good, List.forall_mem_singleton.mpr good'⟩
  · simp only [List.cons_append, List.forall_mem_cons, List.forall_mem_append]
    exact ⟨good, ⟨⟨keeps.first _, Layout.Keeps.join comma each⟩,
      keeps.last _⟩, good', List.forall_mem_nil _⟩

/-- **Every character that is written** satisfies the predicate. -/
theorem write (keeps : style.Keeps Good) {value : Json}
    (distinct : value.DistinctKeys) {level : Nat} :
    ∀ c ∈ style.write level value, Good c := by
  induction distinct generalizing level with
  | null => exact keeps.word (by simp [words] : (text "null", .null) ∈ words)
  | bool value =>
      cases value with
      | true =>
          exact keeps.word
            (by simp [words] : (text "true", .bool true) ∈ words)
      | false =>
          exact keeps.word
            (by simp [words] : (text "false", .bool false) ∈ words)
  | int value =>
      exact fun c member => keeps.printed c (intText_printed value c member)
  | float value =>
      exact fun c member => keeps.printed c (floatText_printed value c member)
  | str value => exact keeps.quote value
  | arr items _ induction =>
      rw [Style.write, style.writeItems_map]
      apply keeps.bracketed (by decide) (by decide) level
      rw [List.forall_mem_map]
      exact fun item member => induction item member
  | obj fields _ _ induction =>
      rw [Style.write, style.writeFields_map]
      apply keeps.bracketed (by decide) (by decide) level
      rw [List.forall_mem_map]
      exact fun field member => keeps.member (induction field member)

end Style.Keeps

theorem bracketed_compact_style (opening closing : CodePoint) (level : Nat)
    (items : List Text) :
    compact.style.bracketed opening closing level items =
      opening :: join [0x2C] items ++ [closing] :=
  bracketed_compact opening closing level items

theorem member_compact_style : compact.style.member = writeMember :=
  member_compact

theorem compact_style_keeps : compact.style.Keeps fun c => 0 < c.val :=
  { compact_keeps with
    first := fun _ => List.forall_mem_nil _
    last := fun _ => List.forall_mem_nil _ }

mutual

/-- What is dumped of a clean value is written so. -/
theorem dump_inOrder (level : Nat) : (value : Json) → value.Clean →
    dump false value = .ok (compact.style.write level value)
  | .null, _ => rfl
  | .bool _, _ => rfl
  | .int value, short => by
      rw [dump, Style.write, intRepr, if_pos ((clean_int value).mp short)]
  | .float value, isFinite => by
      change value.isFinite = true at isFinite
      rw [dump, Style.write, if_pos isFinite, floatText_finite isFinite]
  | .str _, _ => rfl
  | .arr items, clean => by
      rw [dump, dumpItems_inOrder (level + 1) items clean, Style.write,
        bracketed_compact_style]
      rfl
  | .obj fields, clean => by
      rw [dump, dumpFields_inOrder (level + 1) fields clean, Style.write,
        bracketed_compact_style, member_compact_style]
      rfl

theorem dumpItems_inOrder (level : Nat) : (items : List Json) →
    CleanItems items →
      dumpItems false items = .ok (compact.style.writeItems level items)
  | [], _ => rfl
  | item :: rest, clean => by
      rw [dumpItems, dump_inOrder level item clean.1,
        dumpItems_inOrder level rest clean.2]
      rfl

theorem dumpFields_inOrder (level : Nat) : (fields : List (Text × Json)) →
    CleanFields fields →
      dumpFields false fields = .ok (compact.style.writeFields level fields)
  | [], _ => rfl
  | field :: rest, clean => by
      rw [dumpFields, dumpField_inOrder level field clean.1,
        dumpFields_inOrder level rest clean.2]
      rfl

theorem dumpField_inOrder (level : Nat) : (field : Text × Json) →
    CleanField field →
      dumpField false field = .ok (compact.style.writeField level field)
  | (_, value), clean => by
      rw [dumpField, dump_inOrder level value clean.2]
      rfl

end

/-- **What is sent as JSON is received as it was**, or found to be nested too
deeply. -/
theorem loadsBytes_dumpBytes (codecs : Codecs) (depth : Nat) {value : Json}
    (distinct : value.DistinctKeys) {bytes : Bytes}
    (sent : dumpBytes false value = .ok bytes) :
    loadsBytes codecs depth bytes = some (readWhole depth value) := by
  have clean := (dumpBytes_isOk false value).mp ⟨bytes, sent⟩
  have encoded : encodeUtf8 (compact.style.write 0 value) = .ok bytes := by
    unfold dumpBytes at sent
    rwa [dump_inOrder 0 value clean] at sent
  have kept : ∀ s, Encodable s → compact.style.reads s = s := fun _ _ => rfl
  obtain ⟨c, s, split, _, _, small⟩ :=
    (@scansTo_write compact.style kept value distinct clean depth 0).1
  have positive :=
    @Style.Keeps.write compact.style _ compact_style_keeps value distinct 0
  have decoded := decodeUtf8_eq_some.mpr encoded
  have whole := loads_write kept distinct clean depth
  rw [split] at encoded positive
  have ascii : c.val < 0x80 := small.trans (by decide)
  unfold loadsBytes
  rw [detectEncoding_text ascii positive encoded,
    codecs.utf8 bytes _ decoded, Option.map_some, whole]

/-- What was received from bytes can be sent and received again. -/
theorem loadsBytes_readable {codecs : Codecs} {depth : Nat} {bytes : Bytes}
    {value : Json} (read : loadsBytes codecs depth bytes = some (.ok value)) :
    value.DistinctKeys ∧ nesting value ≤ depth := by
  obtain ⟨s, _, loaded⟩ := Option.map_eq_some_iff.mp read
  exact ⟨loads_distinctKeys loaded, loads_nesting loaded⟩

end Json

end Python
