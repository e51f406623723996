import SovereignInference.Python.JsonReading
import SovereignInference.Python.MemberOrder

/-!
# Dicts that are read

The last value of each key is kept, so no dict in what `json.loads` gives has
a key twice.
-/

namespace Python

open Effects

namespace Json

private theorem set_new {fields : Dict} {key : Text} {value : Json}
    (absent : key ∉ fields.map (·.1)) :
    fields.set key value = fields ++ [(key, value)] := by
  unfold Dict.set
  rw [if_neg]
  intro known
  obtain ⟨field, member, same⟩ := List.any_eq_true.mp known
  exact absent (List.mem_map.mpr ⟨field, member, of_decide_eq_true same⟩)

/-- Members with different keys are the fields. -/
theorem dictOf_nodup {members : List (Text × Json)}
    (nodup : (members.map (·.1)).Nodup) : dictOf members = members := by
  have all : ∀ later before : List (Text × Json),
      ((before ++ later).map (·.1)).Nodup →
      later.foldl (fun fields member => Dict.set fields member.1 member.2)
        before = before ++ later := by
    intro later
    induction later with
    | nil => exact fun before _ => (List.append_nil before).symm
    | cons member rest induction =>
        intro before nodup
        have absent : member.1 ∉ before.map (·.1) := by
          intro known
          rw [List.map_append] at nodup
          exact (List.nodup_append.mp nodup).2.2 _ known _
            List.mem_cons_self rfl
        rw [List.foldl_cons, set_new absent, induction, List.append_assoc]
        · rfl
        · rw [List.append_assoc]
          exact nodup
  exact all members [] nodup

private theorem set_keys {fields : Dict} {key other : Text} {value : Json}
    (known : other ∈ (fields.set key value).map (·.1)) :
    other = key ∨ other ∈ fields.map (·.1) := by
  unfold Dict.set at known
  split_ifs at known
  · obtain ⟨field, member, rfl⟩ := List.mem_map.mp known
    obtain ⟨field', member', rfl⟩ := List.mem_map.mp member
    split_ifs
    · exact .inl rfl
    · exact .inr (List.mem_map_of_mem member')
  · rw [List.map_append, List.mem_append] at known
    rcases known with earlier | new
    · exact .inr earlier
    · exact .inl (List.mem_singleton.mp new)

theorem dictOf_keys {members : List (Text × Json)} {key : Text}
    (known : key ∈ (dictOf members).map (·.1)) :
    key ∈ members.map (·.1) := by
  have all : ∀ later before : List (Text × Json),
      key ∈ (later.foldl (fun fields member =>
        Dict.set fields member.1 member.2) before).map (·.1) →
      key ∈ before.map (·.1) ∨ key ∈ later.map (·.1) := by
    intro later
    induction later with
    | nil => exact fun before known => .inl known
    | cons member rest induction =>
        intro before known
        rcases induction _ known with earlier | later
        · rcases set_keys earlier with rfl | earlier
          · exact .inr List.mem_cons_self
          · exact .inl earlier
        · exact .inr (List.mem_cons_of_mem _ later)
  exact (all members [] known).resolve_left (List.not_mem_nil)

theorem set_keys_nodup {fields : Dict} (nodup : (fields.map (·.1)).Nodup)
    (key : Text) (value : Json) :
    ((fields.set key value).map (·.1)).Nodup := by
  unfold Dict.set
  split_ifs with known
  · have keys : (fields.map fun field =>
        if field.1 = key then (key, value) else field).map (·.1) =
        fields.map (·.1) := by
      rw [List.map_map]
      apply List.map_congr_left
      intro field _
      by_cases here : field.1 = key
      · simp [here]
      · simp [here]
    rw [keys]
    exact nodup
  · rw [List.map_append, List.nodup_append]
    refine ⟨nodup, List.nodup_singleton key, ?_⟩
    rintro other member _ isKey rfl
    obtain rfl := List.mem_singleton.mp isKey
    obtain ⟨field, listed, same⟩ := List.mem_map.mp member
    exact known (List.any_eq_true.mpr ⟨field, listed, decide_eq_true same⟩)

theorem set_fields {fields : Dict} {key : Text} {value : Json}
    {field : Text × Json} (member : field ∈ fields.set key value) :
    field = (key, value) ∨ field ∈ fields := by
  unfold Dict.set at member
  split_ifs at member
  · obtain ⟨original, listed, rfl⟩ := List.mem_map.mp member
    split_ifs
    · exact .inl rfl
    · exact .inr listed
  · rcases List.mem_append.mp member with earlier | new
    · exact .inr earlier
    · exact .inl (List.mem_singleton.mp new)

theorem dictOf_keys_nodup (members : List (Text × Json)) :
    ((dictOf members).map (·.1)).Nodup := by
  unfold dictOf
  induction members using List.reverseRecOn with
  | nil => exact List.nodup_nil
  | append_singleton rest member induction =>
      rw [List.foldl_append]
      exact set_keys_nodup induction _ _

theorem dictOf_fields {members : List (Text × Json)} {field : Text × Json}
    (member : field ∈ dictOf members) : field ∈ members := by
  unfold dictOf at member
  induction members using List.reverseRecOn with
  | nil => exact member
  | append_singleton rest last induction =>
      rw [List.foldl_append] at member
      rcases set_fields member with rfl | earlier
      · exact List.mem_append_right _ List.mem_cons_self
      · exact List.mem_append_left _ (induction earlier)

section

variable {α : Type} {P : α → Prop} {scan : Scanner α}

/-- Whatever the scanner reads is such a value. -/
def Gives (scan : Scanner α) (P : α → Prop) : Prop :=
  ∀ s value rest, scan s = .ok (value, rest) → P value

private theorem scanSeries_gives (gives : Gives scan P) (close : CodePoint)
    (fuel : Nat) :
    Gives (scanSeries scan close fuel) fun items => ∀ item ∈ items, P item := by
  induction fuel with
  | zero => exact fun _ _ _ read => nomatch read
  | succ fuel induction =>
      intro s items rest read
      unfold scanSeries at read
      obtain ⟨⟨item, later⟩, scanned, read⟩ := bind_eq_ok.mp read
      have first := gives s item later scanned
      dsimp only at read
      cases separated : scanSeparator close later with
      | none =>
          rw [separated] at read
          cases read
      | some separator =>
          obtain ⟨more, last⟩ := separator
          rw [separated] at read
          cases more with
          | false =>
              cases read
              exact List.forall_mem_singleton.mpr first
          | true =>
              obtain ⟨_, series, same⟩ := bind_eq_ok.mp read
              cases same
              exact List.forall_mem_cons.mpr
                ⟨first, induction _ _ _ series⟩

theorem scanBracket_gives (gives : Gives scan P) (close : CodePoint) :
    Gives (scanBracket scan close) fun items => ∀ item ∈ items, P item := by
  intro s items rest read
  unfold scanBracket at read
  dsimp only at read
  split_ifs at read
  · cases read
    exact List.forall_mem_nil P
  · exact scanSeries_gives gives close _ _ _ _ read

end

theorem scanMember_gives {P : Json → Prop} {scan : Scanner Json}
    (gives : Gives scan P) :
    Gives (scanMember scan) fun member => P member.2 := by
  intro s member rest read
  unfold scanMember at read
  cases keyed : scanKey s with
  | none =>
      rw [keyed] at read
      cases read
  | some key =>
      rw [keyed] at read
      obtain ⟨_, scanned, same⟩ := bind_eq_ok.mp read
      cases same
      exact gives _ _ _ scanned

private theorem scanNumber_distinctKeys : Gives scanNumber DistinctKeys := by
  intro s value rest read
  unfold scanNumber at read
  split at read
  · cases read
  · split_ifs at read
    · split at read <;> cases read
      exact .int _
    · split at read <;> cases read
      exact .float _

theorem scanLeaf_distinctKeys : Gives scanLeaf DistinctKeys := by
  have each : ∀ word ∈ words, DistinctKeys word.2 := by
    simp only [words, List.forall_mem_cons]
    exact ⟨.null, .bool _, .bool _, .float _, .float _, .float _,
      List.forall_mem_nil _⟩
  intro s value rest read
  unfold scanLeaf at read
  split_ifs at read
  · split at read <;> cases read
    exact .str _
  · split at read
    · rename_i worded
      obtain ⟨word, found, same⟩ := Option.map_eq_some_iff.mp worded
      cases same
      cases read
      exact each word (List.mem_of_find?_eq_some found)
    · exact scanNumber_distinctKeys _ _ _ read

private theorem scanValue_distinctKeys {inside : Scanner Json}
    (gives : Gives inside DistinctKeys) :
    Gives (scanValue inside) DistinctKeys := by
  intro s value rest read
  unfold scanValue at read
  split_ifs at read
  · obtain ⟨⟨items, _⟩, scanned, same⟩ := bind_eq_ok.mp read
    cases same
    exact .arr items (scanBracket_gives gives _ _ _ _ scanned)
  · obtain ⟨⟨members, _⟩, scanned, same⟩ := bind_eq_ok.mp read
    cases same
    have each := scanBracket_gives (scanMember_gives gives) _ _ _ _ scanned
    exact .obj _ (dictOf_keys_nodup members) fun field member =>
      each field (dictOf_fields member)
  · exact scanLeaf_distinctKeys _ _ _ read

private theorem scanOnce_distinctKeys (depth : Nat) :
    Gives (scanOnce depth) DistinctKeys := by
  induction depth with
  | zero =>
      intro s value rest read
      unfold scanOnce at read
      split_ifs at read
      exact scanLeaf_distinctKeys _ _ _ read
  | succ depth induction => exact scanValue_distinctKeys induction

/-- **No dict that is read has a key twice.** -/
theorem loads_distinctKeys {depth : Nat} {s : Text} {value : Json}
    (read : loads depth s = .ok value) : value.DistinctKeys := by
  unfold loads at read
  split_ifs at read
  split at read
  · rename_i scanned
    split_ifs at read
    cases read
    exact scanOnce_distinctKeys depth _ _ _ scanned
  · cases read

end Json

end Python
