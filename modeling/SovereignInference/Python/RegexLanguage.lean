import SovereignInference.Python.Schema

/-!
# The languages of the patterns

A pattern accepts a set of strings.  What can be left of a string is what
remains after an accepted prefix, so a search finds exactly the accepted
strings, with or without a newline at the end.
-/

namespace Python.Regex

/-- The strings of a pattern. -/
def Accepts : Regex → Text → Prop
  | .literal word, s => s = word
  | .repeated ranges least most, s =>
      (∀ c ∈ s, inRanges ranges c = true) ∧ least ≤ s.length ∧
        ∀ bound ∈ most, s.length ≤ bound
  | .seq first second, s =>
      ∃ front back, s = front ++ back ∧ first.Accepts front ∧
        second.Accepts back
  | .optional body, s => s = [] ∨ body.Accepts s

theorem takeWhile_length {p : CodePoint → Bool} {front back : Text}
    (all : ∀ c ∈ front, p c = true) :
    front.length ≤ ((front ++ back).takeWhile p).length := by
  rw [List.takeWhile_append_of_pos all, List.length_append]
  exact Nat.le_add_right _ _

theorem take_all {p : CodePoint → Bool} {s : Text} {count : Nat}
    (within : count ≤ (s.takeWhile p).length) : ∀ c ∈ s.take count, p c = true := by
  intro c member
  have isPrefix : s.take count <+: s.takeWhile p := by
    rw [List.prefix_iff_eq_take.mp (List.takeWhile_prefix p)]
    exact List.take_prefix_take_left within
  exact List.mem_takeWhile_imp (isPrefix.subset member)

/-- How many characters a repetition can take. -/
theorem longest_le (ranges : List (Nat × Nat)) (most : Option Nat) (s : Text) :
    (most.map (min (s.takeWhile (inRanges ranges)).length)).getD
        (s.takeWhile (inRanges ranges)).length ≤
      (s.takeWhile (inRanges ranges)).length := by
  cases most with
  | none => exact le_rfl
  | some bound => exact min_le_left _ _

private theorem mem_rests (pattern : Regex) {s rest : Text} :
    rest ∈ pattern.rests s ↔
      ∃ front, s = front ++ rest ∧ pattern.Accepts front := by
  induction pattern generalizing s rest with
  | literal word =>
      simp only [rests, Accepts]
      by_cases isPrefix : startsWith s word = true
      · obtain ⟨back, rfl⟩ := List.isPrefixOf_iff_prefix.mp isPrefix
        rw [if_pos isPrefix, List.mem_singleton]
        simp [eq_comm]
      · rw [if_neg isPrefix]
        simp only [List.not_mem_nil, false_iff, not_exists, not_and]
        rintro front rfl rfl
        exact isPrefix (List.isPrefixOf_iff_prefix.mpr ⟨rest, rfl⟩)
  | repeated ranges least most =>
      simp only [rests, Accepts, List.mem_map, List.mem_range'_1]
      constructor
      · rintro ⟨count, ⟨low, high⟩, rfl⟩
        have longest := longest_le ranges most s
        have within : count ≤ (s.takeWhile (inRanges ranges)).length := by
          omega
        have short : (s.takeWhile (inRanges ranges)).length ≤ s.length :=
          (List.takeWhile_prefix _).length_le
        have length : (s.take count).length = count := by
          rw [List.length_take]
          omega
        refine ⟨s.take count, (List.take_append_drop _ _).symm,
          take_all within, ?_, ?_⟩
        · rw [length]
          exact low
        · intro bound isMost
          rw [length]
          cases isMost
          simp only [Option.map_some, Option.getD_some] at high
          omega
      · rintro ⟨front, rfl, all, low, high⟩
        have within := @takeWhile_length _ _ rest all
        refine ⟨front.length, ⟨low, ?_⟩, List.drop_left⟩
        cases most with
        | none =>
            simp only [Option.map_none, Option.getD_none]
            omega
        | some bound =>
            have few := high bound rfl
            simp only [Option.map_some, Option.getD_some]
            omega
  | seq first second first_ih second_ih =>
      simp only [rests, Accepts, List.mem_flatMap, first_ih, second_ih]
      constructor
      · rintro ⟨middle, ⟨front, rfl, accepts⟩, back, rfl, accepts'⟩
        exact ⟨front ++ back, by simp, front, back, rfl, accepts, accepts'⟩
      · rintro ⟨_, rfl, front, back, rfl, accepts, accepts'⟩
        exact ⟨back ++ rest, ⟨front, by simp, accepts⟩, back, rfl, accepts'⟩
  | optional body induction =>
      simp only [rests, Accepts, List.mem_cons, induction]
      constructor
      · rintro (rfl | ⟨front, rfl, accepts⟩)
        · exact ⟨[], rfl, .inl rfl⟩
        · exact ⟨front, rfl, .inr accepts⟩
      · rintro ⟨front, rfl, rfl | accepts⟩
        · exact .inl rfl
        · exact .inr ⟨front, rfl, accepts⟩

theorem matchesText_iff (pattern : Regex) {s : Text} :
    pattern.matchesText s = true ↔
      ∃ front, pattern.Accepts front ∧ (s = front ∨ s = front ++ [0x0A]) := by
  unfold matchesText
  rw [List.any_eq_true]
  constructor
  · rintro ⟨rest, left, isEnd⟩
    obtain ⟨front, rfl, accepts⟩ := pattern.mem_rests.mp left
    rcases of_decide_eq_true isEnd with rfl | rfl
    · exact ⟨front, accepts, .inl (List.append_nil front)⟩
    · exact ⟨front, accepts, .inr rfl⟩
  · rintro ⟨front, accepts, rfl | rfl⟩
    · exact ⟨[], pattern.mem_rests.mpr ⟨s, by simp, accepts⟩, by simp⟩
    · exact ⟨[0x0A], pattern.mem_rests.mpr ⟨front, rfl, accepts⟩, by simp⟩

end Python.Regex
