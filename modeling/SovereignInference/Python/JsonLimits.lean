import SovereignInference.Python.JsonNumbers

/-!
# Limits of the scanner

A value that is read is read alike where more arrays and objects may be
nested.  The scanner fails otherwise than with a `JSONDecodeError` exactly if
it reaches an integer with too many digits, or a bracket inside too many.
-/

namespace Python

open Effects

namespace Json

variable {α : Type}

/-- Unless the first scanner finds too much nested, the second one does the
same. -/
def Extends (scan wider : Scanner α) : Prop :=
  ∀ s, scan s ≠ .error .recursionError → wider s = scan s

theorem bind_extends {β : Type} {first wider : Except ScanError α}
    {rest widerRest : α → Except ScanError β}
    (widens : first ≠ .error .recursionError → wider = first)
    (later : ∀ value, rest value ≠ .error .recursionError →
      widerRest value = rest value)
    (shallow : (first >>= rest) ≠ .error .recursionError) :
    (wider >>= widerRest) = (first >>= rest) := by
  cases first with
  | error error =>
      rw [widens fun deep => shallow (by rw [deep]; rfl)]
      rfl
  | ok value =>
      rw [widens nofun]
      exact later value shallow

private theorem scanSeries_extends {scan wider : Scanner α}
    (widens : Extends scan wider) (close : CodePoint) (fuel : Nat) :
    Extends (scanSeries scan close fuel) (scanSeries wider close fuel) := by
  induction fuel with
  | zero => exact fun s _ => rfl
  | succ fuel induction =>
      intro s
      unfold scanSeries
      apply bind_extends (widens s)
      rintro ⟨item, rest⟩
      dsimp only
      cases scanSeparator close rest with
      | none => exact fun _ => rfl
      | some separator =>
          obtain ⟨more, rest⟩ := separator
          cases more with
          | false => exact fun _ => rfl
          | true => exact bind_extends (induction rest) fun _ _ => rfl

theorem scanBracket_extends {scan wider : Scanner α}
    (widens : Extends scan wider) (close : CodePoint) :
    Extends (scanBracket scan close) (scanBracket wider close) := by
  intro s
  unfold scanBracket
  dsimp only
  split_ifs
  · exact fun _ => rfl
  · exact scanSeries_extends widens close _ _

private theorem scanMember_extends {scan wider : Scanner Json}
    (widens : Extends scan wider) :
    Extends (scanMember scan) (scanMember wider) := by
  intro s
  unfold scanMember
  cases scanKey s with
  | none => exact fun _ => rfl
  | some key => exact bind_extends (widens key.2) fun _ _ => rfl

private theorem scanValue_extends {scan wider : Scanner Json}
    (widens : Extends scan wider) :
    Extends (scanValue scan) (scanValue wider) := by
  intro s
  unfold scanValue
  split_ifs
  · exact bind_extends (scanBracket_extends widens _ _) fun _ _ => rfl
  · exact bind_extends
      (scanBracket_extends (scanMember_extends widens) _ _) fun _ _ => rfl
  · exact fun _ => rfl

private theorem scanOnce_succ (depth : Nat) :
    Extends (scanOnce depth) (scanOnce (depth + 1)) := by
  induction depth with
  | zero =>
      intro s shallow
      unfold scanOnce at shallow ⊢
      split_ifs at shallow ⊢ with opens
      · exact absurd rfl shallow
      · unfold scanValue
        rw [if_neg (fun bracket => opens (.inl bracket)),
          if_neg (fun brace => opens (.inr brace))]
  | succ depth induction => exact scanValue_extends induction

private theorem scanOnce_extends {depth more : Nat} (atLeast : depth ≤ more) :
    Extends (scanOnce depth) (scanOnce more) := by
  induction atLeast with
  | refl => exact fun s _ => rfl
  | step _ induction =>
      intro s shallow
      have same := induction s shallow
      rw [scanOnce_succ _ s (by rw [same]; exact shallow), same]

theorem loads_extends {depth more : Nat} (atLeast : depth ≤ more) {s : Text}
    (shallow : loads depth s ≠ .error .recursionError) :
    loads more s = loads depth s := by
  unfold loads at shallow ⊢
  split_ifs at shallow ⊢
  · rfl
  · rw [scanOnce_extends atLeast]
    intro deep
    rw [deep] at shallow
    exact shallow rfl

/-- A text that is read is read alike where more may be nested. -/
theorem loads_mono {depth more : Nat} (atLeast : depth ≤ more) {s : Text}
    {value : Json} (read : loads depth s = .ok value) :
    loads more s = .ok value := by
  rw [loads_extends atLeast, read]
  rw [read]
  nofun

/-- A scanner that fails on the empty text and reads at least one character of
any other. -/
structure Progress (scan : Scanner α) : Prop where
  empty : scan [] = .error .decodeError
  consumes : ∀ {s item rest}, scan s = .ok (item, rest) →
    rest.length < s.length

private theorem scanUnits_consumes {s : Text} {units : List (Bool × CodePoint)}
    {rest : Text} (read : scanUnits s = some (units, rest)) :
    rest.length < s.length := by
  fun_induction scanUnits s generalizing units rest with
  | case1 => cases read
  | case2 => cases read; simp
  | case3 => cases read
  | case4 w x y z later _ induction =>
      obtain ⟨_, _, read⟩ := Option.bind_eq_some_iff.mp read
      obtain ⟨_, scanned, same⟩ := Option.bind_eq_some_iff.mp read
      cases same
      have shorter := induction scanned
      simp only [List.length_cons]
      omega
  | case5 => cases read
  | case6 letter later _ _ induction =>
      obtain ⟨_, _, read⟩ := Option.bind_eq_some_iff.mp read
      obtain ⟨_, scanned, same⟩ := Option.bind_eq_some_iff.mp read
      cases same
      have shorter := induction scanned
      simp only [List.length_cons]
      omega
  | case7 => cases read
  | case8 c later _ _ _ induction =>
      obtain ⟨_, scanned, same⟩ := Option.bind_eq_some_iff.mp read
      cases same
      have shorter := induction scanned
      simp only [List.length_cons]
      omega

theorem scanString_consumes {s value rest : Text}
    (read : scanString s = some (value, rest)) : rest.length < s.length := by
  obtain ⟨_, scanned, same⟩ := Option.map_eq_some_iff.mp read
  cases same
  exact scanUnits_consumes scanned

theorem length_skipSpace_le (s : Text) : (skipSpace s).length ≤ s.length :=
  (List.dropWhile_suffix _).length_le

theorem scanWord_consumes {s rest : Text} {value : Json}
    (read : scanWord s = some (value, rest)) : rest.length < s.length := by
  obtain ⟨word, found, same⟩ := Option.map_eq_some_iff.mp read
  have matched := List.find?_some found
  have starts : word.1 <+: s := List.isPrefixOf_iff_prefix.mp matched
  have nonempty : ∀ word ∈ words, 0 < word.1.length := by
    decide
  have positive := nonempty word (List.mem_of_find?_eq_some found)
  have short := starts.length_le
  cases same
  rw [List.length_drop]
  omega

private theorem scanNumber_consumes {s rest : Text} {value : Json}
    (read : scanNumber s = .ok (value, rest)) : rest.length < s.length := by
  unfold scanNumber at read
  cases scanned : scanNumeral s with
  | none =>
      rw [scanned] at read
      cases read
  | some parts =>
      obtain ⟨whole, part, later⟩ := parts
      obtain ⟨sign, digits, fraction, places, exponent, _, isWhole, _, _, _,
        rfl, rfl, rfl⟩ := scanNumeral_shape scanned
      have positive := List.length_pos_iff.mpr isWhole.isDigits.2
      have same : later = rest := by
        rw [scanned] at read
        dsimp only at read
        split_ifs at read
        · split at read <;> cases read
          rfl
        · split at read <;> cases read
          rfl
      subst same
      simp only [List.length_append]
      omega

theorem scanLeaf_progress : Progress scanLeaf where
  empty := rfl
  consumes := by
    intro s value rest read
    unfold scanLeaf at read
    split_ifs at read with quoted
    · obtain ⟨later, rfl⟩ := List.head?_eq_some_iff.mp quoted
      cases scanned : scanString later with
      | none => simp [scanned] at read
      | some result =>
          obtain ⟨text, last⟩ := result
          simp only [List.tail_cons, scanned] at read
          cases read
          have shorter := scanString_consumes scanned
          rw [List.length_cons]
          omega
    · cases worded : scanWord s with
      | none =>
          rw [worded] at read
          exact scanNumber_consumes read
      | some result =>
          rw [worded] at read
          cases read
          exact scanWord_consumes worded

theorem scanSeparator_consumes {close : CodePoint} {s rest : Text}
    {more : Bool} (read : scanSeparator close s = some (more, rest)) :
    rest.length < s.length := by
  have skipped := length_skipSpace_le s
  unfold scanSeparator at read
  cases spaced : skipSpace s with
  | nil =>
      rw [spaced] at read
      cases read
  | cons c later =>
      rw [spaced] at read skipped
      rw [List.length_cons] at skipped
      have skippedLater := length_skipSpace_le later
      dsimp only at read
      split_ifs at read <;> cases read <;> omega

private theorem scanSeries_consumes {scan : Scanner α}
    (progress : Progress scan)
    {close : CodePoint} {fuel : Nat} {s rest : Text} {items : List α}
    (read : scanSeries scan close fuel s = .ok (items, rest)) :
    rest.length < s.length := by
  induction fuel generalizing s items rest with
  | zero => cases read
  | succ fuel induction =>
      unfold scanSeries at read
      obtain ⟨⟨item, later⟩, scanned, read⟩ := bind_eq_ok.mp read
      have first := progress.consumes scanned
      dsimp only at read
      cases separated : scanSeparator close later with
      | none =>
          rw [separated] at read
          cases read
      | some separator =>
          obtain ⟨more, last⟩ := separator
          have second := scanSeparator_consumes separated
          rw [separated] at read
          cases more with
          | false =>
              cases read
              omega
          | true =>
              obtain ⟨_, series, same⟩ := bind_eq_ok.mp read
              cases same
              have third := induction series
              omega

theorem scanBracket_consumes {scan : Scanner α} (progress : Progress scan)
    {close : CodePoint} {s rest : Text} {items : List α}
    (read : scanBracket scan close s = .ok (items, rest)) :
    rest.length < s.length := by
  have skipped := length_skipSpace_le s
  unfold scanBracket at read
  dsimp only at read
  split_ifs at read with closes
  · obtain ⟨later, split⟩ := List.head?_eq_some_iff.mp closes
    cases read
    rw [split, List.length_cons] at skipped
    rw [split, List.tail_cons]
    omega
  · have series := scanSeries_consumes progress read
    omega

private theorem scanKey_consumes {s key rest : Text}
    (read : scanKey s = some (key, rest)) : rest.length < s.length := by
  unfold scanKey at read
  split_ifs at read with quoted
  obtain ⟨later, rfl⟩ := List.head?_eq_some_iff.mp (not_not.mp quoted)
  obtain ⟨⟨text, last⟩, scanned, read⟩ := Option.bind_eq_some_iff.mp read
  have shorter := scanString_consumes scanned
  have skipped := length_skipSpace_le last
  dsimp only at read
  split_ifs at read
  cases read
  have skippedLater := length_skipSpace_le (skipSpace last).tail
  rw [List.length_tail] at skippedLater
  rw [List.tail_cons] at shorter
  rw [List.length_cons]
  omega

theorem Progress.member {scan : Scanner Json} (progress : Progress scan) :
    Progress (scanMember scan) where
  empty := rfl
  consumes := by
    intro s member rest read
    unfold scanMember at read
    cases keyed : scanKey s with
    | none =>
        rw [keyed] at read
        cases read
    | some key =>
        rw [keyed] at read
        obtain ⟨_, scanned, same⟩ := bind_eq_ok.mp read
        cases same
        have first := scanKey_consumes keyed
        have second := progress.consumes scanned
        omega

theorem Progress.value {scan : Scanner Json} (progress : Progress scan) :
    Progress (scanValue scan) where
  empty := rfl
  consumes := by
    intro s value rest read
    unfold scanValue at read
    split_ifs at read with bracket brace
    · obtain ⟨_, scanned, same⟩ := bind_eq_ok.mp read
      cases same
      have shorter := scanBracket_consumes progress scanned
      rw [List.length_tail] at shorter
      omega
    · obtain ⟨_, scanned, same⟩ := bind_eq_ok.mp read
      cases same
      have shorter := scanBracket_consumes progress.member scanned
      rw [List.length_tail] at shorter
      omega
    · exact scanLeaf_progress.consumes read

theorem scanOnce_progress (depth : Nat) : Progress (scanOnce depth) := by
  induction depth with
  | zero =>
      constructor
      · rfl
      · intro s value rest read
        unfold scanOnce at read
        split_ifs at read
        exact scanLeaf_progress.consumes read
  | succ depth induction => exact induction.value

/-- A place after the start of a series where the next item is expected. -/
inductive ItemAt (scan : Scanner α) (close : CodePoint) :
    Text → Text → Prop where
  | first (s : Text) : ItemAt scan close s s
  | next {s rest later place : Text} {item : α} :
      scan s = .ok (item, rest) →
      scanSeparator close rest = some (true, later) →
      ItemAt scan close later place →
      ItemAt scan close s place

/-- Reading a value with so many levels left, the scanner gets to a value
inside it, with so many levels left there. -/
inductive Reaches : Nat → Text → Nat → Text → Prop where
  | here (depth : Nat) (s : Text) : Reaches depth s depth s
  | item {depth left : Nat} {s place inner : Text} :
      s.head? = some 0x5B →
      (skipSpace s.tail).head? ≠ some 0x5D →
      ItemAt (scanOnce depth) 0x5D (skipSpace s.tail) place →
      Reaches depth place left inner →
      Reaches (depth + 1) s left inner
  | member {depth left : Nat} {s place key value inner : Text} :
      s.head? = some 0x7B →
      (skipSpace s.tail).head? ≠ some 0x7D →
      ItemAt (scanMember (scanOnce depth)) 0x7D (skipSpace s.tail) place →
      scanKey place = some (key, value) →
      Reaches depth value left inner →
      Reaches (depth + 1) s left inner

/-- An array or object comes next. -/
def Opens (s : Text) : Prop := s.head? = some 0x5B ∨ s.head? = some 0x7B

/-- The scanner gets to an integer with too many digits, or to an array or
object without a level left. -/
def Overruns (depth : Nat) (s : Text) : Prop :=
  ∃ left place, Reaches depth s left place ∧
    (LongInteger place ∨ (left = 0 ∧ Opens place))

/-- A digit comes next, perhaps after a minus sign. -/
def StartsNumber (s : Text) : Prop :=
  ∃ c rest, isDigit c = true ∧ (s = c :: rest ∨ s = 0x2D :: c :: rest)

theorem startsNumber_append {sign digits : Text}
    (signed : sign = [] ∨ sign = [0x2D]) (isWhole : IsWhole digits)
    (rest : Text) : StartsNumber (sign ++ (digits ++ rest)) := by
  obtain ⟨isDigits, nonempty⟩ := isWhole.isDigits
  obtain ⟨c, others, rfl⟩ := List.exists_cons_of_ne_nil nonempty
  refine ⟨c, others ++ rest, isDigits c List.mem_cons_self, ?_⟩
  rcases signed with rfl | rfl
  · exact .inl rfl
  · exact .inr rfl

theorem LongInteger.startsNumber {s : Text} (long : LongInteger s) :
    StartsNumber s := by
  obtain ⟨_, _, rest, scanned, _⟩ := long
  obtain ⟨sign, digits, _, _, _, signed, isWhole, _, _, _, same, _, rfl⟩ :=
    scanNumeral_shape scanned
  rw [same, List.append_nil, List.append_assoc]
  exact startsNumber_append signed isWhole rest

theorem StartsNumber.notOpens {s : Text} (starts : StartsNumber s) :
    ¬ Opens s ∧ s.head? ≠ some 0x22 := by
  obtain ⟨c, rest, digit, rfl | rfl⟩ := starts
  · have different : ∀ d : CodePoint, isDigit d = false →
        (c :: rest).head? ≠ some d := by
      rintro d notDigit same
      rw [← Option.some.inj same, digit] at notDigit
      cases notDigit
    refine ⟨?_, different _ (by decide)⟩
    rintro (same | same)
    · exact different _ (by decide) same
    · exact different _ (by decide) same
  · constructor
    · rintro (same | same) <;> cases same
    · intro same
      cases same

/-- No word starts like a number. -/
theorem StartsNumber.noWord {s : Text} (starts : StartsNumber s) :
    scanWord s = none := by
  obtain ⟨c, rest, digit, split⟩ := starts
  have letters : ∀ word ∈ words, word.1.head?.all (fun d => !isDigit d) &&
      (word.1.take 2).any (fun d => !isDigit d && d != 0x2D) = true := by
    decide
  unfold scanWord
  rw [Option.map_eq_none_iff, List.find?_eq_none]
  rintro ⟨name, value⟩ member matched
  obtain ⟨t, same⟩ := List.isPrefixOf_iff_prefix.mp matched
  have spelled := letters _ member
  dsimp only at spelled same
  rcases name with _ | ⟨d, _ | ⟨e, name⟩⟩
  · cases spelled
  · rcases split with rfl | rfl
    · obtain rfl := (List.cons.inj same).1
      simp [digit] at spelled
    · obtain rfl := (List.cons.inj same).1
      cases spelled
  · rcases split with rfl | rfl
    · obtain rfl := (List.cons.inj same).1
      simp [digit] at spelled
    · have isMinus := (List.cons.inj same).1
      obtain rfl := (List.cons.inj (List.cons.inj same).2).1
      simp [digit, isMinus] at spelled

theorem StartsNumber.scanLeaf {s : Text} (starts : StartsNumber s) :
    scanLeaf s = scanNumber s := by
  unfold Json.scanLeaf
  rw [if_neg starts.notOpens.2, starts.noWord]

theorem scanLeaf_raises {s : Text} :
    Raises (scanLeaf s) ↔ LongInteger s := by
  constructor
  · rintro ⟨error, failed, notDecode⟩
    unfold scanLeaf at failed
    split_ifs at failed
    · split at failed
      · cases failed
      · cases failed
        exact absurd rfl notDecode
    · split at failed
      · cases failed
      · exact (scanNumber_raises s).mp ⟨error, failed, notDecode⟩
  · intro long
    rw [long.startsNumber.scanLeaf]
    exact (scanNumber_raises s).mpr long

theorem raises_bind {β : Type} {first : Except ScanError α}
    {rest : α → Except ScanError β} :
    Raises (first >>= rest) ↔
      Raises first ∨ ∃ value, first = .ok value ∧ Raises (rest value) := by
  cases first with
  | error error => simp [Raises]
  | ok value => simp [Raises]

/-- A series raises where one of its items does. -/
theorem scanSeries_raises {scan : Scanner α} (progress : Progress scan)
    {close : CodePoint} {fuel : Nat} {s : Text} (enough : s.length ≤ fuel) :
    Raises (scanSeries scan close fuel s) ↔
      ∃ place, ItemAt scan close s place ∧ Raises (scan place) := by
  induction fuel generalizing s with
  | zero =>
      obtain rfl := List.length_eq_zero_iff.mp (Nat.le_zero.mp enough)
      refine iff_of_false ?_ ?_
      · rintro ⟨error, same, notDecode⟩
        cases same
        exact notDecode rfl
      · rintro ⟨place, isItem, error, failed, notDecode⟩
        cases isItem with
        | first =>
            rw [progress.empty] at failed
            cases failed
            exact notDecode rfl
        | next scanned =>
            rw [progress.empty] at scanned
            cases scanned
  | succ fuel induction =>
      have later : (∃ place, ItemAt scan close s place ∧ Raises (scan place)) ↔
          Raises (scan s) ∨ ∃ item rest after, scan s = .ok (item, rest) ∧
            scanSeparator close rest = some (true, after) ∧
            ∃ place, ItemAt scan close after place ∧ Raises (scan place) := by
        constructor
        · rintro ⟨place, isItem, raises⟩
          cases isItem with
          | first => exact .inl raises
          | next scanned separated isItem =>
              exact .inr ⟨_, _, _, scanned, separated, place, isItem, raises⟩
        · rintro (raises | ⟨item, rest, after, scanned, separated, place,
            isItem, raises⟩)
          · exact ⟨s, .first s, raises⟩
          · exact ⟨place, .next scanned separated isItem, raises⟩
      rw [later]
      unfold scanSeries
      rw [raises_bind]
      apply or_congr_right
      constructor
      · rintro ⟨⟨item, rest⟩, scanned, raises⟩
        have shorter := progress.consumes scanned
        cases separated : scanSeparator close rest with
        | none =>
            simp only [separated] at raises
            obtain ⟨error, same, notDecode⟩ := raises
            cases same
            exact absurd rfl notDecode
        | some separator =>
            obtain ⟨more, after⟩ := separator
            have shorter' := scanSeparator_consumes separated
            simp only [separated] at raises
            cases more with
            | false =>
                obtain ⟨_, same, _⟩ := raises
                cases same
            | true =>
                rw [raises_bind] at raises
                rcases raises with raises | ⟨_, _, _, same, _⟩
                · exact ⟨item, rest, after, scanned, separated,
                    (induction (by omega)).mp raises⟩
                · cases same
      · rintro ⟨item, rest, after, scanned, separated, place⟩
        have shorter := progress.consumes scanned
        have shorter' := scanSeparator_consumes separated
        refine ⟨(item, rest), scanned, ?_⟩
        simp only [separated]
        rw [raises_bind]
        exact .inl ((induction (by omega)).mpr place)

theorem scanBracket_raises {scan : Scanner α} (progress : Progress scan)
    {close : CodePoint} {s : Text} :
    Raises (scanBracket scan close s) ↔ (skipSpace s).head? ≠ some close ∧
      ∃ place, ItemAt scan close (skipSpace s) place ∧ Raises (scan place) := by
  unfold scanBracket
  dsimp only
  split_ifs with closes
  · refine iff_of_false ?_ fun both => both.1 closes
    rintro ⟨_, same, _⟩
    cases same
  · rw [scanSeries_raises progress le_rfl]
    exact (and_iff_right closes).symm

theorem scanMember_raises {scan : Scanner Json} {s : Text} :
    Raises (scanMember scan s) ↔
      ∃ key value, scanKey s = some (key, value) ∧ Raises (scan value) := by
  unfold scanMember
  cases keyed : scanKey s with
  | none =>
      refine iff_of_false ?_ ?_
      · rintro ⟨error, same, notDecode⟩
        cases same
        exact notDecode rfl
      · rintro ⟨_, _, same, _⟩
        cases same
  | some found =>
      obtain ⟨key, value⟩ := found
      dsimp only
      rw [raises_bind]
      constructor
      · rintro (raises | ⟨_, _, _, same, _⟩)
        · exact ⟨key, value, rfl, raises⟩
        · cases same
      · rintro ⟨_, _, same, raises⟩
        cases same
        exact .inl raises

theorem overruns_zero {s : Text} :
    Overruns 0 s ↔ LongInteger s ∨ Opens s := by
  constructor
  · rintro ⟨left, place, reaches, limit⟩
    cases reaches
    exact limit.imp_right And.right
  · intro limit
    exact ⟨0, s, .here 0 s, limit.imp_right fun opens => ⟨rfl, opens⟩⟩

theorem overruns_succ {depth : Nat} {s : Text} :
    Overruns (depth + 1) s ↔ LongInteger s ∨
      (s.head? = some 0x5B ∧ (skipSpace s.tail).head? ≠ some 0x5D ∧
        ∃ place, ItemAt (scanOnce depth) 0x5D (skipSpace s.tail) place ∧
          Overruns depth place) ∨
      (s.head? = some 0x7B ∧ (skipSpace s.tail).head? ≠ some 0x7D ∧
        ∃ place, ItemAt (scanMember (scanOnce depth)) 0x7D (skipSpace s.tail)
            place ∧
          ∃ key value, scanKey place = some (key, value) ∧
            Overruns depth value) := by
  constructor
  · rintro ⟨left, place, reaches, limit⟩
    cases reaches with
    | here =>
        left
        exact limit.resolve_right fun deep => absurd deep.1 (by simp)
    | item opens notEmpty isItem reaches =>
        exact .inr (.inl ⟨opens, notEmpty, _, isItem, left, place, reaches,
          limit⟩)
    | member opens notEmpty isItem keyed reaches =>
        exact .inr (.inr ⟨opens, notEmpty, _, isItem, _, _, keyed, left, place,
          reaches, limit⟩)
  · rintro (long | ⟨opens, notEmpty, _, isItem, left, place, reaches, limit⟩ |
      ⟨opens, notEmpty, _, isItem, _, _, keyed, left, place, reaches, limit⟩)
    · exact ⟨depth + 1, s, .here _ _, .inl long⟩
    · exact ⟨left, place, .item opens notEmpty isItem reaches, limit⟩
    · exact ⟨left, place, .member opens notEmpty isItem keyed reaches, limit⟩

theorem raises_ok {value : α} :
    ¬ Raises (Except.ok value : Except ScanError α) := by
  rintro ⟨_, same, _⟩
  cases same

/-- **The scanner fails otherwise than with a `JSONDecodeError` exactly where
it gets to a limit.** -/
theorem scanOnce_raises {depth : Nat} {s : Text} :
    Raises (scanOnce depth s) ↔ Overruns depth s := by
  induction depth generalizing s with
  | zero =>
      rw [overruns_zero]
      unfold scanOnce
      split_ifs with opens
      · exact iff_of_true ⟨_, rfl, nofun⟩ (.inr opens)
      · rw [scanLeaf_raises]
        exact (or_iff_left opens).symm
  | succ depth induction =>
      have progress := scanOnce_progress depth
      rw [overruns_succ]
      change Raises (scanValue (scanOnce depth) s) ↔ _
      unfold scanValue
      split_ifs with bracket brace
      · have notBrace : s.head? ≠ some 0x7B := by
          rw [bracket]
          decide
        have notLong : ¬ LongInteger s := fun long =>
          long.startsNumber.notOpens.1 (.inl bracket)
        rw [raises_bind, or_iff_left (by
            rintro ⟨_, _, raises⟩
            exact raises_ok raises),
          scanBracket_raises progress, or_iff_right notLong,
          or_iff_left (fun object => notBrace object.1),
          and_iff_right bracket]
        simp only [induction]
      · have notLong : ¬ LongInteger s := fun long =>
          long.startsNumber.notOpens.1 (.inr brace)
        rw [raises_bind, or_iff_left (by
            rintro ⟨_, _, raises⟩
            exact raises_ok raises),
          scanBracket_raises progress.member, or_iff_right notLong,
          or_iff_right (fun array => bracket array.1), and_iff_right brace]
        simp only [scanMember_raises, induction]
      · rw [scanLeaf_raises]
        simp only [bracket, brace, false_and, or_false]

/-- `json.loads` fails so on the text after the space at its start. -/
theorem loads_raises {depth : Nat} {s : Text} :
    Raises (loads depth s) ↔ s.head? ≠ some 0xFEFF ∧
      Overruns depth (skipSpace s) := by
  rw [← scanOnce_raises]
  unfold loads
  split_ifs with mark
  · refine iff_of_false ?_ fun both => both.1 mark
    rintro ⟨error, same, notDecode⟩
    cases same
    exact notDecode rfl
  · rw [and_iff_right mark]
    cases scanOnce depth (skipSpace s) with
    | error error =>
        constructor
        · rintro ⟨_, same, notDecode⟩
          cases same
          exact ⟨_, rfl, notDecode⟩
        · rintro ⟨_, same, notDecode⟩
          cases same
          exact ⟨_, rfl, notDecode⟩
    | ok result =>
        dsimp only
        refine iff_of_false ?_ raises_ok
        split_ifs
        · exact raises_ok
        · rintro ⟨error, same, notDecode⟩
          cases same
          exact notDecode rfl

end Json

end Python
