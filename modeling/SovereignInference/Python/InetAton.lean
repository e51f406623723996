import SovereignInference.Python.IpAddress
import Mathlib.Data.List.Forall2

/-!
# Spellings of addresses

Resolvers read numeric hosts by a wider grammar than `ipaddress`: one to four
parts, each decimal, octal or hexadecimal, where the last part fills what the
others leave.  What `ipaddress` reads, they read alike.
-/

namespace Python.IpAddress

/-- Digits of a base; there is at least one. -/
def readBase (base : Nat) (digits : Text) : Option Nat :=
  if digits = [] then none
  else
    digits.foldlM (fun value c => do
      let digit ← hexDigit c
      if digit < base then some (value * base + digit) else none) 0

/-- A part of a numeric host: hexadecimal after `0x`, octal after `0`. -/
def readPart : Text → Option Nat
  | zero :: c :: rest =>
      if zero.val = 0x30 then
        if c.val = 0x78 ∨ c.val = 0x58 then readBase 16 rest
        else readBase 8 (c :: rest)
      else readBase 10 (zero :: c :: rest)
  | part => readBase 10 part

/-- The address of a numeric host. -/
def inetAton (s : Text) : Option (BitVec 32) :=
  match (s.splitOn 0x2E).mapM readPart with
  | some [a] => if a < 2 ^ 32 then some (.ofNat 32 a) else none
  | some [a, b] =>
      if a < 256 ∧ b < 2 ^ 24 then some (.ofNat 32 (a * 2 ^ 24 + b)) else none
  | some [a, b, c] =>
      if a < 256 ∧ b < 256 ∧ c < 2 ^ 16 then
        some (.ofNat 32 ((a * 256 + b) * 2 ^ 16 + c))
      else none
  | some [a, b, c, d] =>
      if a < 256 ∧ b < 256 ∧ c < 256 ∧ d < 256 then
        some (.ofNat 32 (((a * 256 + b) * 256 + c) * 256 + d))
      else none
  | _ => none

private theorem foldlM_digits {octet : Text} {digits : List Nat}
    (read : octet.mapM asciiDigit = some digits) (value : Nat) :
    octet.foldlM (fun value c => do
      let digit ← hexDigit c
      if digit < 10 then some (value * 10 + digit) else none) value =
        some (digits.foldl (fun value digit => value * 10 + digit) value) := by
  induction octet generalizing digits value with
  | nil =>
      cases read
      rfl
  | cons c rest induction =>
      rw [List.mapM_cons] at read
      obtain ⟨digit, isDigit, read⟩ := Option.bind_eq_some_iff.mp read
      obtain ⟨others, readRest, same⟩ := Option.bind_eq_some_iff.mp read
      cases same
      unfold asciiDigit at isDigit
      split_ifs at isDigit with bounds
      cases isDigit
      have isHex : hexDigit c = some (c.val - 0x30) := if_pos bounds
      have small : c.val - 0x30 < 10 := by omega
      rw [List.foldlM_cons, List.foldl_cons, isHex]
      simp only [Option.bind_eq_bind, Option.bind_some, if_pos small]
      exact induction readRest _

theorem readPart_of_parseOctet {octet : Text} {n : Nat}
    (parsed : parseOctet octet = some n) :
    readPart octet = some n ∧ n < 256 := by
  obtain ⟨digits, read, parsed⟩ := Option.bind_eq_some_iff.mp parsed
  dsimp only at parsed
  split_ifs at parsed with bounds leading
  cases parsed
  rw [not_or, not_or] at bounds
  have decimal : readBase 10 octet =
      some (digits.foldl (fun value digit => value * 10 + digit) 0) := by
    unfold readBase
    rw [if_neg bounds.1]
    exact foldlM_digits read 0
  refine ⟨?_, by omega⟩
  match octet, bounds, leading, decimal with
  | [c], _, _, decimal => exact decimal
  | zero :: c :: rest, _, leading, decimal =>
      have nonzero : zero.val ≠ 0x30 := by
        intro isZero
        apply leading
        refine ⟨?_, by simp⟩
        rw [List.head?_cons]
        congr 1
        exact Fin.ext isZero
      rw [readPart, if_neg nonzero]
      exact decimal

theorem mapM_eq_some {α β : Type} {f : α → Option β} {items : List α}
    {values : List β} :
    items.mapM f = some values ↔
      List.Forall₂ (fun item value => f item = some value) items values := by
  induction items generalizing values with
  | nil =>
      rw [List.mapM_nil, List.forall₂_nil_left_iff]
      constructor
      · intro same
        cases same
        rfl
      · rintro rfl
        rfl
  | cons item rest induction =>
      rw [List.mapM_cons, List.forall₂_cons_left_iff]
      constructor
      · intro mapped
        obtain ⟨value, here, mapped⟩ := Option.bind_eq_some_iff.mp mapped
        obtain ⟨others, there, same⟩ := Option.bind_eq_some_iff.mp mapped
        cases same
        exact ⟨value, others, here, induction.mp there, rfl⟩
      · rintro ⟨value, others, here, there, rfl⟩
        rw [here, induction.mpr there]
        rfl

theorem mapM_of_mem {α β : Type} {f : α → Option β} {items : List α}
    {values : List β} (mapped : items.mapM f = some values) {item : α}
    (member : item ∈ items) : ∃ value, f item = some value := by
  have each := mapM_eq_some.mp mapped
  clear mapped
  induction each with
  | nil => cases member
  | cons here _ induction =>
      rcases List.mem_cons.mp member with rfl | later
      · exact ⟨_, here⟩
      · exact induction later

/-- What `ipaddress` reads as an address, resolvers read alike. -/
theorem inetAton_of_parseV4 {s : Text} {address : BitVec 32}
    (parsed : parseV4 s = some address) : inetAton s = some address := by
  unfold parseV4 at parsed
  split at parsed
  · rename_i a b c d octets
    have parts := (mapM_eq_some.mp octets).imp fun _ _ => readPart_of_parseOctet
    have values : (s.splitOn 0x2E).mapM readPart = some [a, b, c, d] :=
      mapM_eq_some.mpr (parts.imp fun _ _ both => both.1)
    have small : a < 256 ∧ b < 256 ∧ c < 256 ∧ d < 256 := by
      generalize s.splitOn 0x2E = all at parts
      rcases parts with _ | ⟨first, _ | ⟨second, _ | ⟨third, _ | ⟨fourth, _⟩⟩⟩⟩
      exact ⟨first.2, second.2, third.2, fourth.2⟩
    unfold inetAton
    rw [values]
    dsimp only
    rw [if_pos small]
    exact parsed
  · cases parsed

/-- A character of a numeric host. -/
def IsNumeric (c : CodePoint) : Prop :=
  c.val = 0x2E ∨ (hexDigit c).isSome ∨ c.val = 0x78 ∨ c.val = 0x58

private theorem readBase_mem {base : Nat} {digits : Text} {n : Nat}
    (read : readBase base digits = some n) {c : CodePoint}
    (member : c ∈ digits) : (hexDigit c).isSome := by
  unfold readBase at read
  split_ifs at read
  revert read
  generalize (0 : Nat) = value
  intro read
  induction digits generalizing value with
  | nil => cases member
  | cons d rest induction =>
      rw [List.foldlM_cons] at read
      obtain ⟨next, here, later⟩ := Option.bind_eq_some_iff.mp read
      rcases List.mem_cons.mp member with rfl | inRest
      · obtain ⟨digit, isDigit, _⟩ := Option.bind_eq_some_iff.mp here
        rw [isDigit]
        rfl
      · by_cases last : rest = []
        · rw [last] at inRest
          cases inRest
        · exact induction inRest last next later

private theorem readPart_mem {part : Text} {n : Nat}
    (read : readPart part = some n)
    {c : CodePoint} (member : c ∈ part) : IsNumeric c := by
  match part, read, member with
  | [d], read, member => exact .inr (.inl (readBase_mem read member))
  | zero :: d :: rest, read, member =>
      rw [readPart] at read
      split_ifs at read with isZero isHex
      · rcases List.mem_cons.mp member with rfl | member
        · exact .inr (.inl (by simp [hexDigit, isZero]))
        · rcases List.mem_cons.mp member with rfl | member
          · exact .inr (.inr isHex)
          · exact .inr (.inl (readBase_mem read member))
      · rcases List.mem_cons.mp member with rfl | member
        · exact .inr (.inl (by simp [hexDigit, isZero]))
        · exact .inr (.inl (readBase_mem read member))
      · exact .inr (.inl (readBase_mem read member))

theorem inetAton_mem {s : Text} {address : BitVec 32}
    (read : inetAton s = some address) {c : CodePoint} (member : c ∈ s) :
    IsNumeric c := by
  by_cases point : c = 0x2E
  · exact .inl (congrArg Fin.val point)
  · obtain ⟨part, isPart, inPart⟩ := mem_splitOn.mpr ⟨member, point⟩
    obtain ⟨values, mapped⟩ : ∃ values,
        (s.splitOn 0x2E).mapM readPart = some values := by
      unfold inetAton at read
      cases mapped : (s.splitOn 0x2E).mapM readPart with
      | none =>
          rw [mapped] at read
          cases read
      | some values => exact ⟨values, rfl⟩
    obtain ⟨n, readHere⟩ := mapM_of_mem mapped isPart
    exact readPart_mem readHere inPart

/-- Numeric hosts are in ASCII and have no colon. -/
theorem IsNumeric.bounds {c : CodePoint} (numeric : IsNumeric c) :
    c.val = 0x2E ∨ (0x30 ≤ c.val ∧ c.val ≤ 0x39) ∨
      (0x41 ≤ c.val ∧ c.val ≤ 0x46) ∨ (0x61 ≤ c.val ∧ c.val ≤ 0x66) ∨
      c.val = 0x78 ∨ c.val = 0x58 := by
  rcases numeric with point | digit | isX
  · exact .inl point
  · unfold hexDigit at digit
    split_ifs at digit
    · omega
    · omega
    · omega
    · cases digit
  · omega

theorem colon_not_mem_of_inetAton {s : Text} {address : BitVec 32}
    (read : inetAton s = some address) : (0x3A : CodePoint) ∉ s := by
  intro member
  have bounds := (inetAton_mem read member).bounds
  revert bounds
  decide

theorem parseParts_singleton (part : Text) : parseParts [part] = none := by
  have low : ∀ hextets, parseLow [part] = some hextets →
      hextets.length ≠ 8 := by
    intro hextets parsed
    unfold parseLow at parsed
    split at parsed
    · cases parsed
      decide
    · simp only [List.dropLast_singleton, List.mapM_nil, List.getLastD_cons,
        Option.pure_def, Option.bind_eq_bind, Option.bind_some,
        Option.bind_eq_some_iff] at parsed
      obtain ⟨own, isOwn, same⟩ := parsed
      cases same
      unfold hextetsOf at isOwn
      split_ifs at isOwn
      · obtain ⟨_, _, rfl⟩ := Option.map_eq_some_iff.mp isOwn
        simp
      · obtain ⟨_, _, rfl⟩ := Option.map_eq_some_iff.mp isOwn
        simp
  unfold parseParts
  have inner : ([part].tail.dropLast).count [] = 0 := rfl
  simp only [inner]
  rw [Option.filter_eq_none_iff]
  intro hextets parsed
  simpa using low hextets parsed

private theorem takeWhile_subset {s : Text} {p : CodePoint → Bool} :
    s.takeWhile p ⊆ s := (List.takeWhile_sublist p).subset

theorem colon_mem_of_parseV6 {s : Text} {address : BitVec 128}
    (parsed : parseV6 s = some address) : (0x3A : CodePoint) ∈ s := by
  by_contra absent
  have absentHere : (0x3A : CodePoint) ∉ (partition s 0x25).1 := by
    intro member
    exact absent (takeWhile_subset member)
  unfold parseV6 at parsed
  dsimp only at parsed
  split_ifs at parsed
  rw [List.splitOn_eq_singleton absentHere, parseParts_singleton] at parsed
  cases parsed

theorem parseV4_concat_point (s : Text) : parseV4 (s ++ [0x2E]) = none := by
  unfold parseV4
  rw [List.splitOn_append_cons_self, List.splitOn_nil]
  cases mapped : (s.splitOn 0x2E ++ [[]]).mapM parseOctet with
  | none => rfl
  | some values =>
      obtain ⟨n, parsed⟩ := mapM_of_mem mapped
        (List.mem_append_right _ (List.mem_singleton_self _))
      cases parsed

theorem splitOn_concat {c separator : CodePoint} (other : c ≠ separator)
    (s : Text) : ∃ init last, s.splitOn separator = init ++ [last] ∧
      (s ++ [c]).splitOn separator = init ++ [last ++ [c]] := by
  induction s with
  | nil =>
      refine ⟨[], [], rfl, ?_⟩
      rw [List.nil_append, List.splitOn_eq_singleton]
      · rfl
      · simpa using other.symm
  | cons d rest induction =>
      obtain ⟨init, last, split, concat⟩ := induction
      rw [List.cons_append, List.splitOn_cons_eq_if_modifyHead,
        List.splitOn_cons_eq_if_modifyHead, split, concat]
      split_ifs
      · exact ⟨[] :: init, last, rfl, rfl⟩
      · cases init with
        | nil => exact ⟨[], d :: last, rfl, rfl⟩
        | cons first others => exact ⟨(d :: first) :: others, last, rfl, rfl⟩

private theorem parseLow_concat_point (init : List Text) (last : Text) :
    parseLow (init ++ [last ++ [0x2E]]) = none := by
  have none : hextetsOf (last ++ [0x2E]) = none := by
    unfold hextetsOf
    rw [if_pos (by simp), parseV4_concat_point]
    rfl
  unfold parseLow
  split
  · rename_i blank
    have lasts := congrArg List.getLast? blank
    simp at lasts
  · rw [List.dropLast_concat, List.getLastD_concat, none]
    cases init.mapM parseHextet <;> rfl

private theorem parseParts_concat_point (init : List Text) (last : Text) :
    parseParts (init ++ [last ++ [0x2E]]) = none := by
  unfold parseParts
  dsimp only
  split
  · rw [parseLow_concat_point]
    rfl
  · rename_i once
    have blank : [] ∈ (init ++ [last ++ [0x2E]]).tail.dropLast :=
      List.count_pos_iff.mp (by omega)
    have early := List.idxOf_lt_length_of_mem blank
    generalize List.idxOf [] (init ++ [last ++ [0x2E]]).tail.dropLast = skip
      at early ⊢
    simp only [List.length_dropLast, List.length_tail, List.length_append,
      List.length_singleton] at early
    rw [List.drop_append_of_le_length (by omega), parseLow_concat_point]
    cases parseSide ((init ++ [last ++ [0x2E]]).take (skip + 1)) <;> rfl
  · rfl

/-- An address of version 6 with a point at the end has a scope. -/
theorem scope_of_parseV6_concat {s : Text} {address : BitVec 128}
    (parsed : parseV6 (s ++ [0x2E]) = some address) :
    (0x25 : CodePoint) ∈ s := by
  by_contra absent
  have whole : (partition (s ++ [0x2E]) 0x25).1 = s ++ [0x2E] := by
    apply List.takeWhile_eq_self_iff.mpr
    intro c member
    have other : c ≠ 0x25 := by
      rintro rfl
      rcases List.mem_append.mp member with before | point
      · exact absent before
      · revert point
        decide
    simpa using other
  have other : (0x2E : CodePoint) ≠ 0x3A := by decide
  obtain ⟨init, last, _, split⟩ := splitOn_concat other s
  unfold parseV6 at parsed
  dsimp only at parsed
  split_ifs at parsed
  rw [whole, split, parseParts_concat_point] at parsed
  cases parsed

/-- Where nothing stands behind it, the separator is at the end. -/
theorem getLast?_of_partition {s : Text} {separator : CodePoint}
    (member : separator ∈ s) (nothing : (partition s separator).2 = []) :
    s.getLast? = some separator := by
  induction s with
  | nil => cases member
  | cons c rest induction =>
      by_cases here : c = separator
      · subst here
        have empty : rest = [] := by simpa [partition] using nothing
        rw [empty]
        rfl
      · have inRest : separator ∈ rest :=
          (List.mem_cons.mp member).resolve_left (Ne.symm here)
        have last := induction inRest (by simpa [partition, here] using nothing)
        rw [List.getLast?_cons, last]
        rfl

/-- A scope without the point at its end is still a scope, or nothing. -/
theorem parseV6_of_concat {s : Text} {address : BitVec 128}
    (parsed : parseV6 (s ++ [0x2E]) = some address) :
    parseV6 s = some address ∨
      parseV6 s = none ∧ s.getLast? = some 0x25 := by
  have hasScope := scope_of_parseV6_concat parsed
  have percent : s.contains 0x25 = true := by simpa using hasScope
  by_cases nothing : (partition s 0x25).2 = []
  · refine .inr ⟨?_, getLast?_of_partition hasScope nothing⟩
    unfold parseV6
    dsimp only
    rw [if_pos (.inr ⟨percent, .inl nothing⟩)]
  · left
    unfold parseV6 at parsed ⊢
    rw [partition_append hasScope] at parsed
    dsimp only at parsed ⊢
    split_ifs at parsed with ill
    rw [if_neg]
    · exact parsed
    · intro illHere
      apply ill
      simp only [List.contains_eq_mem, List.mem_append, decide_eq_true_eq]
        at illHere ⊢
      rcases illHere with slash | ⟨_, empty | again⟩
      · exact .inl (.inl slash)
      · exact absurd empty nothing
      · exact .inr ⟨.inl hasScope, .inr (.inl again)⟩

theorem inetAton_concat_point (s : Text) : inetAton (s ++ [0x2E]) = none := by
  have unread : ∀ values,
      (s.splitOn 0x2E ++ [[]]).mapM readPart ≠ some values := by
    intro values mapped
    obtain ⟨n, read⟩ := mapM_of_mem mapped
      (List.mem_append_right _ (List.mem_singleton_self _))
    cases read
  unfold inetAton
  rw [List.splitOn_append_cons_self, List.splitOn_nil]
  cases mapped : (s.splitOn 0x2E ++ [[]]).mapM readPart with
  | none => rfl
  | some values => exact absurd mapped (unread values)

end Python.IpAddress
