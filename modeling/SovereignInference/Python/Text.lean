import SovereignInference.Effects.Outcome
import Mathlib

/-!
# Python strings, bytes and exceptions

A Python `str` is a list of code points.  Lone surrogates are code points like
any other, so they can be held and compared but not encoded as UTF-8.
-/

namespace Python

open Effects

/-- The exceptions the modelled code raises or lets pass. -/
inductive PyExc where
  | valueError
  | unicodeEncodeError
  | typeError
  | keyError
  | indexError
  | attributeError
  | overflowError
  | zeroDivisionError
  | invalidOperation
  | decimalOverflow
  | keyEncodingError
  | insufficientFunds
  | operationalError
  | osError
  | recursionError
  | discoveryError
  | invalidUrl
  deriving DecidableEq

/-- The exceptions that `except ValueError` catches. -/
def PyExc.isValueError : PyExc → Bool
  | .valueError | .unicodeEncodeError => true
  | _ => false

abbrev CodePoint := Fin 0x110000

instance codePoint_neZero : NeZero 0x110000 := ⟨by decide⟩

/-- A Python `str`. -/
abbrev Text := List CodePoint

instance text_lawfulBEq : LawfulBEq Text := inferInstance

/-- A Python `bytes`. -/
abbrev Bytes := List UInt8

/-- The bytes of an ASCII literal. -/
def ascii (literal : String) : Bytes := literal.toByteArray.data.toList

/-- `bytes.decode("latin-1")`. -/
def latin1 (bytes : Bytes) : Text :=
  bytes.map fun byte => Fin.ofNat _ byte.toNat

/-- The Python string of an ASCII literal. -/
def text (literal : String) : Text := latin1 (ascii literal)

instance : Coe String Text := ⟨text⟩

def isSurrogate (c : CodePoint) : Bool :=
  0xD800 ≤ c.val && c.val ≤ 0xDFFF

/-- `str.isspace` of one character. -/
def isSpace (c : CodePoint) : Bool :=
  (0x09 ≤ c.val && c.val ≤ 0x0D) || (0x1C ≤ c.val && c.val ≤ 0x20) ||
    [0x85, 0xA0, 0x1680, 0x2028, 0x2029, 0x202F, 0x205F, 0x3000].contains
      c.val ||
    (0x2000 ≤ c.val && c.val ≤ 0x200A)

/-- The white space the C number parsers skip. -/
def isAsciiSpace (c : CodePoint) : Bool :=
  (0x09 ≤ c.val && c.val ≤ 0x0D) || c.val == 0x20

/-- The zeros of the decimal digit blocks of Unicode 15. -/
def decimalZeros : List Nat :=
  [0x30, 0x660, 0x6F0, 0x7C0, 0x966, 0x9E6, 0xA66, 0xAE6, 0xB66, 0xBE6, 0xC66,
    0xCE6, 0xD66, 0xDE6, 0xE50, 0xED0, 0xF20, 0x1040, 0x1090, 0x17E0, 0x1810,
    0x1946, 0x19D0, 0x1A80, 0x1A90, 0x1B50, 0x1BB0, 0x1C40, 0x1C50, 0xA620,
    0xA8D0, 0xA900, 0xA9D0, 0xA9F0, 0xAA50, 0xABF0, 0xFF10, 0x104A0, 0x10D30,
    0x11066, 0x110F0, 0x11136, 0x111D0, 0x112F0, 0x11450, 0x114D0, 0x11650,
    0x116C0, 0x11730, 0x118E0, 0x11950, 0x11C50, 0x11D50, 0x11DA0, 0x11F50,
    0x16A60, 0x16AC0, 0x16B50, 0x1D7CE, 0x1D7D8, 0x1D7E2, 0x1D7EC, 0x1D7F6,
    0x1E140, 0x1E2F0, 0x1E4F0, 0x1E950, 0x1FBF0]

/-- The decimal value of a digit character, in any script. -/
def decimalDigit (c : CodePoint) : Option Nat :=
  (decimalZeros.find? fun first => first ≤ c.val && c.val < first + 10).map
    fun first => c.val - first

/-- The value of an ASCII digit. -/
def asciiDigit (c : CodePoint) : Option Nat :=
  if 0x30 ≤ c.val ∧ c.val ≤ 0x39 then some (c.val - 0x30) else none

/-- `str.lower` on the ASCII letters. -/
def asciiLower (s : Text) : Text :=
  s.map fun c =>
    if 0x41 ≤ c.val ∧ c.val ≤ 0x5A then Fin.ofNat _ (c.val + 0x20) else c

def startsWith (s literal : Text) : Bool := literal.isPrefixOf s

/-- `str.partition` at a one-character separator, without the separator. -/
def partition (s : Text) (separator : CodePoint) : Text × Text :=
  (s.takeWhile (· ≠ separator), (s.dropWhile (· ≠ separator)).drop 1)

/-- `str.partition` at a separator that is not empty. -/
def partitionText (separator : Text) : Text → Text × Text × Text
  | [] => ([], [], [])
  | c :: rest =>
      if startsWith (c :: rest) separator then
        ([], separator, (c :: rest).drop separator.length)
      else
        let (before, found, after) := partitionText separator rest
        (c :: before, found, after)

/-- `str.strip` of the characters in a class. -/
def strip (drops : CodePoint → Bool) (s : Text) : Text :=
  ((s.dropWhile drops).reverse.dropWhile drops).reverse

/-- `str.rstrip` of one character. -/
def rstrip (dropped : CodePoint) (s : Text) : Text :=
  (s.reverse.dropWhile (· = dropped)).reverse

/-- `str.split()`: the maximal runs of non-space characters. -/
def split (s : Text) : List Text :=
  (s.splitOnP isSpace).filter (· ≠ [])

/-- `str.replace` of one character by a string. -/
def replace (s : Text) (old : CodePoint) (new : Text) : Text :=
  s.flatMap fun c => if c = old then new else [c]

theorem partition_append {s later : Text} {separator : CodePoint}
    (member : separator ∈ s) :
    partition (s ++ later) separator =
      ((partition s separator).1, (partition s separator).2 ++ later) := by
  induction s with
  | nil => cases member
  | cons c rest induction =>
      by_cases here : c = separator
      · subst here
        simp [partition]
      · have inRest : separator ∈ rest :=
          (List.mem_cons.mp member).resolve_left (Ne.symm here)
        have shorter := induction inRest
        simpa [partition, here] using shorter

theorem partitionText_found {separator s : Text}
    (found : (partitionText separator s).2.1 ≠ []) :
    (partitionText separator s).2.1 = separator ∧
      s = (partitionText separator s).1 ++ separator ++
        (partitionText separator s).2.2 := by
  induction s with
  | nil => exact absurd rfl found
  | cons c rest induction =>
      rw [partitionText] at found ⊢
      split_ifs at found ⊢ with here
      · refine ⟨rfl, ?_⟩
        obtain ⟨after, split⟩ := List.isPrefixOf_iff_prefix.mp here
        simp [← split]
      · obtain ⟨same, split⟩ := induction found
        exact ⟨same, congrArg (c :: ·) split⟩

/-- The first separator is where its first character first occurs. -/
theorem partitionText_append {before : Text} {c : CodePoint}
    (absent : c ∉ before) (separator after : Text) :
    partitionText (c :: separator) (before ++ c :: separator ++ after) =
      (before, c :: separator, after) := by
  induction before with
  | nil =>
      rw [List.nil_append, List.cons_append, partitionText, if_pos]
      · rw [← List.cons_append, List.drop_left]
      · exact List.isPrefixOf_iff_prefix.mpr
          (List.prefix_append (c :: separator) after)
  | cons d before induction =>
      obtain ⟨other, absent⟩ := not_or.mp (mt List.mem_cons.mpr absent)
      rw [List.cons_append, List.cons_append, partitionText, if_neg,
        induction absent]
      simp [startsWith, other]

/-- The UTF-8 encoding of one code point, if it has one. -/
def encodeChar (c : CodePoint) : Except PyExc Bytes :=
  let n := c.val
  if isSurrogate c then .error .unicodeEncodeError
  else if n < 0x80 then .ok [.ofNat n]
  else if n < 0x800 then .ok [.ofNat (0xC0 + n / 0x40), .ofNat (0x80 + n % 0x40)]
  else if n < 0x10000 then
    .ok [.ofNat (0xE0 + n / 0x1000), .ofNat (0x80 + n / 0x40 % 0x40),
      .ofNat (0x80 + n % 0x40)]
  else
    .ok [.ofNat (0xF0 + n / 0x40000), .ofNat (0x80 + n / 0x1000 % 0x40),
      .ofNat (0x80 + n / 0x40 % 0x40), .ofNat (0x80 + n % 0x40)]

/-- `str.encode("utf-8")`. -/
def encodeUtf8 : Text → Except PyExc Bytes
  | [] => .ok []
  | c :: rest => do
      let head ← encodeChar c
      let tail ← encodeUtf8 rest
      return head ++ tail

/-- A string without lone surrogates. -/
def Encodable (s : Text) : Prop := ∀ c ∈ s, isSurrogate c = false

instance (s : Text) : Decidable (Encodable s) :=
  List.decidableBAll (fun c => isSurrogate c = false) s

theorem encodeChar_isOk (c : CodePoint) :
    (∃ bytes, encodeChar c = .ok bytes) ↔ isSurrogate c = false := by
  unfold encodeChar
  cases surrogate : isSurrogate c with
  | true => simp
  | false =>
      simp only [Bool.false_eq_true, if_false, iff_true]
      split_ifs <;> exact ⟨_, rfl⟩

/-- Encoding succeeds exactly on strings without lone surrogates. -/
theorem encodeUtf8_isOk (s : Text) :
    (∃ bytes, encodeUtf8 s = .ok bytes) ↔ Encodable s := by
  induction s with
  | nil => simp [encodeUtf8, Encodable]
  | cons c rest induction =>
      have split : Encodable (c :: rest) ↔
          isSurrogate c = false ∧ Encodable rest := by
        simp [Encodable]
      rw [split, ← encodeChar_isOk, ← induction, encodeUtf8]
      cases encodeChar c with
      | error error => simp
      | ok head =>
          cases encodeUtf8 rest with
          | error error => simp
          | ok tail => simp

section Encodable

variable {s t : Text}

@[simp] theorem encodable_nil : Encodable [] := by
  intro c member
  cases member

@[simp] theorem encodable_cons {c : CodePoint} :
    Encodable (c :: s) ↔ isSurrogate c = false ∧ Encodable s := by
  simp [Encodable]

@[simp] theorem encodable_append :
    Encodable (s ++ t) ↔ Encodable s ∧ Encodable t := by
  simp only [Encodable, List.mem_append]
  constructor
  · intro both
    exact ⟨fun c member => both c (.inl member),
      fun c member => both c (.inr member)⟩
  · intro both c member
    rcases member with left | right
    · exact both.1 c left
    · exact both.2 c right

theorem Encodable.of_subset (encodable : Encodable s) (within : t ⊆ s) :
    Encodable t :=
  fun c member => encodable c (within member)

theorem encodable_flatMap {f : CodePoint → Text}
    (each : ∀ c, Encodable (f c) ↔ isSurrogate c = false) :
    Encodable (s.flatMap f) ↔ Encodable s := by
  induction s with
  | nil => simp
  | cons c rest induction => simp [each, induction]

theorem encodable_replicate {c : CodePoint} (plain : isSurrogate c = false)
    (count : Nat) : Encodable (List.replicate count c) := by
  intro d member
  rw [List.eq_of_mem_replicate member]
  exact plain

end Encodable

theorem encodable_latin1 (bytes : Bytes) : Encodable (latin1 bytes) := by
  intro c member
  obtain ⟨byte, _, rfl⟩ := List.mem_map.mp member
  have small := byte.toNat_lt
  have value : (Fin.ofNat 0x110000 byte.toNat).val = byte.toNat :=
    Nat.mod_eq_of_lt (by omega)
  simp only [isSurrogate, value, Bool.and_eq_false_iff, decide_eq_false_iff_not]
  omega

/-- No character of a literal is a surrogate. -/
@[simp] theorem encodable_text (literal : String) :
    Encodable (text literal) :=
  encodable_latin1 _

/-- `int.to_bytes(length, "big")`. -/
def toBytesBig : Nat → Nat → Except PyExc Bytes
  | 0, value => if value = 0 then .ok [] else .error .overflowError
  | length + 1, value => do
      let high ← toBytesBig length (value / 256)
      return high ++ [.ofNat (value % 256)]

/-- `int.from_bytes(bytes, "big")`. -/
def fromBytesBig (bytes : Bytes) : Nat :=
  bytes.foldl (fun value byte => value * 256 + byte.toNat) 0

theorem fromBytesBig_append (high : Bytes) (low : UInt8) :
    fromBytesBig (high ++ [low]) = fromBytesBig high * 256 + low.toNat := by
  simp [fromBytesBig]

/-- A number below the size fits, and is read back. -/
theorem toBytesBig_ok {length value : Nat} (fits : value < 256 ^ length) :
    ∃ bytes, toBytesBig length value = .ok bytes ∧
      fromBytesBig bytes = value := by
  induction length generalizing value with
  | zero =>
      have zero : value = 0 := by simpa using fits
      subst zero
      exact ⟨[], rfl, rfl⟩
  | succ length induction =>
      rw [Nat.pow_succ] at fits
      obtain ⟨high, written, value'⟩ :=
        induction (Nat.div_lt_of_lt_mul (by rwa [Nat.mul_comm]))
      refine ⟨high ++ [.ofNat (value % 256)], ?_, ?_⟩
      · simp [toBytesBig, written]
      · rw [fromBytesBig_append, value', UInt8.toNat_ofNat']
        omega

theorem flatten_splitOnP (p : CodePoint → Bool) (s : Text) :
    (s.splitOnP p).flatten = s.filter fun c => !p c := by
  induction s with
  | nil => simp
  | cons c rest induction =>
      rw [List.splitOnP_cons_eq_if_modifyHead]
      obtain ⟨first, others, split⟩ :=
        List.exists_cons_of_ne_nil (List.splitOnP_ne_nil p rest)
      rw [split] at induction ⊢
      cases isSeparator : p c with
      | true => simpa [isSeparator] using induction
      | false => simpa [isSeparator] using induction

theorem mem_splitOn {s : Text} {c separator : CodePoint} :
    (∃ part ∈ s.splitOn separator, c ∈ part) ↔ c ∈ s ∧ c ≠ separator := by
  rw [← List.mem_flatten, List.splitOn_eq_splitOnP, flatten_splitOnP,
    List.mem_filter]
  simp

private theorem length_flatten_splitOnP (p : CodePoint → Bool) (s : Text) :
    (s.splitOnP p).flatten.length ≤ s.length := by
  rw [flatten_splitOnP]
  exact List.length_filter_le _ _

/-- Words are not empty, so there are no more words than characters. -/
theorem length_split_le (s : Text) : (split s).length ≤ s.length := by
  have counted : ∀ pieces : List Text,
      (pieces.filter (· ≠ [])).length ≤ pieces.flatten.length := by
    intro pieces
    induction pieces with
    | nil => simp
    | cons piece others induction =>
        cases piece with
        | nil => simpa using induction
        | cons c rest =>
            simp only [List.flatten_cons, List.length_append,
              List.length_cons, ne_eq, reduceCtorEq, not_false_eq_true,
              decide_true, List.filter_cons_of_pos] at induction ⊢
            omega
  exact (counted _).trans (length_flatten_splitOnP isSpace s)

end Python
