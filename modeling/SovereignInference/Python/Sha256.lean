import SovereignInference.Python.Text

/-!
# SHA-256

The hash of `hashlib.sha256`, on words kept below `2 ^ 32`.
-/

namespace Python

namespace Sha256

def roundConstants : List Nat :=
  [0x428A2F98, 0x71374491, 0xB5C0FBCF, 0xE9B5DBA5, 0x3956C25B, 0x59F111F1,
    0x923F82A4, 0xAB1C5ED5, 0xD807AA98, 0x12835B01, 0x243185BE, 0x550C7DC3,
    0x72BE5D74, 0x80DEB1FE, 0x9BDC06A7, 0xC19BF174, 0xE49B69C1, 0xEFBE4786,
    0x0FC19DC6, 0x240CA1CC, 0x2DE92C6F, 0x4A7484AA, 0x5CB0A9DC, 0x76F988DA,
    0x983E5152, 0xA831C66D, 0xB00327C8, 0xBF597FC7, 0xC6E00BF3, 0xD5A79147,
    0x06CA6351, 0x14292967, 0x27B70A85, 0x2E1B2138, 0x4D2C6DFC, 0x53380D13,
    0x650A7354, 0x766A0ABB, 0x81C2C92E, 0x92722C85, 0xA2BFE8A1, 0xA81A664B,
    0xC24B8B70, 0xC76C51A3, 0xD192E819, 0xD6990624, 0xF40E3585, 0x106AA070,
    0x19A4C116, 0x1E376C08, 0x2748774C, 0x34B0BCB5, 0x391C0CB3, 0x4ED8AA4A,
    0x5B9CCA4F, 0x682E6FF3, 0x748F82EE, 0x78A5636F, 0x84C87814, 0x8CC70208,
    0x90BEFFFA, 0xA4506CEB, 0xBEF9A3F7, 0xC67178F2]

def initialState : List Nat :=
  [0x6A09E667, 0xBB67AE85, 0x3C6EF372, 0xA54FF53A, 0x510E527F, 0x9B05688C,
    0x1F83D9AB, 0x5BE0CD19]

def add (x y : Nat) : Nat := (x + y) % 2 ^ 32

def rotate (x count : Nat) : Nat :=
  (x >>> count) ||| (x <<< (32 - count)) % 2 ^ 32

def sigma (r s t x : Nat) : Nat :=
  rotate x r ^^^ rotate x s ^^^ (x >>> t)

def bigSigma (r s t x : Nat) : Nat :=
  rotate x r ^^^ rotate x s ^^^ rotate x t

/-- The message schedule, newest word first, extended by `count` words. -/
def schedule : Nat → List Nat → List Nat
  | 0, words => words
  | count + 1, words =>
      let word := add (add (sigma 17 19 10 (words.getD 1 0)) (words.getD 6 0))
        (add (sigma 7 18 3 (words.getD 14 0)) (words.getD 15 0))
      schedule count (word :: words)

/-- One round per schedule word on the eight working variables. -/
def rounds : List (Nat × Nat) → List Nat → List Nat
  | (constant, word) :: rest, [a, b, c, d, e, f, g, h] =>
      let choice := (e &&& f) ^^^ ((2 ^ 32 - 1 - e) &&& g)
      let majority := (a &&& b) ^^^ (a &&& c) ^^^ (b &&& c)
      let first := add (add h (bigSigma 6 11 25 e))
        (add choice (add constant word))
      let second := add (bigSigma 2 13 22 a) majority
      rounds rest [add first second, a, b, c, add d first, e, f, g]
  | _, state => state

/-- The big-endian words of a byte string. -/
def toWords : Bytes → List Nat
  | a :: b :: c :: d :: rest => fromBytesBig [a, b, c, d] :: toWords rest
  | _ => []

def compress (state : List Nat) (block : List Nat) : List Nat :=
  let words := (schedule 48 block.reverse).reverse
  List.zipWith add state (rounds (roundConstants.zip words) state)

/-- Compress the leading blocks of sixteen words. -/
def blocks : Nat → List Nat → List Nat → List Nat
  | 0, _, state => state
  | count + 1, words, state =>
      blocks count (words.drop 16) (compress state (words.take 16))

def wordBytes (word : Nat) : Bytes :=
  [.ofNat (word / 2 ^ 24), .ofNat (word / 2 ^ 16), .ofNat (word / 2 ^ 8),
    .ofNat word]

/-- The message followed by a one bit, zeros, and its length in bits. -/
def pad (message : Bytes) : Bytes :=
  let bits := 8 * message.length
  message ++ 0x80 :: List.replicate ((119 - message.length % 64) % 64) 0 ++
    wordBytes (bits / 2 ^ 32) ++ wordBytes bits

end Sha256

open Sha256 in
/-- `hashlib.sha256(message).digest()`. -/
def sha256 (message : Bytes) : Bytes :=
  let words := toWords (pad message)
  (blocks (words.length / 16) words initialState).flatMap wordBytes

/-- A state has eight words. -/
theorem Sha256.length_rounds (constants : List (Nat × Nat))
    (state : List Nat) : (rounds constants state).length = state.length := by
  fun_induction rounds constants state with
  | case1 constant word rest a b c d e f g h choice majority first second
      induction => exact induction
  | case2 => rfl

private theorem Sha256.length_compress (state block : List Nat) :
    (compress state block).length = state.length := by
  unfold compress
  rw [List.length_zipWith, length_rounds, Nat.min_self]

theorem Sha256.length_blocks (count : Nat) (words state : List Nat) :
    (blocks count words state).length = state.length := by
  induction count generalizing words state with
  | zero => rfl
  | succ count induction => rw [blocks, induction, length_compress]

theorem length_sha256 (message : Bytes) : (sha256 message).length = 32 := by
  unfold sha256
  rw [List.length_flatMap]
  have each : ∀ words : List Nat,
      (words.map fun word => (Sha256.wordBytes word).length).sum =
        words.length * 4 := by
    intro words
    have four : (fun word => (Sha256.wordBytes word).length) = fun _ => 4 :=
      rfl
    rw [four, List.map_const', List.sum_replicate_nat]
  rw [each, Sha256.length_blocks]
  rfl

def hexDigit (value : Nat) : CodePoint :=
  Fin.ofNat _ (if value < 10 then 0x30 + value else 0x57 + value)

/-- `bytes.hex()`. -/
def hex (bytes : Bytes) : Text :=
  bytes.flatMap fun byte =>
    [hexDigit (byte.toNat / 16), hexDigit (byte.toNat % 16)]

example : hex (sha256 (ascii "abc")) =
    "ba7816bf8f01cfea414140de5dae2223b00361a396177a9cb410ff61f20015ad" := by
  decide +kernel

end Python
