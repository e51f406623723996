import SovereignInference.Python.LengthPrefix
import SovereignInference.SipPic.BlindIssuance

/-!
# What a blind signature is for

The serial stands in front of the amount and the unit without its length.
Serials of one length can be told apart, but a longer serial can contain what
was the start of the amount.
-/

namespace SovereignInference.SipPic

open Python Effects

/-- The bytes that `_fdh` hashes. -/
def fdhPreimage (token : Bytes) (amount unit : Text) : Except PyExc Bytes := do
  return ascii "sip-blind-fdh-v2:" ++ token ++ (← denominationBytes amount unit)

/-- Serials of the two lengths can be told apart, with their amounts and
units, by what is hashed, and by the signatures of any issuer for whose length
the hash has no collision of the two. -/
def Unambiguous (first second : Nat) : Prop :=
  ∀ (token token' : Bytes) (amount unit amount' unit' : Text),
    token.length = first → token'.length = second →
    (∀ seed, fdhPreimage token amount unit = .ok seed →
      fdhPreimage token' amount' unit' = .ok seed →
      token = token' ∧ amount = amount' ∧ unit = unit') ∧
    ∀ (key : BlindIssuerKey) (sig : Nat),
      (∀ seed seed' digest, fdhPreimage token amount unit = .ok seed →
        fdhPreimage token' amount' unit' = .ok seed' →
        mgf1 seed key.keyBytes = .ok digest →
        mgf1 seed' key.keyBytes = .ok digest → seed = seed') →
      verifyBlindToken token amount unit sig key = .ok true →
      verifyBlindToken token' amount' unit' sig key = .ok true →
      token = token' ∧ amount = amount' ∧ unit = unit'

/-- The longest field, in bytes. -/
def maxField : Nat := 2 ^ 32 - 1

theorem denominationBytes_eq_ok {amount unit : Text} {bytes : Bytes}
    (written : denominationBytes amount unit = .ok bytes) :
    ∃ a u head head', encodeUtf8 amount = .ok a ∧ encodeUtf8 unit = .ok u ∧
      toBytesBig 4 a.length = .ok head ∧ toBytesBig 4 u.length = .ok head' ∧
      bytes = head ++ (a ++ (head' ++ (u ++ []))) := by
  unfold denominationBytes at written
  obtain ⟨a, encoded, written⟩ := bind_eq_ok.mp written
  obtain ⟨u, encoded', written⟩ := bind_eq_ok.mp written
  obtain ⟨head, counted, written⟩ := bind_eq_ok.mp written
  obtain ⟨head', counted', written⟩ := bind_eq_ok.mp written
  cases written
  exact ⟨a, u, head, head', encoded, encoded', counted, counted', by simp⟩

theorem denominationBytes_injective {amount unit amount' unit' : Text}
    {bytes : Bytes} (first : denominationBytes amount unit = .ok bytes)
    (second : denominationBytes amount' unit' = .ok bytes) :
    amount = amount' ∧ unit = unit' := by
  obtain ⟨a, u, head, head', encoded, encoded', counted, counted', rfl⟩ :=
    denominationBytes_eq_ok first
  obtain ⟨b, v, other, other', encodedB, encodedV, countedB, countedV,
    same⟩ := denominationBytes_eq_ok second
  obtain ⟨rfl, sameRest⟩ := prefixed_cancel counted countedB same
  obtain ⟨rfl, _⟩ := prefixed_cancel counted' countedV sameRest
  exact ⟨encodeUtf8_injective encoded encodedB,
    encodeUtf8_injective encoded' encodedV⟩

theorem denominationBytes_length {amount unit : Text} {bytes : Bytes}
    (written : denominationBytes amount unit = .ok bytes) :
    8 ≤ bytes.length ∧ bytes.length ≤ 8 + 2 * maxField := by
  obtain ⟨a, u, head, head', _, _, counted, counted', rfl⟩ :=
    denominationBytes_eq_ok written
  obtain ⟨long, fits, _⟩ := toBytesBig_eq_ok counted
  obtain ⟨long', fits', _⟩ := toBytesBig_eq_ok counted'
  simp only [List.length_append, List.length_nil]
  unfold maxField
  omega

private theorem fdhPreimage_eq_ok {token seed : Bytes} {amount unit : Text}
    (hashed : fdhPreimage token amount unit = .ok seed) :
    ∃ denomination, denominationBytes amount unit = .ok denomination ∧
      seed = ascii "sip-blind-fdh-v2:" ++ (token ++ denomination) := by
  unfold fdhPreimage at hashed
  obtain ⟨denomination, written, hashed⟩ := bind_eq_ok.mp hashed
  cases hashed
  exact ⟨denomination, written, List.append_assoc _ _ _⟩

theorem fdhPreimage_injective {token token' seed : Bytes}
    {amount unit amount' unit' : Text}
    (apart : token.length = token'.length ∨
      token.length + 2 * maxField < token'.length ∨
      token'.length + 2 * maxField < token.length)
    (first : fdhPreimage token amount unit = .ok seed)
    (second : fdhPreimage token' amount' unit' = .ok seed) :
    token = token' ∧ amount = amount' ∧ unit = unit' := by
  obtain ⟨denomination, written, rfl⟩ := fdhPreimage_eq_ok first
  obtain ⟨denomination', written', same⟩ := fdhPreimage_eq_ok second
  have same := List.append_cancel_left same
  have sameLength : token.length = token'.length := by
    have lengths := congrArg List.length same
    rw [List.length_append, List.length_append] at lengths
    have bounds := denominationBytes_length written
    have bounds' := denominationBytes_length written'
    omega
  obtain ⟨sameToken, rfl⟩ := List.append_inj same sameLength
  exact ⟨sameToken, denominationBytes_injective written written'⟩

/-- Blocks of 32 bytes, as many as are asked for. -/
theorem mgf1_length {seed digest : Bytes} {length : Nat}
    (hashed : mgf1 seed length = .ok digest) : digest.length = length := by
  unfold mgf1 at hashed
  obtain ⟨blocks, hashes, hashed⟩ := bind_eq_ok.mp hashed
  cases hashed
  have counted : ∀ (counters : List Nat) (blocks : List Bytes),
      counters.mapM (mgf1Block seed) = .ok blocks →
      blocks.flatten.length = 32 * counters.length := by
    intro counters
    induction counters with
    | nil =>
        intro blocks hashes
        cases hashes
        rfl
    | cons counter rest induction =>
        intro blocks hashes
        rw [List.mapM_cons] at hashes
        obtain ⟨block, hash, hashes⟩ := bind_eq_ok.mp hashes
        obtain ⟨others, more, hashes⟩ := bind_eq_ok.mp hashes
        cases hashes
        unfold mgf1Block at hash
        obtain ⟨count, _, hash⟩ := bind_eq_ok.mp hash
        cases hash
        rw [List.flatten_cons, List.length_append, length_sha256,
          induction others more, List.length_cons]
        omega
  have long := counted _ _ hashes
  rw [List.length_range] at long
  rw [List.length_take, long]
  omega

/-- A digest is below the modulus, so nothing is lost when it is reduced. -/
theorem fdh_digest {token : Bytes} {amount unit : Text} {key : BlindIssuerKey}
    {m : Nat} (hashed : fdh token amount unit key = .ok m) :
    ∃ seed digest, fdhPreimage token amount unit = .ok seed ∧
      mgf1 seed key.keyBytes = .ok digest ∧ m = fromBytesBig digest := by
  unfold fdh at hashed
  obtain ⟨denomination, written, hashed⟩ := bind_eq_ok.mp hashed
  obtain ⟨digest, spread, hashed⟩ := bind_eq_ok.mp hashed
  by_cases zero : key.n = 0
  · rw [if_pos zero] at hashed
    cases hashed
  rw [if_neg zero] at hashed
  cases hashed
  refine ⟨_, digest, ?_, spread, ?_⟩
  · unfold fdhPreimage
    rw [written]
    rfl
  · have below := fromBytesBig_lt digest
    rw [mgf1_length spread] at below
    have bits : 256 ^ key.keyBytes ≤ key.n := by
      have power : 256 ^ key.keyBytes = 2 ^ (8 * key.keyBytes) :=
        (Nat.pow_mul 2 8 _).symm
      rw [power]
      calc 2 ^ (8 * key.keyBytes) ≤ 2 ^ Nat.log2 key.n := by
            apply Nat.pow_le_pow_right (by decide)
            unfold BlindIssuerKey.keyBytes bitLength
            rw [if_neg zero]
            omega
        _ ≤ key.n := Nat.log2_self_le zero
    exact Nat.mod_eq_of_lt (below.trans_le bits)

theorem unambiguous_of_apart {first second : Nat}
    (apart : first = second ∨ first + 2 * maxField < second ∨
      second + 2 * maxField < first) : Unambiguous first second := by
  rintro token token' amount unit amount' unit' rfl rfl
  refine ⟨fun seed => fdhPreimage_injective apart, ?_⟩
  intro key sig collisionFree verified verified'
  have positive : 0 < key.n := by
    unfold verifyBlindToken at verified
    split_ifs at verified with zero
    · exact absurd verified (by simp)
    · exact Nat.pos_of_ne_zero zero
  obtain ⟨m, hashed, signed⟩ :=
    (verifyBlindToken_true positive).mp verified
  obtain ⟨m', hashed', signed'⟩ :=
    (verifyBlindToken_true positive).mp verified'
  have sameHash : m = m' :=
    Nat.ModEq.eq_of_lt_of_lt (signed.symm.trans signed') (fdh_lt hashed)
      (fdh_lt hashed')
  obtain ⟨seed, digest, written, spread, value⟩ := fdh_digest hashed
  obtain ⟨seed', digest', written', spread', value'⟩ := fdh_digest hashed'
  have sameDigest : digest = digest' := by
    apply fromBytesBig_injective
    · rw [mgf1_length spread, mgf1_length spread']
    · rw [← value, ← value', sameHash]
  subst sameDigest
  have sameSeed :=
    collisionFree seed seed' digest written written' spread spread'
  subst sameSeed
  exact fdhPreimage_injective apart written written'

def nulls (count : Nat) : Bytes := List.replicate count 0

/-- A serial can contain what was the start of the denomination. -/
theorem fdhPreimage_moved {token before : Bytes}
    {amount unit amount' unit' : Text} {denomination : Bytes}
    (shorter : denominationBytes amount' unit' = .ok denomination)
    (longer : denominationBytes amount unit = .ok (before ++ denomination)) :
    ∃ seed, fdhPreimage token amount unit = .ok seed ∧
      fdhPreimage (token ++ before) amount' unit' = .ok seed := by
  refine ⟨ascii "sip-blind-fdh-v2:" ++ token ++ (before ++ denomination),
    ?_, ?_⟩
  · simp [fdhPreimage, longer]
  · simp [fdhPreimage, shorter]

theorem denominationBytes_latin1 {a u head head' : Bytes}
    (plain : ∀ byte ∈ a ++ u, byte.toNat < 0x80)
    (counted : toBytesBig 4 a.length = .ok head)
    (counted' : toBytesBig 4 u.length = .ok head') :
    denominationBytes (latin1 a) (latin1 u) =
      .ok (head ++ a ++ head' ++ u) := by
  have plainA : ∀ byte ∈ a, byte.toNat < 0x80 := fun byte member =>
    plain byte (List.mem_append_left _ member)
  have plainU : ∀ byte ∈ u, byte.toNat < 0x80 := fun byte member =>
    plain byte (List.mem_append_right _ member)
  unfold denominationBytes
  rw [encodeUtf8_latin1 plainA, encodeUtf8_latin1 plainU]
  simp [counted, counted']

theorem nulls_plain (count : Nat) : ∀ byte ∈ nulls count, byte.toNat < 0x80 := by
  intro byte member
  rw [List.eq_of_mem_replicate member]
  decide

theorem nulls_add (count more : Nat) :
    nulls (count + more) = nulls count ++ nulls more :=
  List.replicate_add _ _ _

/-- The bytes in front of a denomination make the bytes of another one. -/
def Moves (before : Bytes) : Prop :=
  ∃ amount unit amount' unit' denomination,
    denominationBytes amount' unit' = .ok denomination ∧
      denominationBytes amount unit = .ok (before ++ denomination)

/-- Null characters, the last eight of which are taken for two lengths. -/
theorem moves_of_trailing_nulls {x y : Nat} {head head' before : Bytes}
    (counted : toBytesBig 4 x = .ok head)
    (counted' : toBytesBig 4 y = .ok head')
    (trailing : head ++ nulls x ++ head' ++ nulls y = before ++ nulls 8) :
    Moves before := by
  have plain : ∀ byte ∈ nulls x ++ nulls y, byte.toNat < 0x80 := by
    rw [← nulls_add]
    exact nulls_plain _
  refine ⟨latin1 (nulls x), latin1 (nulls y), [], [], nulls 8, rfl, ?_⟩
  rw [denominationBytes_latin1 plain (by simpa [nulls] using counted)
    (by simpa [nulls] using counted'), trailing]

/-- One null character, and a unit the length of which is cut. -/
theorem moves_of_cut_length {count : Nat} {before length length' word : Bytes}
    (counted : toBytesBig 4 (count + 4) = .ok length)
    (counted' : toBytesBig 4 (word.length + count) = .ok length')
    (plain : ∀ byte ∈ word, byte.toNat < 0x80)
    (cut : [0, 0, 0, 1, 0] ++ length = before ++ length' ++ word) :
    Moves before := by
  have plainUnit : ∀ byte ∈ nulls 1 ++ nulls (count + 4),
      byte.toNat < 0x80 := by
    rw [← nulls_add]
    exact nulls_plain _
  have plainAmount : ∀ byte ∈ word ++ nulls count ++ [],
      byte.toNat < 0x80 := by
    rw [List.append_nil]
    exact List.forall_mem_append.mpr ⟨plain, nulls_plain count⟩
  have one : toBytesBig 4 (nulls 1).length = .ok [0, 0, 0, 1] := rfl
  have written := denominationBytes_latin1 plainUnit one
    (by simpa [nulls] using counted)
  have none : toBytesBig 4 0 = .ok (nulls 4) := rfl
  have countedWord : toBytesBig 4 (word ++ nulls count).length = .ok length' := by
    simpa [nulls] using counted'
  have written' := denominationBytes_latin1 plainAmount countedWord none
  refine ⟨latin1 (nulls 1), latin1 (nulls (count + 4)), _, _, _, written',
    ?_⟩
  rw [written]
  have front : [0, 0, 0, 1] ++ nulls 1 ++ length = before ++ length' ++ word :=
    cut
  rw [front, nulls_add]
  simp only [List.append_assoc, List.append_nil]

/-- Every gap up to the length of two fields can be bridged. -/
theorem exists_moves {gap : Nat} (positive : 0 < gap)
    (bounded : gap ≤ 2 * maxField) :
    ∃ before : Bytes, before.length = gap ∧ Moves before := by
  have written : ∀ count : Nat, count ≤ maxField →
      ∃ head, toBytesBig 4 count = .ok head ∧ head.length = 4 := by
    intro count fits
    have fits' : count < 256 ^ 4 := by
      unfold maxField at fits
      omega
    obtain ⟨head, counted, _⟩ := toBytesBig_ok fits'
    exact ⟨head, counted, (toBytesBig_eq_ok counted).1⟩
  have nulls_length : ∀ count, (nulls count).length = count := fun _ =>
    List.length_replicate
  rcases Nat.lt_or_ge gap 4 with small | large
  · -- a length of which the first bytes are missing
    have few : gap = 1 ∨ gap = 2 ∨ gap = 3 := by omega
    rcases few with rfl | rfl | rfl
    · exact ⟨[0], rfl, @moves_of_cut_length 252 [0] [0, 0, 1, 0]
        [0, 0, 1, 0] [0, 0, 1, 0] (by decide +kernel) (by decide +kernel)
        (by decide +kernel) rfl⟩
    · exact ⟨[0, 0], rfl, @moves_of_cut_length 65533 [0, 0] [0, 1, 0, 1]
        [0, 1, 0, 0] [1, 0, 1] (by decide +kernel) (by decide +kernel)
        (by decide +kernel) rfl⟩
    · exact ⟨[0, 0, 0], rfl, @moves_of_cut_length 16777470 [0, 0, 0]
        [1, 0, 1, 2] [1, 0, 1, 0] [1, 2] (by decide +kernel)
        (by decide +kernel) (by decide +kernel) rfl⟩
  rcases Nat.lt_or_ge maxField gap with two | one
  · obtain ⟨head, counted, long⟩ :=
      written (gap - maxField) (by omega)
    obtain ⟨head', counted', long'⟩ := written maxField le_rfl
    have trailing : nulls maxField = nulls (maxField - 8) ++ nulls 8 :=
      nulls_add _ 8
    refine ⟨head ++ nulls (gap - maxField) ++ head' ++ nulls (maxField - 8),
      ?_, moves_of_trailing_nulls counted counted' ?_⟩
    · simp only [List.length_append, nulls_length, long, long']
      unfold maxField at two ⊢
      omega
    · rw [trailing]
      simp only [List.append_assoc]
  · obtain ⟨head, counted, long⟩ := written gap one
    obtain ⟨shorter, rfl⟩ := Nat.exists_eq_add_of_le' large
    have none : toBytesBig 4 0 = .ok (nulls 4) := rfl
    refine ⟨head ++ nulls shorter, ?_,
      moves_of_trailing_nulls (y := 0) counted none ?_⟩
    · rw [List.length_append, nulls_length, long, Nat.add_comm]
    · rw [nulls_add]
      simp only [List.append_assoc]
      rfl

/-- Serials between which a start of a denomination fits are ambiguous. -/
theorem ambiguous_of_gap {short gap : Nat} (positive : 0 < gap)
    (bounded : gap ≤ 2 * maxField) :
    ¬ Unambiguous short (short + gap) ∧ ¬ Unambiguous (short + gap) short := by
  obtain ⟨before, long, amount, unit, amount', unit', denomination, shorter,
    longer⟩ := exists_moves positive bounded
  obtain ⟨seed, first, second⟩ :=
    @fdhPreimage_moved (nulls short) _ _ _ _ _ _ shorter longer
  have isShort : (nulls short).length = short := List.length_replicate
  have isLong : (nulls short ++ before).length = short + gap := by
    rw [List.length_append, isShort, long]
  have different : nulls short ≠ nulls short ++ before := by
    intro same
    have lengths := congrArg List.length same
    omega
  constructor
  · intro unambiguous
    exact different
      ((unambiguous _ _ _ _ _ _ isShort isLong).1 seed first second).1
  · intro unambiguous
    exact different.symm
      ((unambiguous _ _ _ _ _ _ isLong isShort).1 seed second first).1

/-- **What a blind signature is for.**  Serials of two lengths can be told
apart exactly if the lengths are equal, or further apart than the longest
amount and unit. -/
theorem unambiguous_iff (first second : Nat) :
    Unambiguous first second ↔ first = second ∨
      first + 2 * maxField < second ∨ second + 2 * maxField < first := by
  constructor
  · intro unambiguous
    by_contra close
    obtain ⟨different, close⟩ := not_or.mp close
    rcases Nat.lt_or_gt_of_ne different with less | more
    · obtain ⟨gap, rfl⟩ := Nat.exists_eq_add_of_le less.le
      exact (ambiguous_of_gap (by omega) (by omega)).1 unambiguous
    · obtain ⟨gap, rfl⟩ := Nat.exists_eq_add_of_le more.le
      exact (ambiguous_of_gap (by omega) (by omega)).2 unambiguous
  · exact unambiguous_of_apart

/-- What is hashed decides what verifies. -/
theorem verifyBlindToken_congr {token token' seed : Bytes}
    {amount unit amount' unit' : Text}
    (first : fdhPreimage token amount unit = .ok seed)
    (second : fdhPreimage token' amount' unit' = .ok seed) (sig : Nat)
    (key : BlindIssuerKey) :
    verifyBlindToken token amount unit sig key =
      verifyBlindToken token' amount' unit' sig key := by
  have hashes : ∀ {token : Bytes} {amount unit : Text},
      fdhPreimage token amount unit = .ok seed →
        fdh token amount unit key = (do
          let digest ← mgf1 seed key.keyBytes
          if key.n = 0 then throw .zeroDivisionError
          return fromBytesBig digest % key.n) := by
    intro token amount unit isSeed
    unfold fdhPreimage at isSeed
    obtain ⟨denomination, written, isSeed⟩ := bind_eq_ok.mp isSeed
    cases isSeed
    unfold fdh
    rw [written]
    rfl
  unfold verifyBlindToken
  rw [hashes first, hashes second]

/-- A serial that ends with the length of an amount of four null characters:
every signature of the one credit is a signature of the other. -/
theorem ambiguous_serial :
    (∃ seed, fdhPreimage (nulls 32) (latin1 (nulls 4)) [] = .ok seed ∧
      fdhPreimage (nulls 32 ++ [0, 0, 0, 4]) [] [] = .ok seed) ∧
    (∀ sig key, verifyBlindToken (nulls 32) (latin1 (nulls 4)) [] sig key =
      verifyBlindToken (nulls 32 ++ [0, 0, 0, 4]) [] [] sig key) ∧
    nulls 32 ≠ nulls 32 ++ [0, 0, 0, 4] := by
  have one : fdhPreimage (nulls 32) (latin1 (nulls 4)) [] = .ok
      (ascii "sip-blind-fdh-v2:" ++ nulls 32 ++ ([0, 0, 0, 4] ++ nulls 8)) :=
    rfl
  have other : fdhPreimage (nulls 32 ++ [0, 0, 0, 4]) [] [] = .ok
      (ascii "sip-blind-fdh-v2:" ++ nulls 32 ++ ([0, 0, 0, 4] ++ nulls 8)) :=
    rfl
  exact ⟨⟨_, one, other⟩, verifyBlindToken_congr one other, by decide⟩

end SovereignInference.SipPic
