import SovereignInference.Python.JsonBytes
import SovereignInference.Python.SameMembers
import SovereignInference.SipProtocol.RoundTrip
import SovereignInference.SipProtocol.SignatureTable

/-!
# Canonical JSON is faithful

Values have the same canonical JSON exactly if they are the same up to the
order of the members of objects, and the canonical JSON of a value is read as
the value.  So the signing bytes of a document stand for its fields, without
the signature and without their order.
-/

namespace SovereignInference.SipProtocol

open Python Python.Json Effects

/-- A value without repeated keys, infinite floats, lone surrogates and
integers that are too long to be written. -/
structure CleanValue where
  value : Json
  distinct : value.DistinctKeys
  clean : value.Clean

theorem canonicalJson_clean {value : Json} (clean : value.Clean) :
    canonicalJson value = encodeUtf8 (compact.render 0 value) := by
  unfold canonicalJson dumpBytes
  rw [dump_compact 0 value clean]
  rfl

/-- What cannot be written is not the same as what can. -/
theorem canonicalJson_sameMembers {value other : Json}
    (distinct : value.DistinctKeys) (distinct' : other.DistinctKeys)
    (clean : value.Clean) :
    canonicalJson value = canonicalJson other ↔ SameMembers value other := by
  constructor
  · intro same
    obtain ⟨bytes, written⟩ := (dumpBytes_isOk true value).mpr clean
    have written' : canonicalJson other = .ok bytes := same ▸ written
    have clean' := (dumpBytes_isOk true other).mp ⟨bytes, written'⟩
    change canonicalJson value = .ok bytes at written
    rw [canonicalJson_clean clean] at written
    rw [canonicalJson_clean clean'] at written'
    have sameText := encodeUtf8_injective written written'
    have read := loads_compact distinct clean
      (le_max_left (nesting value) (nesting other))
    have read' := loads_compact distinct' clean'
      (le_max_right (nesting value) (nesting other))
    rw [sameText, read'] at read
    exact (sameMembers_iff distinct distinct').mpr
      (Except.ok.inj read).symm
  · intro same
    have clean' := same.clean distinct' clean
    rw [canonicalJson_clean clean, canonicalJson_clean clean',
      ← render_sorted compact value, ← render_sorted compact other,
      same.sorted_eq distinct distinct']

/-- A value is the same as the one with its keys in order. -/
theorem sameMembers_sorted {value : Json} (distinct : value.DistinctKeys) :
    SameMembers value value.sorted :=
  .of_sorted distinct (sorted_sorted value).symm

/-- What is read of canonical JSON. -/
theorem loadsBytes_canonicalJson (codecs : Codecs) {depth : Nat} {value : Json}
    (distinct : value.DistinctKeys) (clean : value.Clean)
    (shallow : nesting value ≤ depth) :
    ∃ bytes, canonicalJson value = .ok bytes ∧
      loadsBytes codecs depth bytes = some (.ok value.sorted) := by
  obtain ⟨bytes, written⟩ := (dumpBytes_isOk true value).mpr clean
  change canonicalJson value = .ok bytes at written
  refine ⟨bytes, written, ?_⟩
  rw [canonicalJson_clean clean] at written
  rw [loadsBytes_compact codecs depth (Clean.shortIntegers value clean) written,
    loads_compact distinct clean shallow]

theorem find_without (fields : Dict) (key other : Text) :
    (fields.without key).find other =
      if other = key then none else fields.find other := by
  induction fields with
  | nil => simp [Dict.without]
  | cons field rest induction =>
      unfold Dict.without at induction ⊢
      rw [List.filter_cons]
      by_cases kept : field.1 = key
      · rw [if_neg (by simpa using kept), induction, Dict.find_cons]
        split_ifs with same other
        · rfl
        · exact absurd (other.symm.trans kept) same
        · rfl
      · rw [if_pos (by simpa using kept), Dict.find_cons, induction,
          Dict.find_cons]
        split_ifs with first same
        · exact absurd (first.trans same) kept
        · rfl
        · rfl
        · rfl

private theorem without_distinct {fields : Dict} (key : Text)
    (distinct : (Json.obj fields).DistinctKeys) :
    (Json.obj (fields.without key)).DistinctKeys := by
  cases distinct with
  | obj _ nodup each =>
      refine .obj _ ?_ ?_
      · exact nodup.sublist (List.filter_sublist.map _)
      · exact fun field member => each field (List.mem_filter.mp member).1

/-- **Signing bytes are the same** exactly if every field but the signature
is. -/
theorem signingBytes_eq_iff {document other : Dict}
    (distinct : (Json.obj document).DistinctKeys)
    (distinct' : (Json.obj other).DistinctKeys)
    (clean : (Json.obj (document.without signatureField)).Clean) :
    signingBytes document = signingBytes other ↔
      ∀ key, key ≠ signatureField →
        SameField (document.find key) (other.find key) := by
  unfold signingBytes
  rw [canonicalJson_sameMembers (without_distinct _ distinct)
    (without_distinct _ distinct') clean, sameMembers_obj]
  refine forall_congr' fun key => ?_
  rw [find_without, find_without]
  split_ifs with same
  · simp [same, SameField]
  · simp [same]

/-- Signing does not change the signing bytes, and neither does any other
order of the members of the signed document. -/
theorem signingBytes_reordered {P : Platform} {keypair : KeyPair}
    {document signed other : Dict}
    (distinct : (Json.obj document).DistinctKeys)
    (distinct' : (Json.obj other).DistinctKeys)
    (done : signDocument P document keypair = .ok signed)
    (same : SameMembers (.obj signed) (.obj other)) :
    signingBytes other = signingBytes signed := by
  have clean := signDocument_isOk.mp ⟨signed, done⟩
  obtain ⟨message, _, rfl⟩ := signDocument_eq done
  have unchanged : signingBytes ((document.without signatureField).set
      signatureField (.str (keypair.sign P message))) =
        signingBytes document := by
    unfold signingBytes
    rw [without_set]
  rw [unchanged, eq_comm, signingBytes_eq_iff distinct distinct' clean]
  intro key isOther
  have field := sameMembers_obj.mp same key
  rwa [Dict.find_set_other isOther, find_without, if_neg isOther] at field

/-- A document without repeated keys that is clean apart from its signature. -/
structure CleanDocument where
  fields : Dict
  distinct : (Json.obj fields).DistinctKeys
  clean : (Json.obj (fields.without signatureField)).Clean

/-- **Canonical JSON is faithful.**  It is the same exactly for values that are
the same up to the order of members, and it is read as the value.  Signing
bytes are the same for every order of the members of a signed document, and
change with every field but the signature. -/
theorem canonicalJson_faithful (P : Platform) (keypair : KeyPair)
    (codecs : Codecs) (depth : Nat) (x y : CleanValue) (d : CleanDocument) :
    (canonicalJson x.value = canonicalJson y.value ↔
        SameMembers x.value y.value) ∧
      (nesting x.value ≤ depth → ∃ bytes read,
        canonicalJson x.value = .ok bytes ∧
        loadsBytes codecs depth bytes = some (.ok read) ∧
        SameMembers x.value read ∧ x.value.pyEq read = true) ∧
      (∃ signed, signDocument P d.fields keypair = .ok signed ∧
        ∀ other : Dict, (Json.obj other).DistinctKeys →
          SameMembers (.obj signed) (.obj other) →
            signingBytes other = signingBytes signed) ∧
      ∀ other : Dict, (Json.obj other).DistinctKeys →
        (signingBytes d.fields = signingBytes other ↔
          ∀ key, key ≠ signatureField →
            SameField (d.fields.find key) (other.find key)) := by
  refine ⟨canonicalJson_sameMembers x.distinct y.distinct x.clean, ?_, ?_, ?_⟩
  · intro shallow
    obtain ⟨bytes, written, read⟩ :=
      loadsBytes_canonicalJson codecs x.distinct x.clean shallow
    exact ⟨bytes, x.value.sorted, written, read,
      sameMembers_sorted x.distinct, pyEq_sorted x.distinct x.clean⟩
  · obtain ⟨signed, done⟩ := (@signDocument_isOk P d.fields keypair).mpr d.clean
    exact ⟨signed, done, fun other distinct same =>
      signingBytes_reordered d.distinct distinct done same⟩
  · exact fun other distinct =>
      signingBytes_eq_iff d.distinct distinct d.clean

theorem canonicalJson_faithful_object : ∃ bytes read,
    canonicalJson (.obj [("b", .int 1), ("a", .arr [.null])]) = .ok bytes ∧
      loadsBytes ⟨fun _ => decodeUtf8, fun _ _ => id⟩ 2 bytes =
        some (.ok read) ∧
      SameMembers (.obj [("b", .int 1), ("a", .arr [.null])]) read ∧
      (Json.obj [("b", .int 1), ("a", .arr [.null])]).pyEq read = true := by
  have distinct : (Json.obj
      [("b", .int 1), ("a", .arr [.null])]).DistinctKeys := by
    refine .obj _ (by decide) ?_
    simp only [List.forall_mem_cons]
    refine ⟨.int 1, .arr _ ?_, List.forall_mem_nil _⟩
    exact List.forall_mem_singleton.mpr .null
  have clean : (Json.obj [("b", .int 1), ("a", .arr [.null])]).Clean := by
    have short : 1 < 10 ^ maxStrDigits :=
      Nat.one_lt_pow (by decide) (by decide)
    simp [short]
  exact (canonicalJson_faithful (SignatureTable.platform ⟨[], []⟩) ⟨[]⟩
    ⟨fun _ => decodeUtf8, fun _ _ => id⟩ 2 ⟨_, distinct, clean⟩
    ⟨.null, .null, trivial⟩
    ⟨[], .obj [] List.nodup_nil (List.forall_mem_nil _), trivial⟩).2.1
    le_rfl

/-- So many arrays in each other. -/
def nestedArrays : Nat → Json
  | 0 => .arr []
  | level + 1 => .arr [nestedArrays level]

private theorem nestedArrays_clean (level : Nat) :
    (nestedArrays level).DistinctKeys ∧ (nestedArrays level).Clean ∧
      nesting (nestedArrays level) = level + 1 := by
  induction level with
  | zero => exact ⟨.arr [] (List.forall_mem_nil _), by simp [nestedArrays], rfl⟩
  | succ level induction =>
      obtain ⟨distinct, clean, depth⟩ := induction
      refine ⟨.arr _ (by simpa using distinct), ?_, ?_⟩
      · simpa [nestedArrays] using clean
      · rw [nestedArrays, nesting, nestingItems, depth]
        rfl

/-- An integer of 4301 digits is not written, arrays that are nested too deeply
are not read, and negative zero is written with its sign. -/
theorem canonicalJson_limits :
    canonicalJson (.int (10 ^ maxStrDigits)) = .error .valueError ∧
      (∀ codecs depth, ∃ bytes,
        canonicalJson (nestedArrays depth) = .ok bytes ∧
          loadsBytes codecs depth bytes = some (.error .recursionError)) ∧
      (Json.float 0.0).pyEq (.float (-0.0)) = true ∧
      canonicalJson (.float 0.0) ≠ canonicalJson (.float (-0.0)) := by
  refine ⟨?_, ?_, by decide +kernel, by decide +kernel⟩
  · have long : ∀ digits, ¬ ((10 : Int) ^ digits).natAbs < 10 ^ digits := by
      intro digits
      rw [Int.natAbs_pow]
      exact lt_irrefl _
    unfold canonicalJson dumpBytes
    rw [dump, intRepr, if_neg (long maxStrDigits)]
    rfl
  · intro codecs depth
    obtain ⟨_, clean, nested⟩ := nestedArrays_clean depth
    have short := Clean.shortIntegers _ clean
    obtain ⟨bytes, written⟩ := (dumpBytes_isOk true _).mpr clean
    change canonicalJson (nestedArrays depth) = .ok bytes at written
    refine ⟨bytes, written, ?_⟩
    rw [canonicalJson_clean clean] at written
    rw [loadsBytes_compact codecs depth short written,
      loads_render compact short, readBack, if_neg]
    omega

end SovereignInference.SipProtocol
