import SovereignInference.Python.InetAton
import SovereignInference.SipRelay.App

/-!
# Hosts that denote internal addresses

The guards know an internal host by its name or by its address in the strict
notation.  Resolvers drop a point at the end of a host and read more spellings
of numbers; what they find behind those the guards take for public names.
-/

namespace SovereignInference.SipOpenaiProxy

open Python Python.IpAddress
open SipRelay (isSafeForwardUrl)

def point : CodePoint := 0x2E

/-- The host without one point at its end. -/
def withoutPoint (host : Text) : Text :=
  if host.getLast? = some point then host.dropLast else host

inductive HostMeaning where
  | address (ip : IpAddress)
  | name (name : Text)

/-- A numeric host, an address of version 6, or else a name. -/
def hostMeaning (U : Unicode) (host : Text) : HostMeaning :=
  let bare := withoutPoint host
  match inetAton bare with
  | some address => .address (.v4 address)
  | none =>
      match parseV6 bare with
      | some address => .address (.v6 address)
      | none => .name (U.lower bare)

def isInternalName (name : Text) : Bool :=
  decide (name ∈ blockedHostnames) || endsWith name ".localhost"

/-- The host denotes an internal address, this machine or a metadata
service. -/
def denotesInternal (U : Unicode) (host : Text) : Bool :=
  match hostMeaning U host with
  | .address ip => isInternal ip
  | .name name => isInternalName name

/-- A numeric host is spelled as four decimal octets, and only an address of
version 6 has a point at its end. -/
structure Canonical (host : Text) : Prop where
  decimal : (inetAton host).isSome → (parseV4 host).isSome
  noPoint : host.getLast? = some point → (parseV6 host).isSome

/-- `str.lower` on ASCII, and on a character at the end that has no case. -/
structure Standard (U : Unicode) : Prop where
  ascii : ∀ s : Text, (∀ c ∈ s, c.val < 0x80) → U.lower s = asciiLower s
  last : ∀ (s : Text) (c : CodePoint), c.val < 0x41 →
    ∃ t, U.lower (s ++ [c]) = t ++ [c]

private theorem endsWith_last {t literal : Text} {c : CodePoint}
    (nonempty : literal ≠ []) (ends : endsWith (t ++ [c]) literal = true) :
    literal.getLast? = some c := by
  obtain ⟨before, split⟩ := List.isSuffixOf_iff_suffix.mp ends
  obtain ⟨init, last, rfl⟩ := List.eq_nil_or_concat literal |>.resolve_left
    nonempty
  rw [List.concat_eq_append, ← List.append_assoc] at split
  have same := (List.append_inj' split rfl).2
  rw [List.concat_eq_append, List.getLast?_concat]
  congr 1
  exact List.head_eq_of_cons_eq same

/-- No internal name ends with a character that has no case. -/
theorem not_isInternalName_concat {t : Text} {c : CodePoint}
    (low : c.val < 0x41) : isInternalName (t ++ [c]) = false := by
  have notLast : ∀ name : Text, name ∈ (".localhost" : Text) ::
      blockedHostnames → name.getLast? ≠ some c := by
    intro name member last
    have high : ∀ name ∈ (".localhost" : Text) :: blockedHostnames,
        (name.getLast?.all fun d => decide (0x41 ≤ d.val)) = true := by
      decide +kernel
    have letter := high name member
    rw [last, Option.all_some, decide_eq_true_eq] at letter
    omega
  rw [isInternalName, Bool.or_eq_false_iff]
  constructor
  · rw [decide_eq_false_iff_not]
    intro member
    apply notLast _ (List.mem_cons_of_mem _ member)
    rw [List.getLast?_concat]
  · rw [Bool.eq_false_iff]
    intro ends
    exact notLast _ List.mem_cons_self
      (endsWith_last (by decide) ends)

/-- Every internal name has a letter that numbers do not have. -/
theorem mem_of_isInternalName {name : Text}
    (internal : isInternalName name = true) : (0x74 : CodePoint) ∈ name := by
  rw [isInternalName, Bool.or_eq_true, decide_eq_true_eq] at internal
  rcases internal with blocked | ends
  · have all : ∀ name ∈ blockedHostnames, (0x74 : CodePoint) ∈ name := by
      decide +kernel
    exact all name blocked
  · have suffix := List.isSuffixOf_iff_suffix.mp ends
    exact suffix.subset (by decide +kernel)

theorem not_isInternalName_of_inetAton {U : Unicode} (standard : Standard U)
    {host : Text} {address : BitVec 32}
    (numeric : inetAton host = some address) :
    isInternalName (U.lower host) = false := by
  have bounds := fun c (member : c ∈ host) =>
    (inetAton_mem numeric member).bounds
  rw [Bool.eq_false_iff]
  intro internal
  have isAscii : ∀ c ∈ host, c.val < 0x80 := by
    intro c member
    have := bounds c member
    omega
  have letter := mem_of_isInternalName internal
  rw [standard.ascii host isAscii, asciiLower, List.mem_map] at letter
  obtain ⟨c, member, lowered⟩ := letter
  have values := congrArg Fin.val lowered
  have := bounds c member
  have isLetter : (0x74 : CodePoint).val = 0x74 := rfl
  rw [isLetter] at values
  split_ifs at values with upper
  · simp only [Fin.ofNat] at values
    omega
  · omega

/-- An internal name, or an internal address in the strict notation. -/
def isRefused (U : Unicode) (host : Text) : Bool :=
  isInternalName (U.lower host) || (IpAddress.parse host).any isInternal

theorem isSafeForwardUrl_eq {U : Unicode} {url scheme host : Text}
    (split : Url.urlsplit U url = some (scheme, host)) :
    isSafeForwardUrl U url = (decide (host ≠ []) && !isRefused U host) := by
  unfold isSafeForwardUrl isRefused isInternalName
  rw [split]
  dsimp only
  by_cases empty : host = []
  · rw [if_pos empty, decide_eq_false (by simpa using empty), Bool.false_and]
  · rw [if_neg empty, decide_eq_true empty, Bool.true_and]
    by_cases internal : U.lower host ∈ SipRelay.blockedHostnames ∨
        endsWith (U.lower host) ".localhost" = true
    · have known : (decide (U.lower host ∈ blockedHostnames) ||
          endsWith (U.lower host) ".localhost") = true := by
        rw [Bool.or_eq_true, decide_eq_true_eq]
        exact internal
      rw [if_pos internal, known]
      rfl
    · have unknown : (decide (U.lower host ∈ blockedHostnames) ||
          endsWith (U.lower host) ".localhost") = false := by
        rw [Bool.eq_false_iff, ne_eq, Bool.or_eq_true, decide_eq_true_eq]
        exact internal
      rw [if_neg internal, unknown, Bool.false_or]
      cases IpAddress.parse host <;> rfl

section

variable {U : Unicode} {host : Text}

/-- A numeric host is refused exactly if it is in the strict notation. -/
theorem refused_numeric_iff (standard : Standard U) {address : BitVec 32}
    (numeric : inetAton host = some address)
    (internal : isInternal (.v4 address) = true) :
    isRefused U host = true ↔ (parseV4 host).isSome := by
  have noName := not_isInternalName_of_inetAton standard numeric
  have notV6 : parseV6 host = none := by
    rw [Option.eq_none_iff_forall_ne_some]
    intro other parsed
    exact colon_not_mem_of_inetAton numeric (colon_mem_of_parseV6 parsed)
  unfold isRefused IpAddress.parse
  rw [noName, Bool.false_or, notV6]
  cases parsed : parseV4 host with
  | none => simp
  | some other =>
      have same := (inetAton_of_parseV4 parsed).symm.trans numeric
      cases same
      simp [internal]

theorem parse_of_parseV6 {address : BitVec 128}
    (parsed : parseV6 host = some address) :
    IpAddress.parse host = some (.v6 address) := by
  have notV4 : parseV4 host = none := by
    rw [Option.eq_none_iff_forall_ne_some]
    intro other parsedV4
    exact colon_not_mem_of_inetAton (inetAton_of_parseV4 parsedV4)
      (colon_mem_of_parseV6 parsed)
  unfold IpAddress.parse
  rw [notV4, parsed]
  rfl

/-- Without a point at the end, only numbers are misread. -/
theorem refused_iff_of_noPoint (standard : Standard U)
    (noPoint : host.getLast? ≠ some point)
    (denotes : denotesInternal U host = true) :
    isRefused U host = true ↔ Canonical host := by
  have canonical : Canonical host ↔
      ((inetAton host).isSome → (parseV4 host).isSome) := by
    constructor
    · intro canonical
      exact canonical.decimal
    · intro decimal
      exact ⟨decimal, fun ends => absurd ends noPoint⟩
  rw [canonical]
  unfold denotesInternal hostMeaning withoutPoint at denotes
  rw [if_neg noPoint] at denotes
  dsimp only at denotes
  cases numeric : inetAton host with
  | some address =>
      rw [numeric] at denotes
      simpa using refused_numeric_iff standard numeric denotes
  | none =>
      rw [numeric] at denotes
      refine iff_of_true ?_ nofun
      cases parsed : parseV6 host with
      | some address =>
          rw [parsed] at denotes
          unfold isRefused
          rw [parse_of_parseV6 parsed]
          exact Bool.or_eq_true_iff.mpr (.inr denotes)
      | none =>
          rw [parsed] at denotes
          exact Bool.or_eq_true_iff.mpr (.inl denotes)

/-- With a point at the end, only addresses of version 6 are known. -/
theorem refused_iff_of_point (standard : Standard U) {bare : Text}
    (denotes : denotesInternal U (bare ++ [point]) = true) :
    isRefused U (bare ++ [point]) = true ↔ Canonical (bare ++ [point]) := by
  have ends : (bare ++ [point]).getLast? = some point := List.getLast?_concat
  obtain ⟨lowered, lowers⟩ := standard.last bare point (by decide)
  have noName : isInternalName (U.lower (bare ++ [point])) = false := by
    rw [lowers]
    exact not_isInternalName_concat (by decide)
  constructor
  · intro refused
    unfold isRefused IpAddress.parse at refused
    have notV4 : parseV4 (bare ++ [point]) = none := parseV4_concat_point bare
    rw [noName, notV4, Bool.false_or] at refused
    refine ⟨?_, fun _ => ?_⟩
    · have notNumeric : inetAton (bare ++ [point]) = none :=
        inetAton_concat_point bare
      rw [notNumeric]
      nofun
    · cases parsed : parseV6 (bare ++ [point]) with
      | none =>
          rw [parsed] at refused
          cases refused
      | some address => rfl
  · intro canonical
    obtain ⟨address, parsed⟩ := Option.isSome_iff_exists.mp
      (canonical.noPoint ends)
    have notNumeric : inetAton bare = none := by
      rw [Option.eq_none_iff_forall_ne_some]
      intro other numeric
      have bounds := (inetAton_mem numeric
        (scope_of_parseV6_concat parsed)).bounds
      revert bounds
      decide
    unfold denotesInternal hostMeaning withoutPoint at denotes
    rw [if_pos ends, List.dropLast_concat] at denotes
    dsimp only at denotes
    rw [notNumeric] at denotes
    rcases parseV6_of_concat parsed with parsedBare | ⟨notV6, percent⟩
    · rw [parsedBare] at denotes
      unfold isRefused
      rw [parse_of_parseV6 parsed]
      exact Bool.or_eq_true_iff.mpr (.inr denotes)
    · rw [notV6] at denotes
      obtain ⟨before, rfl⟩ := List.getLast?_eq_some_iff.mp percent
      obtain ⟨lowered', lowers'⟩ := standard.last before 0x25 (by decide)
      dsimp only at denotes
      rw [lowers', not_isInternalName_concat (by decide)] at denotes
      cases denotes

private theorem refused_iff_canonical (standard : Standard U)
    (denotes : denotesInternal U host = true) :
    isRefused U host = true ↔ Canonical host := by
  by_cases ends : host.getLast? = some point
  · obtain ⟨bare, rfl⟩ := List.getLast?_eq_some_iff.mp ends
    exact refused_iff_of_point standard denotes
  · exact refused_iff_of_noPoint standard ends denotes

end

/-- **Internal hosts are refused.**  Of the web addresses whose host denotes an
internal address or name, both guards refuse exactly those that spell it in the
canonical way. -/
theorem guards_refuse_iff {U : Unicode} (standard : Standard U)
    {url scheme host : Text}
    (split : Url.urlsplit U url = some (scheme, host))
    (web : scheme = "http" ∨ scheme = "https")
    (denotes : denotesInternal U host = true) :
    isSafeRemoteUrl U url = false ∧ isSafeForwardUrl U url = false ↔
      Canonical host := by
  have nonempty : host ≠ [] := by
    rintro rfl
    have name : denotesInternal U [] = isInternalName (U.lower []) := rfl
    rw [name, standard.ascii [] nofun] at denotes
    revert denotes
    decide +kernel
  rw [SipRelay.isSafeRemoteUrl_eq, split]
  dsimp only
  rw [decide_eq_true web, Bool.true_and, and_self, isSafeForwardUrl_eq split,
    decide_eq_true nonempty, Bool.true_and, Bool.not_eq_false']
  exact refused_iff_canonical standard denotes

/-- Texts in ASCII are normal. -/
def asciiUnicode : Unicode := ⟨id, asciiLower⟩

private theorem asciiUnicode_standard : Standard asciiUnicode where
  ascii _ _ := rfl
  last s c low := by
    refine ⟨asciiLower s, ?_⟩
    have caseless : ¬ (0x41 ≤ c.val ∧ c.val ≤ 0x5A) := by omega
    simp only [asciiUnicode, asciiLower, List.map_append, List.map_cons,
      List.map_nil, if_neg caseless]

theorem guards_refuse_loopback :
    isSafeRemoteUrl asciiUnicode "http://127.0.0.1:8080/v1" = false ∧
      isSafeForwardUrl asciiUnicode "http://127.0.0.1:8080/v1" = false := by
  have split : Url.urlsplit asciiUnicode "http://127.0.0.1:8080/v1" =
      some (text "http", text "127.0.0.1") := by decide +kernel
  apply (guards_refuse_iff asciiUnicode_standard split (.inl rfl)
    (by decide +kernel)).mpr
  exact ⟨by decide +kernel, by decide +kernel⟩

/-- A short spelling of the loopback address and `localhost` with a point at
its end pass both guards. -/
theorem misspelled_hosts_accepted :
    denotesInternal asciiUnicode "127.1" = true ∧
      isSafeRemoteUrl asciiUnicode "http://127.1/v1" = true ∧
      isSafeForwardUrl asciiUnicode "http://127.1/v1" = true ∧
      Url.urlsplit asciiUnicode "http://127.1/v1" =
        some (text "http", text "127.1") ∧
      denotesInternal asciiUnicode "localhost." = true ∧
      isSafeRemoteUrl asciiUnicode "http://localhost./" = true ∧
      isSafeForwardUrl asciiUnicode "http://localhost./" = true ∧
      Url.urlsplit asciiUnicode "http://localhost./" =
        some (text "http", text "localhost.") := by
  decide +kernel

end SovereignInference.SipOpenaiProxy
