import OpenShell.Core.Net
import OpenShell.Policy.Types

/-!
# Proposals from denials

`mechanistic_mapper.rs`: denials are grouped by host, port and binary, and every
group becomes one proposed rule. The source walks hash maps, whose order is
arbitrary, and sorts the result by a score. Here a group stands where its first
denial stands; nothing below depends on the order.
-/

namespace OpenShell.Sandbox

open OpenShell.Policy OpenShell.Core

/-! ## Denials -/

/-- `L7RequestSample`. -/
structure L7RequestSample where
  method : String
  path : String
  deriving DecidableEq

/-- `DenialSummary`. All texts are the workload's. -/
structure DenialSummary where
  host : String
  port : Nat
  binary : String
  count : Nat
  l7RequestSamples : List L7RequestSample := []
  l7InspectionActive : Bool := false
  deriving DecidableEq

/-- `PolicyChunk`. -/
structure PolicyChunk where
  ruleName : String
  proposedRule : NetworkPolicyRule
  hitCount : Int
  binary : String

/-! ## Paths -/

def isAsciiDigit (c : Char) : Bool := '0' ≤ c && c ≤ '9'

def isAsciiHexdigit (c : Char) : Bool :=
  isAsciiDigit c || ('a' ≤ c && c ≤ 'f') || ('A' ≤ c && c ≤ 'F')

/-- `looks_like_id`. -/
def looksLikeId (segment : String) : Bool :=
  let hexOnly := segment.toList.filter isAsciiHexdigit
  if isEmptyStr segment then false
  else if segment.toList.all isAsciiDigit && 2 ≤ byteLen segment then true
  -- a UUID with its dashes
  else if 24 ≤ hexOnly.length && containsChar segment '-' then true
  -- a hash or a token
  else 16 ≤ hexOnly.length && byteLen segment == hexOnly.length

/-- The path before the first `?`. -/
def withoutQuery (raw : String) : String := ((splitChar raw '?').head?).getD raw

/-- `generalise_path`: an identifier at the end of a path becomes a wildcard. -/
def generalisePath (raw : String) : String :=
  let path := withoutQuery raw
  let segments := splitChar path '/'
  if segments.length ≤ 1 then path
  else if looksLikeId (segments.getLast?.getD "") then joinWith "/" segments.dropLast ++ "/*"
  else path

/-- `build_l7_rules`: one rule for each method and generalised path, in order. -/
def buildL7Rules (samples : List (String × String)) : List L7Rule :=
  let keys := dedupFirst (samples.map fun sample => (sample.1, generalisePath sample.2))
  (keys.insertionSort fun a b => a.1 < b.1 ∨ (a.1 = b.1 ∧ a.2 ≤ b.2)).map fun key =>
    { allow := some { method := key.1, path := key.2 } }

/-! ## Destinations -/

/-- `is_known_metadata_hostname`. -/
def isKnownMetadataHostname (host : String) : Bool :=
  toAsciiLowercase (trimEndMatches (trim host) '.') == "metadata.google.internal"

/-- `is_always_blocked_destination`. No character past ASCII folds to a letter of
`localhost`. -/
def isAlwaysBlockedDestination (host : String) : Bool :=
  match parseIpAddr host with
  | some ip => isAlwaysBlockedIp ip
  | none =>
    toAsciiLowercase host == "localhost" || toAsciiLowercase host == "localhost." ||
      isKnownMetadataHostname host

/-! ## Proposals -/

/-- `generate_rule_name`. `isAlphanumeric` is Unicode's. -/
def generateRuleName (isAlphanumeric : Char → Bool) (host : String) (port : Nat) : String :=
  let sanitized := (host.toList.map fun c => if c = '.' ∨ c = '-' then '_' else c).filter
    fun c => isAlphanumeric c || c == '_'
  "allow_" ++ String.ofList sanitized ++ "_" ++ toString port

/-- The additions to `total_count`, a `u32` that wraps in a release build. -/
def totalCount (denials : List DenialSummary) : Nat :=
  denials.foldl (fun total denial => (total + denial.count) % 2 ^ 32) 0

/-- `u32::cast_signed`. -/
def castSigned (n : Nat) : Int := if n < 2 ^ 31 then (n : Int) else (n : Int) - 2 ^ 32

/-- What denials are grouped by: host, port and binary. -/
def DenialSummary.key (denial : DenialSummary) : String × Nat × String :=
  (denial.host, denial.port, denial.binary)

/-- The denials of one group. -/
def denialsOf (summaries : List DenialSummary) (key : String × Nat × String) : List DenialSummary :=
  summaries.filter fun denial => denial.key == key

def hasL7 (denials : List DenialSummary) : Bool :=
  denials.any fun denial => denial.l7InspectionActive || !denial.l7RequestSamples.isEmpty

/-- The keys of `l7_methods`. -/
def l7Methods (denials : List DenialSummary) : List (String × String) :=
  dedupFirst (denials.flatMap fun denial =>
    denial.l7RequestSamples.map fun sample => (sample.method, sample.path))

def proposedEndpoint (host : String) (port : Nat) (denials : List DenialSummary) :
    NetworkEndpoint :=
  let l7Rules := buildL7Rules (l7Methods denials)
  if hasL7 denials && !l7Rules.isEmpty then
    { host, port, ports := [port], protocol := "rest",
      enforcement := NetworkEnforcementMode.enforce.toInt, rules :=
        l7Rules, advisorProposed := true }
  else { host, port, ports := [port], advisorProposed := true }

/-- The chunk of a group that is not skipped. -/
def draft (isAlphanumeric : Char → Bool) (key : String × Nat × String)
    (denials : List DenialSummary) : PolicyChunk :=
  let (host, port, binary) := key
  let ruleName := generateRuleName isAlphanumeric host port
  { ruleName
    proposedRule := {
      name := ruleName
      endpoints := [proposedEndpoint host port denials]
      binaries := if isEmptyStr binary then [] else [{ path := binary }] }
    hitCount := castSigned (totalCount denials)
    binary }

/-- `generate_proposals`. Destinations that are blocked whatever the policy says get
no proposal. -/
def generateProposals (isAlphanumeric : Char → Bool) (summaries : List DenialSummary) :
    List PolicyChunk :=
  (dedupFirst (summaries.map DenialSummary.key)).filterMap fun key =>
    if isAlwaysBlockedDestination key.1 then none
    else some (draft isAlphanumeric key (denialsOf summaries key))

/-! ## The loops in closed form -/

theorem totalCount_eq (denials : List DenialSummary) :
    totalCount denials = (denials.map DenialSummary.count).sum % 2 ^ 32 := by
  -- the accumulator is the sum so far, reduced
  have hfold : ∀ (rest : List DenialSummary) (total : Nat),
      rest.foldl (fun total denial => (total + denial.count) % 2 ^ 32) (total % 2 ^ 32) =
        (total + (rest.map DenialSummary.count).sum) % 2 ^ 32 := by
    intro rest
    induction rest with
    | nil =>
      intro total
      rfl
    | cons denial rest ih =>
      intro total
      rw [List.foldl_cons, Nat.mod_add_mod, ih, List.map_cons, List.sum_cons, Nat.add_assoc]
  have h := hfold denials 0
  rwa [Nat.zero_add] at h

/-- The reported count is the sum exactly while the sum fits. -/
theorem castSigned_totalCount_iff (denials : List DenialSummary) :
    castSigned (totalCount denials) = ((denials.map DenialSummary.count).sum : Nat) ↔
      (denials.map DenialSummary.count).sum < 2 ^ 31 := by
  rw [totalCount_eq]
  generalize (denials.map DenialSummary.count).sum = total
  unfold castSigned
  constructor
  · intro h
    split at h <;> omega
  · intro h
    have hmod : total % 2 ^ 32 = total := Nat.mod_eq_of_lt (by omega)
    rw [hmod, if_pos h]

theorem mem_l7Methods {denials : List DenialSummary} {method path : String} :
    (method, path) ∈ l7Methods denials ↔
      ∃ sample ∈ denials.flatMap DenialSummary.l7RequestSamples,
        sample.method = method ∧ sample.path = path := by
  unfold l7Methods
  simp only [mem_dedupFirst, List.mem_flatMap, List.mem_map, Prod.mk.injEq]
  constructor
  · rintro ⟨denial, hd, sample, hs, hm, hp⟩
    exact ⟨sample, ⟨denial, hd, hs⟩, hm, hp⟩
  · rintro ⟨sample, ⟨denial, hd, hs⟩, hm, hp⟩
    exact ⟨denial, hd, sample, hs, hm, hp⟩

/-- The rules are those of the samples, each with its path generalised. -/
theorem mem_buildL7Rules {samples : List (String × String)} {rule : L7Rule} :
    rule ∈ buildL7Rules samples ↔ ∃ sample ∈ samples,
      rule = { allow := some { method := sample.1, path := generalisePath sample.2 } } := by
  unfold buildL7Rules
  simp only [List.mem_map, List.mem_insertionSort, mem_dedupFirst, exists_exists_and_eq_and]
  exact exists_congr fun sample => and_congr_right fun _ => eq_comm

theorem mem_denialsOf {summaries : List DenialSummary} {key : String × Nat × String}
    {denial : DenialSummary} :
    denial ∈ denialsOf summaries key ↔ denial ∈ summaries ∧ denial.key = key := by
  simp [denialsOf]

theorem mem_generateProposals {isAlphanumeric : Char → Bool} {summaries : List DenialSummary}
    {chunk : PolicyChunk} :
    chunk ∈ generateProposals isAlphanumeric summaries ↔
      ∃ denial ∈ summaries, isAlwaysBlockedDestination denial.host = false ∧
        chunk = draft isAlphanumeric denial.key (denialsOf summaries denial.key) := by
  unfold generateProposals
  simp only [List.mem_filterMap, mem_dedupFirst, List.mem_map]
  constructor
  · rintro ⟨_, ⟨denial, hd, rfl⟩, hsome⟩
    obtain ⟨hblocked, hsome⟩ := else_of_ite hsome (Option.some_ne_none _).symm
    exact ⟨denial, hd, Bool.eq_false_iff.mpr hblocked, (Option.some.inj hsome).symm⟩
  · rintro ⟨denial, hd, hblocked, rfl⟩
    refine ⟨denial.key, ⟨denial, hd, rfl⟩, ?_⟩
    exact if_neg (Bool.eq_false_iff.mp hblocked)

/-! ## Segments -/

theorem exists_last_segment {path : String} (hslash : '/' ∈ path.toList) :
    ∃ base last : String, '/' ∉ last.toList ∧ path = base ++ "/" ++ last := by
  obtain ⟨after, before, hsplit, hafter⟩ :=
    List.eq_append_cons_of_mem (List.mem_reverse.mpr hslash)
  refine ⟨String.ofList before.reverse, String.ofList after.reverse, by simpa using hafter, ?_⟩
  apply String.toList_inj.mp
  have hpath : path.toList = (after ++ '/' :: before).reverse := by
    rw [← hsplit, List.reverse_reverse]
  rw [hpath]
  simp [String.toList_append]

end OpenShell.Sandbox
