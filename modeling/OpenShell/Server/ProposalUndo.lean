import OpenShell.Policy.Merge.PortAuthority
import OpenShell.Policy.Merge.Restrict

/-!
# Undoing an approval

Approving a stored proposal adds its rule to the policy, where it may be folded
into a rule that is there. Undoing the approval removes one binary, the first of
the proposed rule, from the rule that has the name of the proposal.
-/

namespace OpenShell.Server

open OpenShell.Policy

/-- An endpoint without the marks the gateway derives. -/
def clearMarkers (endpoint : NetworkEndpoint) : NetworkEndpoint :=
  { endpoint with providerCredentialed := false, tokenGrantOwner := "" }

def clearProviderCredentialedMarkers (policy : SandboxPolicy) : SandboxPolicy :=
  mapEndpoints clearMarkers policy

/-- `apply_merge_operations_with_retry` on the current policy. What it checks of the merged
policy only refuses it. -/
def applyMergeOperations (ext : External) (policy : SandboxPolicy)
    (operations : List PolicyMergeOp) :
    Except PolicyMergeError SandboxPolicy := do
  let merged ← mergePolicy ext (clearProviderCredentialedMarkers policy) operations
  return clearProviderCredentialedMarkers merged.policy

/-- A stored proposal. -/
structure DraftChunk where
  ruleName : String
  proposedRule : NetworkPolicyRule

/-- `rule.binaries.first().map(path).unwrap_or_default()`. -/
def DraftChunk.binary (chunk : DraftChunk) : String :=
  ((chunk.proposedRule.binaries.head?).map (·.path)).getD ""

def mergeChunkIntoPolicy (ext : External) (policy : SandboxPolicy) (chunk : DraftChunk) :
    Except PolicyMergeError SandboxPolicy :=
  applyMergeOperations ext policy [.addRule chunk.ruleName chunk.proposedRule]

def removeChunkFromPolicy (ext : External) (policy : SandboxPolicy) (chunk : DraftChunk) :
    Except PolicyMergeError SandboxPolicy :=
  applyMergeOperations ext policy [.removeBinary chunk.ruleName chunk.binary]

/-! ## Access -/

/-- What an endpoint lets through: its host and path, the inspection it asks for, and the
requests it allows, with its access preset written out. -/
structure Access where
  host : String
  path : String
  protocol : String
  ports : List Nat
  allow : List L7Rule
  deriving DecidableEq

def inspectionOf (protocol : String) : String := if isMcpProtocol protocol then "mcp" else protocol

def accessOf (endpoint : NetworkEndpoint) : Access where
  host := toAsciiLowercase endpoint.host
  path := endpoint.path
  protocol := inspectionOf endpoint.protocol
  ports := canonicalPorts endpoint
  allow := endpoint.rules ++
    (expandAccessPreset (inspectionOf endpoint.protocol) (accessLabel endpoint.access)).getD []

/-- The units of an access, one per port. -/
def Access.units (access : Access) : List (Option Nat) :=
  if access.ports.isEmpty then [none] else access.ports.map some

structure Access.Covers (loaded unit : Access) (port : Option Nat) : Prop where
  host : loaded.host = unit.host
  path : loaded.path = unit.path
  protocol : loaded.protocol = unit.protocol
  port : portIn port loaded.ports
  allow : ∀ rule ∈ unit.allow, rule ∈ loaded.allow

/-- A rule of the policy gives the binary the unit. -/
def Grants (policy : SandboxPolicy) (binary : NetworkBinary) (access : Access)
    (port : Option Nat) : Prop :=
  ∃ (key : String) (rule : NetworkPolicyRule), policy.networkPolicies[key]? = some rule ∧
    binaryScopeCovers rule binary = true ∧
    ∃ endpoint ∈ rule.endpoints, accessOf endpoint = access ∧ port ∈ access.units

/-- A rule of the policy lets the binary do what the unit allows. -/
def Authorizes (policy : SandboxPolicy) (binary : NetworkBinary) (access : Access)
    (port : Option Nat) : Prop :=
  ∃ (key : String) (rule : NetworkPolicyRule), policy.networkPolicies[key]? = some rule ∧
    binaryScopeCovers rule binary = true ∧ ∃ endpoint ∈ rule.endpoints,
    (accessOf endpoint).Covers access port

/-- Whatever the policy gives, the earlier one authorized. -/
def Revoked (before after : SandboxPolicy) : Prop :=
  ∀ binary access port, Grants after binary access port → Authorizes before binary access port

/-- The approval gave nothing to the binaries of the proposal that an undo leaves in place. -/
def GrantsNothingElse (before approved : SandboxPolicy) (chunk : DraftChunk) : Prop :=
  ∀ binary, binaryScopeCovers chunk.proposedRule binary = true →
    ((approved.networkPolicies[chunk.ruleName]?).isSome = true → binary.path ≠ chunk.binary) →
    ∀ access port, Grants approved binary access port → Authorizes before binary access port

/-! ## What the steps leave of access -/

theorem Access.Covers.refl {access : Access} {port : Option Nat} (h : port ∈ access.units) :
    access.Covers access port where
  host := rfl
  path := rfl
  protocol := rfl
  port := by
    rintro p rfl
    unfold Access.units at h
    split at h
    next => cases List.mem_singleton.mp h
    next => simpa using h
  allow _ h := h

/-! ## Policies by what they give -/

/-- The binaries of a rule and the access they have. -/
def ruleAccess (rule : NetworkPolicyRule) : List NetworkBinary × List Access :=
  (rule.binaries, rule.endpoints.map accessOf)

def accessAt (policy : SandboxPolicy) (key : String) : Option (List NetworkBinary × List Access) :=
  policy.networkPolicies[key]?.map ruleAccess

/-- An empty list stands for every binary. -/
def InScope (binaries : List NetworkBinary) (binary : NetworkBinary) : Prop :=
  binaries = [] ∨ binary ∈ binaries

section Access
variable {policy : SandboxPolicy} {binary : NetworkBinary} {access : Access} {port : Option Nat}

theorem grants_iff : Grants policy binary access port ↔
    ∃ key rule, accessAt policy key = some rule ∧
    InScope rule.1 binary ∧ access ∈ rule.2 ∧ port ∈ access.units := by
  constructor
  · rintro ⟨key, rule, hrule, hscope, endpoint, hendpoint, rfl, hport⟩
    exact ⟨key, ruleAccess rule, by rw [accessAt, hrule, Option.map_some],
      binaryScopeCovers_iff.mp hscope, List.mem_map_of_mem hendpoint, hport⟩
  · rintro ⟨key, _, hat, hscope, haccess, hport⟩
    obtain ⟨rule, hrule, rfl⟩ := Option.map_eq_some_iff.mp hat
    obtain ⟨endpoint, hendpoint, rfl⟩ := List.mem_map.mp haccess
    exact ⟨key, rule, hrule, binaryScopeCovers_iff.mpr hscope, endpoint, hendpoint, rfl, hport⟩

theorem authorizes_iff : Authorizes policy binary access port ↔
    ∃ key rule, accessAt policy key = some rule ∧
    InScope rule.1 binary ∧ ∃ loaded ∈ rule.2, loaded.Covers access port := by
  constructor
  · rintro ⟨key, rule, hrule, hscope, endpoint, hendpoint, hcovers⟩
    exact ⟨key, ruleAccess rule, by rw [accessAt, hrule, Option.map_some],
      binaryScopeCovers_iff.mp hscope, _, List.mem_map_of_mem hendpoint, hcovers⟩
  · rintro ⟨key, _, hat, hscope, loaded, hloaded, hcovers⟩
    obtain ⟨rule, hrule, rfl⟩ := Option.map_eq_some_iff.mp hat
    obtain ⟨endpoint, hendpoint, rfl⟩ := List.mem_map.mp hloaded
    exact ⟨key, rule, hrule, binaryScopeCovers_iff.mpr hscope, endpoint, hendpoint, hcovers⟩

theorem Grants.authorizes (h : Grants policy binary access port) :
    Authorizes policy binary access port := by
  obtain ⟨key, rule, hrule, hscope, haccess, hport⟩ := grants_iff.mp h
  exact authorizes_iff.mpr ⟨key, rule, hrule, hscope, access, haccess, .refl hport⟩

/-- Changing endpoints in other respects leaves the access. -/
theorem accessAt_mapEndpoints {f : NetworkEndpoint → NetworkEndpoint}
    (hf : ∀ e, accessOf (f e) = accessOf e) (policy : SandboxPolicy) (key : String) :
    accessAt (mapEndpoints f policy) key = accessAt policy key := by
  have hlook : (mapEndpoints f policy).networkPolicies[key]? =
      policy.networkPolicies[key]?.map fun rule =>
      { rule with endpoints := rule.endpoints.map f } := Std.ExtTreeMap.getElem?_map
  unfold accessAt
  rw [hlook, Option.map_map]
  congr 1
  funext rule
  simp [ruleAccess, Function.comp_def, hf]

theorem accessAt_clear (policy : SandboxPolicy) (key : String) :
    accessAt (clearProviderCredentialedMarkers policy) key = accessAt policy key :=
  accessAt_mapEndpoints (f := clearMarkers) (fun _ => rfl) policy key

theorem accessAt_canonicalPolicy (policy : SandboxPolicy) (key : String) :
    accessAt (canonicalPolicy policy) key = accessAt policy key :=
  accessAt_mapEndpoints (fun endpoint => by rw [canonicalizeEndpoint_eq]; rfl) policy key

theorem accessAt_insertRule (policy : SandboxPolicy) (key key' : String)
    (rule : NetworkPolicyRule) :
    accessAt (insertRule policy key rule) key' = if key = key' then some (ruleAccess rule) else
      accessAt policy key' := by
  unfold accessAt
  rw [getElem?_insertRule]
  split <;> rfl

end Access

/-! ## Approval -/

theorem inspectionOf_eq {left right : String} (h : protocolsMatch left right = true) :
    inspectionOf left = inspectionOf right := by
  unfold protocolsMatch at h
  unfold inspectionOf
  split at h
  next hmcp =>
    rw [Bool.and_eq_true] at h
    rw [if_pos h.1, if_pos h.2]
  next => rw [beq_iff_eq.mp h]

/-- An unchanged unit gives what it gave. -/
theorem covers_of_unchanged {existing endpoint : NetworkEndpoint} {port : Option Nat}
    (h : authorizationUnitUnchanged existing endpoint port = true) :
    (accessOf existing).Covers (accessOf endpoint) port := by
  unfold authorizationUnitUnchanged at h
  rw [Bool.and_eq_true, Bool.and_eq_true, endpointAuthorizationCoversPort_iff,
    endpointAuthorizationCoversPort_iff] at h
  obtain ⟨⟨-, hport, hcovers⟩, -, hback⟩ := h
  have hprotocol : inspectionOf existing.protocol = inspectionOf endpoint.protocol := by
    by_cases hset : endpoint.protocol = ""
    · by_cases hset' : existing.protocol = ""
      · rw [hset, hset']
      · exact (inspectionOf_eq (hback.protocol hset')).symm
    · exact inspectionOf_eq (hcovers.protocol hset)
  have haccess : existing.access = endpoint.access := by
    by_cases hset : endpoint.access = 0
    · by_cases hset' : existing.access = 0
      · rw [hset, hset']
      · exact (hback.access hset').symm
    · exact hcovers.access hset
  refine ⟨eqIgnoreAsciiCase_iff.mp hcovers.host, hcovers.path, hprotocol, hport,
    fun rule hrule => ?_⟩
  rcases List.mem_append.mp hrule with hrule | hrule
  · exact List.mem_append_left _ (hcovers.widens.rules rule hrule)
  · refine List.mem_append_right _ ?_
    rw [hprotocol, haccess]
    exact hrule

/-- The access of the policy a merge starts from. -/
theorem accessAt_loaded (policy : SandboxPolicy) (key : String) :
    accessAt (canonicalPolicy (clearProviderCredentialedMarkers policy)) key =
      accessAt policy key :=
  (accessAt_canonicalPolicy _ key).trans (accessAt_clear policy key)

/-- What an approval does: one rule changes, which has the name of the proposal unless there is
none of that name, and gives nothing to binaries the proposal does not name. -/
theorem mergeChunkIntoPolicy_cases {ext : External} {policy approved : SandboxPolicy}
    {chunk : DraftChunk} (h : mergeChunkIntoPolicy ext policy chunk = .ok approved) :
    ∃ key rule, accessAt approved key = some rule ∧
      (∀ key', key' ≠ key → accessAt approved key' = accessAt policy key') ∧
      (key = chunk.ruleName ∨ accessAt approved chunk.ruleName = none) ∧
      ∀ binary, InScope rule.1 binary → binaryScopeCovers chunk.proposedRule binary = false →
        ∀ access ∈ rule.2, ∀ port ∈ access.units, Authorizes policy binary access port := by
  obtain ⟨result, hmerge, rfl⟩ := bind_ok_eq_ok h
  rcases addRule_cases (mergePolicy_addRule hmerge).added with
    ⟨key, existing, merged, hex, hkey, hm, hpolicy⟩ | ⟨hfree, hpolicy⟩
  · refine ⟨key, ruleAccess merged, ?_,
      fun key' hne => ?_, ?_, fun binary hscope hnot access haccess port hport => ?_⟩
    · rw [accessAt_clear, hpolicy, accessAt_insertRule, if_pos rfl]
    · rw [accessAt_clear, hpolicy, accessAt_insertRule, if_neg hne.symm, accessAt_loaded]
    · rcases hkey with rfl | ⟨hnone, -⟩
      · exact .inl rfl
      · by_cases hname : key = chunk.ruleName
        · exact .inl hname
        · refine .inr ?_
          rw [accessAt_clear, hpolicy, accessAt_insertRule, if_neg hname, accessAt, hnone,
            Option.map_none]
    · obtain ⟨endpoint, hendpoint, rfl⟩ := List.mem_map.mp haccess
      have hor := hm.binaryScopeCovers_or (binaryScopeCovers_iff.mpr hscope)
      have hincoming : binaryScopeCovers
          (preparedRule chunk.ruleName (canonicalizeRule chunk.proposedRule)) binary = false := by
        rw [binaryScopeCovers_preparedRule, binaryScopeCovers_canonicalizeRule]
        exact hnot
      rw [hincoming] at hor
      have hexisting := hor.resolve_right Bool.false_ne_true
      have hundeclared := undeclaredExistingBinaries_ne_nil hexisting hincoming
      obtain ⟨loaded, hloaded, hunchanged⟩ :=
        (hm.declared endpoint hendpoint).binaries hundeclared port hport
      refine authorizes_iff.mpr ⟨key, ruleAccess existing, ?_, binaryScopeCovers_iff.mp hexisting,
        accessOf loaded, List.mem_map_of_mem hloaded, covers_of_unchanged hunchanged⟩
      rw [← accessAt_loaded policy, accessAt, hex, Option.map_some]
  · refine ⟨chunk.ruleName,
      ruleAccess (preparedRule chunk.ruleName (canonicalizeRule chunk.proposedRule)), ?_,
      fun key' hne => ?_, .inl rfl, fun binary hscope hnot => ?_⟩
    · rw [accessAt_clear, hpolicy, accessAt_insertRule, if_pos rfl]
    · rw [accessAt_clear, hpolicy, accessAt_insertRule, if_neg hne.symm, accessAt_loaded]
    · have hcovers := binaryScopeCovers_iff.mpr hscope
      rw [binaryScopeCovers_preparedRule, binaryScopeCovers_canonicalizeRule, hnot] at hcovers
      cases hcovers

/-! ## Undo -/

/-- The binaries that are left when one path is removed. -/
def remaining (path : String) (binaries : List NetworkBinary) : List NetworkBinary :=
  binaries.filter fun binary => binary.path ≠ path

theorem mem_remaining {path : String} {binaries : List NetworkBinary} {binary : NetworkBinary} :
    binary ∈ remaining path binaries ↔ binary ∈ binaries ∧ binary.path ≠ path := by
  rw [remaining, List.mem_filter, decide_eq_true_iff]

/-- What an undo does: the binary goes from the rule with the name of the proposal. -/
theorem removeChunkFromPolicy_cases {ext : External} {policy undone : SandboxPolicy}
    {chunk : DraftChunk} (h : removeChunkFromPolicy ext policy chunk = .ok undone) :
    (∀ key, key ≠ chunk.ruleName → accessAt undone key = accessAt policy key) ∧
      (accessAt policy chunk.ruleName = none → accessAt undone chunk.ruleName = none) ∧
      ∀ rule, accessAt policy chunk.ruleName = some rule → rule.1 ≠ [] ∧
        accessAt undone chunk.ruleName =
          if remaining chunk.binary rule.1 = [] then none else
            some (remaining chunk.binary rule.1, rule.2) := by
  obtain ⟨result, hmerge, rfl⟩ := bind_ok_eq_ok h
  obtain ⟨operation, merged, hone⟩ := mergePolicy_eq_ok hmerge
  cases hone.operation
  obtain ⟨removed, hremoved, happlied⟩ := bind_eq_ok hone.applied
  obtain ⟨rfl, -⟩ := ok_pair_inj happlied
  have hout : ∀ key, accessAt (clearProviderCredentialedMarkers result.policy) key =
      accessAt removed key := fun key => by
    rw [accessAt_clear, hone.policy, accessAt_canonicalPolicy]
  unfold removeBinary at hremoved
  split at hremoved
  next hnone =>
    cases hremoved
    have hsame : ∀ key, accessAt (clearProviderCredentialedMarkers result.policy) key =
        accessAt policy key := fun key =>
      (hout key).trans (accessAt_loaded policy key)
    refine ⟨fun key _ => hsame key, fun h => (hsame _).trans h, fun rule hrule => ?_⟩
    rw [← accessAt_loaded policy, accessAt, hnone] at hrule
    cases hrule
  next rule hrule =>
    have hat : accessAt policy chunk.ruleName = some (ruleAccess rule) := by
      rw [← accessAt_loaded policy, accessAt, hrule, Option.map_some]
    obtain ⟨hnonempty, hremoved⟩ := else_of_ite hremoved nofun
    dsimp only at hremoved
    have hkept : rule.binaries ≠ [] := by simpa using hnonempty
    refine ⟨fun key hne => ?_, fun hnone => ?_, fun rule' hrule' => ?_⟩
    · rw [hout, ← accessAt_loaded policy]
      split at hremoved
      next =>
        cases hremoved
        rw [accessAt, getElem?_eraseRule, if_neg hne.symm, accessAt]
      next =>
        cases hremoved
        rw [accessAt_insertRule, if_neg hne.symm]
    · rw [hat] at hnone
      cases hnone
    · obtain rfl := Option.mem_unique hat hrule'
      refine ⟨hkept, ?_⟩
      rw [hout]
      split at hremoved
      next hgone =>
        cases hremoved
        have hnil : remaining chunk.binary (ruleAccess rule).1 = [] := List.isEmpty_iff.mp hgone.2
        rw [accessAt, getElem?_eraseRule, if_pos rfl, if_pos hnil, Option.map_none]
      next hstays =>
        cases hremoved
        rw [accessAt_insertRule, if_pos rfl, if_neg]
        · rfl
        · intro hnil
          refine hstays ⟨?_, List.isEmpty_iff.mpr hnil⟩
          have hnone : rule.binaries.filter
              (fun binary => decide (binary.path ≠ chunk.binary)) = [] := hnil
          rw [hnone, List.length_nil, Ne, List.length_eq_zero_iff]
          exact hkept

section Undone
variable {ext : External} {policy approved undone : SandboxPolicy} {chunk : DraftChunk}
  {binary : NetworkBinary}
variable {access : Access} {port : Option Nat}

/-- What a rule gives after an undo it gave before, and not to the removed binary. -/
theorem accessAt_of_undone {key : String} {rule : List NetworkBinary × List Access}
    (hundo : removeChunkFromPolicy ext approved chunk = .ok undone)
    (hat : accessAt undone key = some rule) (hscope : InScope rule.1 binary) :
    ∃ earlier, accessAt approved key = some earlier ∧ InScope earlier.1 binary ∧
      earlier.2 = rule.2 ∧ (key = chunk.ruleName → binary.path ≠ chunk.binary) := by
  obtain ⟨hrest, habsent, hremoved⟩ := removeChunkFromPolicy_cases hundo
  by_cases hname : key = chunk.ruleName
  · subst hname
    cases hbase : accessAt approved chunk.ruleName with
    | none =>
      rw [habsent hbase] at hat
      cases hat
    | some earlier =>
      have hkept := (hremoved earlier hbase).2
      rw [hat] at hkept
      split at hkept
      next => cases hkept
      next hleft =>
        cases hkept
        have hmem := mem_remaining.mp (hscope.resolve_left hleft)
        exact ⟨earlier, rfl, .inr hmem.1, rfl, fun _ => hmem.2⟩
  · exact ⟨rule, (hrest key hname).symm.trans hat, hscope, rfl, fun h => absurd h hname⟩

/-- An undo takes nothing from other binaries. -/
theorem Grants.afterUndo (hundo : removeChunkFromPolicy ext approved chunk = .ok undone)
    (hgrants : Grants approved binary access port)
    (hleft : (accessAt approved chunk.ruleName).isSome = true → binary.path ≠ chunk.binary) :
    Grants undone binary access port := by
  obtain ⟨hrest, -, hremoved⟩ := removeChunkFromPolicy_cases hundo
  obtain ⟨key, rule, hat, hscope, haccess, hport⟩ := grants_iff.mp hgrants
  by_cases hname : key = chunk.ruleName
  · subst hname
    obtain ⟨hne, hkept⟩ := hremoved rule hat
    have hpath := hleft (by rw [hat]; rfl)
    have hmem := mem_remaining.mpr ⟨hscope.resolve_left hne, hpath⟩
    rw [if_neg (List.ne_nil_of_mem hmem)] at hkept
    exact grants_iff.mpr ⟨_, _, hkept, .inr hmem, haccess, hport⟩
  · exact grants_iff.mpr ⟨key, rule, (hrest key hname).trans hat, hscope, haccess, hport⟩

/-- Undoing revokes what was approved exactly if the approval gave nothing to the binaries that
the undo leaves in place. -/
theorem revoked_iff (happrove : mergeChunkIntoPolicy ext policy chunk = .ok approved)
    (hundo : removeChunkFromPolicy ext approved chunk = .ok undone) :
    Revoked policy undone ↔ GrantsNothingElse policy approved chunk := by
  have hisSome : (approved.networkPolicies[chunk.ruleName]?).isSome =
      (accessAt approved chunk.ruleName).isSome := by
    rw [accessAt, Option.isSome_map]
  unfold GrantsNothingElse
  rw [hisSome]
  constructor
  · intro hrevoked binary _ hleft access port hgrants
    exact hrevoked binary access port (hgrants.afterUndo hundo hleft)
  · intro hnothing binary access port hgrants
    obtain ⟨key, rule', hat', hscope', haccess, hport⟩ := grants_iff.mp hgrants
    obtain ⟨rule, hat, hscope, hsame, hpath⟩ := accessAt_of_undone hundo hat' hscope'
    rw [← hsame] at haccess
    have happroved : Grants approved binary access port :=
      grants_iff.mpr ⟨key, rule, hat, hscope, haccess, hport⟩
    obtain ⟨landed, merged, hlanded, hother, hplace, hunnamed⟩ :=
      mergeChunkIntoPolicy_cases happrove
    by_cases hkey : key = landed
    · subst hkey
      obtain rfl := Option.mem_unique hlanded hat
      cases hnamed : binaryScopeCovers chunk.proposedRule binary with
      | false => exact hunnamed binary hscope hnamed access haccess port hport
      | true =>
        refine hnothing binary hnamed (fun hsome => ?_) access port happroved
        refine hpath (hplace.resolve_right fun hnone => ?_)
        rw [hnone] at hsome
        cases hsome
    · -- another rule is as it was before the approval
      rw [hother key hkey] at hat
      exact Grants.authorizes (grants_iff.mpr ⟨key, rule, hat, hscope, haccess, hport⟩)

end Undone

/-! ## A proposal of one binary, and of two -/

def curl : NetworkBinary := ⟨"/usr/bin/curl"⟩

def wget : NetworkBinary := ⟨"/usr/bin/wget"⟩

/-- A proposal to let the binaries read from one REST endpoint. -/
def restChunk (binaries : List NetworkBinary) : DraftChunk := ⟨"api", restRule binaries⟩

theorem not_authorizes_default (binary : NetworkBinary) (access : Access) (port : Option Nat) :
    ¬ Authorizes restrictiveDefaultPolicy binary access port := by
  rintro ⟨key, rule, hrule, -⟩
  rw [restrictiveDefaultPolicy, Std.ExtTreeMap.getElem?_empty] at hrule
  cases hrule

theorem revoked_iff_oneBinary :
    ∃ approved undone, mergeChunkIntoPolicy plainExternal restrictiveDefaultPolicy
      (restChunk [curl]) = .ok approved ∧
      removeChunkFromPolicy plainExternal approved (restChunk [curl]) = .ok undone ∧
      Revoked restrictiveDefaultPolicy undone ∧
      GrantsNothingElse restrictiveDefaultPolicy approved (restChunk [curl]) := by
  obtain ⟨undone, h⟩ :=
    exists_ok_of_isSome (x := mergeChunkIntoPolicy plainExternal restrictiveDefaultPolicy
    (restChunk [curl]) >>= fun approved => removeChunkFromPolicy plainExternal approved
    (restChunk [curl])) (by decide)
  have hempty : undone.networkPolicies.isEmpty = true :=
    apply_of_toOption_map (f := (·.networkPolicies.isEmpty)) h (by decide)
  obtain ⟨approved, happrove, hundo⟩ := bind_eq_ok h
  have hrevoked : Revoked restrictiveDefaultPolicy undone := by
    rintro binary access port ⟨key, rule, hrule, -⟩
    rw [Std.ExtTreeMap.isEmpty_iff.mp hempty, Std.ExtTreeMap.getElem?_empty] at hrule
    cases hrule
  exact ⟨approved, undone, happrove, hundo, hrevoked, (revoked_iff happrove hundo).mp hrevoked⟩

/-- The second binary of a proposal keeps what the approval gave it. -/
theorem not_revoked_twoBinaries :
    ∃ approved undone, mergeChunkIntoPolicy plainExternal restrictiveDefaultPolicy
      (restChunk [curl, wget]) = .ok approved ∧
      removeChunkFromPolicy plainExternal approved (restChunk [curl, wget]) = .ok undone ∧
      ¬ Revoked restrictiveDefaultPolicy undone := by
  obtain ⟨undone, h⟩ :=
    exists_ok_of_isSome (x := mergeChunkIntoPolicy plainExternal restrictiveDefaultPolicy
    (restChunk [curl, wget]) >>= fun approved => removeChunkFromPolicy plainExternal approved
    (restChunk [curl, wget])) (by decide)
  have hleft : accessAt undone "api" = some (ruleAccess (restRule [wget])) :=
    apply_of_toOption_map (f := (accessAt · "api")) h (by decide)
  obtain ⟨approved, happrove, hundo⟩ := bind_eq_ok h
  refine ⟨approved, undone, happrove, hundo, fun hrevoked => ?_⟩
  refine not_authorizes_default wget _ (some 443) (hrevoked wget _ (some 443) (grants_iff.mpr
    ⟨"api", _, hleft, .inr (List.mem_singleton.mpr rfl), List.mem_singleton.mpr rfl, ?_⟩))
  decide

end OpenShell.Server
