import OpenShell.Policy.Merge.RuleSpec

/-!
# No implicit grants

Adding a rule grants no binary a unit that neither the policy nor the operation
declared for it. A binary the operation does not name keeps exactly the units its
rule had; a binary the rule did not have gets only units the operation declares.
Both are read on canonical forms: on the wire an MCP endpoint may omit the
options that its contract, and hence coverage, is about.
-/

namespace OpenShell.Policy

/-! ## Binary scopes -/

variable {rule : NetworkPolicyRule}

theorem binaryScopeCovers_iff {binary : NetworkBinary} :
    binaryScopeCovers rule binary = true ↔ rule.binaries = [] ∨ binary ∈ rule.binaries := by
  have hpath : ∀ b : NetworkBinary, b.path = binary.path ↔ b = binary := by
    rintro ⟨p⟩
    cases binary
    simp
  simp [binaryScopeCovers, hpath]

@[simp] theorem binaryScopeCovers_preparedRule (ruleName : String) (rule : NetworkPolicyRule)
    (binary : NetworkBinary) :
    binaryScopeCovers (preparedRule ruleName rule) binary = binaryScopeCovers rule binary := by
  rw [Bool.eq_iff_iff, binaryScopeCovers_iff, binaryScopeCovers_iff]
  simp [preparedRule, normalizeRule]

section Scopes

variable {existingRule incomingRule merged : NetworkPolicyRule} {binary : NetworkBinary}
  {warnings : List PolicyMergeWarning}

/-- A merged rule authorizes what one of the two did. -/
theorem MergedRules.binaryScopeCovers_or (h : MergedRules existingRule incomingRule merged warnings)
    (hb : binaryScopeCovers merged binary = true) :
    binaryScopeCovers existingRule binary = true ∨
      binaryScopeCovers incomingRule binary = true := by
  simp only [binaryScopeCovers_iff, h.binaries, mergeBinaries, List.isEmpty_iff] at hb ⊢
  split at hb
  next he => exact Or.inl (Or.inl he)
  next he =>
    split at hb
    next hi => exact Or.inr (Or.inl hi)
    next hi =>
      rcases hb with hnil | hmem
      · have hno : ∀ b, b ∉ appendUnique existingRule.binaries incomingRule.binaries := by
          simp [hnil]
        obtain ⟨b, hb⟩ := List.exists_mem_of_ne_nil _ he
        exact absurd (mem_appendUnique.mpr (Or.inl hb)) (hno b)
      · exact (mem_appendUnique.mp hmem).imp Or.inr Or.inr

/-- A merged rule authorizes what both did. -/
theorem MergedRules.binaryScopeCovers_of_incoming
    (h : MergedRules existingRule incomingRule merged warnings)
    (hb : binaryScopeCovers incomingRule binary = true) :
    binaryScopeCovers merged binary = true := by
  simp only [binaryScopeCovers_iff, h.binaries, mergeBinaries, List.isEmpty_iff] at hb ⊢
  split
  next he => exact Or.inl he
  next he =>
    split
    next => exact Or.inl rfl
    next hi => exact Or.inr (mem_appendUnique.mpr (Or.inr (hb.resolve_left hi)))

theorem newBinaryScope_ne_none (he : binaryScopeCovers existingRule binary = false)
    (hi : binaryScopeCovers incomingRule binary = true) :
    newBinaryScope existingRule incomingRule ≠ none := by
  rw [← Bool.not_eq_true, binaryScopeCovers_iff, not_or] at he
  rw [binaryScopeCovers_iff] at hi
  unfold newBinaryScope
  rw [if_neg (by simpa using he.1)]
  split
  next => simp
  next hne =>
    have hmem := hi.resolve_left (by simpa using hne)
    rw [Ne, Option.map_eq_none_iff, List.find?_eq_none]
    intro hall
    refine hall binary hmem ?_
    have hpath : ∀ b ∈ existingRule.binaries, b.path ≠ binary.path := by
      rintro ⟨p⟩ hp rfl
      exact he.2 hp
    simpa using hpath

theorem undeclaredExistingBinaries_ne_nil (he : binaryScopeCovers existingRule binary = true)
    (hi : binaryScopeCovers incomingRule binary = false) :
    undeclaredExistingBinaries existingRule incomingRule ≠ [] := by
  rw [← Bool.not_eq_true, binaryScopeCovers_iff, not_or] at hi
  rw [binaryScopeCovers_iff] at he
  unfold undeclaredExistingBinaries
  rw [if_neg (by simpa using hi.1)]
  split
  next => simp
  next hne =>
    have hmem := he.resolve_left (by simpa using hne)
    refine List.ne_nil_of_mem (List.mem_map_of_mem (List.mem_filter.mpr ⟨hmem, ?_⟩))
    have hpath : ∀ b ∈ incomingRule.binaries, b.path ≠ binary.path := by
      rintro ⟨p⟩ hp rfl
      exact hi.2 hp
    simpa using hpath

end Scopes

/-! ## Declarations and normalization -/

theorem adoptUnsetRetainedFields_normalizeEndpoint (declared merged : NetworkEndpoint) :
    adoptUnsetRetainedFields (normalizeEndpoint declared) merged
      = normalizeEndpoint (adoptUnsetRetainedFields declared merged) := by
  simp [adoptUnsetRetainedFields, normalizeEndpoint, withPorts, canonicalPorts]

/-- An endpoint adopts nothing from its own normal form. -/
theorem adoptUnsetRetainedFields_self (endpoint : NetworkEndpoint) :
    adoptUnsetRetainedFields endpoint (normalizeEndpoint endpoint) = endpoint := by
  simp [adoptUnsetRetainedFields, normalizeEndpoint, withPorts]

variable {ruleName : String} {endpoint : NetworkEndpoint} {port : Option Nat}

/-- What a prepared rule declares, the rule declares. -/
theorem UnitDeclared.of_preparedRule (h : UnitDeclared (preparedRule ruleName rule) endpoint port) :
    UnitDeclared rule endpoint port := by
  obtain ⟨declared, hmem, hcov⟩ := h
  obtain ⟨d, hd, rfl⟩ := List.mem_map.mp hmem
  rw [adoptUnsetRetainedFields_normalizeEndpoint, endpointAuthorizationCoversPort_iff,
    covers_normalizeEndpoint_left] at hcov
  refine ⟨d, hd, endpointAuthorizationCoversPort_iff.mpr ⟨?_, hcov.2⟩⟩
  exact fun p hp => mem_canonicalPorts_normalizeEndpoint.mp (hcov.1 p hp)

/-- A rule declares every unit of its own prepared form. -/
theorem unitDeclared_preparedRule (hchecked : ∀ endpoint ∈ rule.endpoints, Checked endpoint)
    (he : endpoint ∈ (preparedRule ruleName rule).endpoints)
    (hp : port ∈ authorizationPorts endpoint) : UnitDeclared rule endpoint port := by
  obtain ⟨d, hd, rfl⟩ := List.mem_map.mp he
  refine ⟨d, hd, ?_⟩
  rw [adoptUnsetRetainedFields_self, endpointAuthorizationCoversPort_iff,
    covers_normalizeEndpoint_right]
  refine ⟨?_, .refl (hchecked d hd)⟩
  exact fun p hp' => mem_canonicalPorts_normalizeEndpoint.mp
    (portIn_of_mem_authorizationPorts hp p hp')

/-- A checked endpoint has every one of its units unchanged. -/
theorem authorizationUnitUnchanged_refl (h : Checked endpoint)
    (hp : port ∈ authorizationPorts endpoint) :
    authorizationUnitUnchanged endpoint endpoint port = true := by
  have hcov : endpointAuthorizationCoversPort endpoint endpoint port = true :=
    endpointAuthorizationCoversPort_iff.mpr ⟨portIn_of_mem_authorizationPorts hp, .refl h⟩
  simp [authorizationUnitUnchanged, hcov]

/-! ## The theorem -/

/-- Every unit of a rule after adding `rule` is one the binary had before, if the
operation does not authorize the binary, or one the operation declares, if the
binary is new to the rule. -/
def NoImplicitGrant (before : Option NetworkPolicyRule) (rule after : NetworkPolicyRule) : Prop :=
  ∀ endpoint ∈ after.endpoints, ∀ port ∈ authorizationPorts endpoint, ∀ binary,
    binaryScopeCovers after binary = true →
    (binaryScopeCovers rule binary = false → ∃ existing, before = some existing ∧
      binaryScopeCovers existing binary = true ∧ UnitUnchanged existing endpoint port) ∧
    ((∀ existing, before = some existing → binaryScopeCovers existing binary = false) →
      binaryScopeCovers rule binary = true ∧ UnitDeclared rule endpoint port)

theorem noImplicitGrant_of_unchanged {existing : NetworkPolicyRule}
    (h : ∀ endpoint ∈ existing.endpoints, Checked endpoint) :
    NoImplicitGrant (some existing) rule existing := by
  intro endpoint he port hp binary hb
  constructor
  · exact fun _ => ⟨existing, rfl, hb, endpoint, he, authorizationUnitUnchanged_refl (h _ he) hp⟩
  · intro hno
    rw [hno existing rfl] at hb
    cases hb

/-- **No implicit binary grant.** -/
theorem mergePolicy_noImplicitGrant {ext : External} {policy : SandboxPolicy} {ruleName : String}
    {rule : NetworkPolicyRule} {result : PolicyMergeResult}
    (h : mergePolicy ext policy [.addRule ruleName rule] = .ok result) :
    ∀ (key : String) (after : NetworkPolicyRule), result.policy.networkPolicies[key]? = some after →
      NoImplicitGrant (canonicalPolicy policy).networkPolicies[key]? (canonicalizeRule rule)
        after := by
  intro key after hafter
  have hadd := mergePolicy_addRule h
  rcases hadd.entry hafter with hsame | ⟨existing, hex, hm⟩ | ⟨hfree, rfl⟩
  · rw [hsame]
    exact noImplicitGrant_of_unchanged (hadd.input.checkedPolicy key after hsame)
  · rw [hex]
    intro endpoint he port hp binary hb
    have hor := hm.binaryScopeCovers_or hb
    have hdecl := hm.declared endpoint he
    rw [binaryScopeCovers_preparedRule] at hor
    constructor
    · intro hrule
      have hexb := hor.resolve_right (by simp [hrule])
      refine ⟨existing, rfl, hexb, hdecl.binaries ?_ port hp⟩
      exact undeclaredExistingBinaries_ne_nil hexb (by rwa [binaryScopeCovers_preparedRule])
    · intro hno
      have hexb := hno existing rfl
      have hrule := hor.resolve_left (by simp [hexb])
      refine ⟨hrule, (hdecl.scope ?_ port hp).of_preparedRule⟩
      exact newBinaryScope_ne_none hexb (by rwa [binaryScopeCovers_preparedRule])
  · rw [hfree]
    intro endpoint he port hp binary hb
    rw [binaryScopeCovers_preparedRule] at hb
    constructor
    · intro hrule
      rw [hb] at hrule
      cases hrule
    · exact fun _ => ⟨hb, unitDeclared_preparedRule hadd.checked he hp⟩

/-! ## A grant that is declared, and a policy that must be read canonically -/

/-- One REST endpoint with read-only access, for the given binaries. -/
def restRule (binaries : List NetworkBinary) : NetworkPolicyRule where
  endpoints := [{ host := "api.example.com", port := 443, protocol := "rest", access := 1 }]
  binaries

/-- An MCP endpoint that leaves its revisions to the default. -/
def mcpRule : NetworkPolicyRule where
  endpoints :=
    [{  host := "mcp.example.com"
        port := 443
        protocol := "mcp"
        rules := [methodRule "tools/call"] }]
  binaries := [⟨"/usr/bin/node"⟩]

def singleRule (key : String) (rule : NetworkPolicyRule) : SandboxPolicy :=
  insertRule restrictiveDefaultPolicy key rule

theorem mergePolicy_noImplicitGrant_declared :
    ∃ result,
      mergePolicy plainExternal (singleRule "api" (restRule [⟨"/usr/bin/curl"⟩]))
        [.addRule "api" (restRule [⟨"/usr/bin/wget"⟩])] = .ok result ∧
      ∀ (key : String) (after : NetworkPolicyRule),
        result.policy.networkPolicies[key]? = some after →
        NoImplicitGrant
          (canonicalPolicy (singleRule "api" (restRule [⟨"/usr/bin/curl"⟩]))).networkPolicies[key]?
          (canonicalizeRule (restRule [⟨"/usr/bin/wget"⟩])) after :=
  exists_ok_and (by decide) fun _ h => mergePolicy_noImplicitGrant h

/-- The rule of an MCP endpoint without options is changed by any merge, since
the merge fills the options in. -/
theorem noImplicitGrant_raw :
    ∃ result after,
      mergePolicy plainExternal (singleRule "tools" mcpRule)
        [.addRule "api" (restRule [⟨"/usr/bin/curl"⟩])] = .ok result ∧
      result.policy.networkPolicies["tools"]? = some after ∧
      ¬ NoImplicitGrant (singleRule "tools" mcpRule).networkPolicies["tools"]?
        (restRule [⟨"/usr/bin/curl"⟩]) after := by
  obtain ⟨result, h⟩ := exists_ok_of_isSome (x := mergePolicy plainExternal
    (singleRule "tools" mcpRule) [.addRule "api" (restRule [⟨"/usr/bin/curl"⟩])])
    (by decide)
  have hafter : result.policy.networkPolicies["tools"]? = some (canonicalizeRule mcpRule) :=
    apply_of_toOption_map (f := (·.policy.networkPolicies["tools"]?)) h (by decide)
  refine ⟨result, _, h, hafter, ?_⟩
  intro hgrant
  obtain ⟨existing, hex, -, e, he, hun⟩ := (hgrant _ (List.mem_singleton.mpr rfl) (some 443)
    (by decide) ⟨"/usr/bin/node"⟩ (by decide)).1 (by decide)
  rw [singleRule, getElem?_insertRule, if_pos rfl] at hex
  cases hex
  obtain rfl := List.mem_singleton.mp he
  revert hun
  decide

end OpenShell.Policy
