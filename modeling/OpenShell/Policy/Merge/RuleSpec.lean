import OpenShell.Policy.Merge.Canonical

/-!
# What merging a rule guarantees

`foldEndpoint_cases` is the one step of the endpoint fold, and
`foldEndpoints_invariant` carries a property of endpoints through the whole fold.
`Declared` is what the guard establishes for each merged endpoint, and
`addRule_cases` lists the places an added rule can land.
-/

namespace OpenShell.Policy

/-! ## The endpoint fold -/

variable {operationIndex : Nat} {incoming : NetworkEndpoint}

theorem foldEndpoint_cases {warnings : List PolicyMergeWarning} :
    ∀ {endpoints folded : List NetworkEndpoint},
      foldEndpoint operationIndex incoming endpoints = .ok (folded, warnings) →
      (∃ before existing after merged, endpoints = before ++ existing :: after ∧
        (∀ e ∈ before, endpointsOverlap e incoming = false) ∧
        endpointsOverlap existing incoming = true ∧
        mergeEndpoint existing incoming operationIndex = .ok (merged, warnings) ∧
        folded = before ++ merged :: after) ∨
      ((∀ e ∈ endpoints, endpointsOverlap e incoming = false) ∧
        folded = endpoints ++ [incoming] ∧ warnings = [])
  | [], folded, h => by
    cases h
    exact Or.inr ⟨by simp, rfl, rfl⟩
  | existing :: rest, folded, h => by
    unfold foldEndpoint at h
    split at h
    next hover =>
      obtain ⟨⟨merged, warnings'⟩, hm, ⟨⟩⟩ := bind_ok_eq_ok h
      exact Or.inl ⟨[], existing, rest, merged, rfl, by simp, hover, hm, rfl⟩
    next hover =>
      obtain ⟨⟨rest', warnings'⟩, hrest, ⟨⟩⟩ := bind_ok_eq_ok h
      have hfalse : endpointsOverlap existing incoming = false := by simpa using hover
      rcases foldEndpoint_cases hrest with
        ⟨before, e, after, merged, rfl, hbefore, he, hm, rfl⟩ | ⟨hnone, rfl, hw⟩
      · exact Or.inl ⟨existing :: before, e, after, merged, rfl,
          List.forall_mem_cons.mpr ⟨hfalse, hbefore⟩, he, hm, rfl⟩
      · exact Or.inr ⟨List.forall_mem_cons.mpr ⟨hfalse, hnone⟩, rfl, hw⟩

variable {endpoints folded : List NetworkEndpoint} {warnings : List PolicyMergeWarning}

/-- Step: what holds of the endpoints and is kept by merging holds after one more is folded in. -/
theorem foldEndpoint_invariant {Q : NetworkEndpoint → Prop} (hpush : Q incoming)
    (hmerge : ∀ e m, Q e → endpointsOverlap e incoming = true →
      mergeEndpoint e incoming operationIndex = .ok (m, warnings) → Q m)
    (hall : ∀ e ∈ endpoints, Q e)
    (h : foldEndpoint operationIndex incoming endpoints = .ok (folded, warnings)) :
    ∀ e ∈ folded, Q e := by
  rcases foldEndpoint_cases h with ⟨before, e, after, m, rfl, -, hover, hm, rfl⟩ | ⟨-, rfl, -⟩
  · rw [List.forall_mem_append, List.forall_mem_cons] at hall ⊢
    exact ⟨hall.1, hmerge e m hall.2.1 hover hm, hall.2.2⟩
  · exact List.forall_mem_append.mpr ⟨hall, List.forall_mem_singleton.mpr hpush⟩

/-- A fold folds the first endpoint in and then the others. -/
theorem foldEndpoints_cons {rest : List NetworkEndpoint}
    (h : foldEndpoints operationIndex endpoints (incoming :: rest) = .ok (folded, warnings)) :
    ∃ next w w', foldEndpoint operationIndex (normalizeEndpoint incoming) endpoints =
      .ok (next, w) ∧
      foldEndpoints operationIndex next rest = .ok (folded, w') ∧ w ++ w' = warnings := by
  obtain ⟨⟨next, w⟩, hone, h⟩ := bind_eq_ok h
  obtain ⟨⟨last, w'⟩, hrest, h⟩ := bind_eq_ok h
  obtain ⟨rfl, hw⟩ := ok_pair_inj h
  exact ⟨next, w, w', hone, hrest, hw⟩

/-- Run: what holds of the endpoints of both rules and is kept by merging holds of the
folded endpoints. -/
theorem foldEndpoints_invariant {Q : NetworkEndpoint → Prop} :
    ∀ {incoming endpoints folded : List NetworkEndpoint} {warnings : List PolicyMergeWarning},
      (∀ i ∈ incoming, Q (normalizeEndpoint i)) →
      (∀ e i m w, Q e → i ∈ incoming → endpointsOverlap e (normalizeEndpoint i) = true →
        mergeEndpoint e (normalizeEndpoint i) operationIndex = .ok (m, w) → Q m) →
      (∀ e ∈ endpoints, Q e) →
      foldEndpoints operationIndex endpoints incoming = .ok (folded, warnings) →
      ∀ e ∈ folded, Q e
  | [], endpoints, folded, warnings, _, _, hall, h => by
    cases h
    exact hall
  | i :: incoming, endpoints, folded, warnings, hpush, hmerge, hall, h => by
    obtain ⟨next, w, w', hone, hrest, -⟩ := foldEndpoints_cons h
    have hnext := foldEndpoint_invariant (hpush i List.mem_cons_self)
      (fun e m he => hmerge e i m w he List.mem_cons_self) hall hone
    exact foldEndpoints_invariant (List.forall_mem_cons.mp hpush).2
      (fun e j m w he hj => hmerge e j m w he (List.mem_cons_of_mem _ hj)) hnext hrest

/-! ## The guard -/

/-- The unit of the endpoint at a port is one an existing endpoint already had. -/
def UnitUnchanged (existingRule : NetworkPolicyRule) (endpoint : NetworkEndpoint)
    (port : Option Nat) : Prop :=
  ∃ existing ∈ existingRule.endpoints, authorizationUnitUnchanged existing endpoint port = true

/-- The unit of the endpoint at a port is declared by the operation. -/
def UnitDeclared (incomingRule : NetworkPolicyRule) (endpoint : NetworkEndpoint)
    (port : Option Nat) : Prop :=
  ∃ declared ∈ incomingRule.endpoints,
    endpointAuthorizationCoversPort (adoptUnsetRetainedFields declared endpoint) endpoint port
      = true

/-- What the guard establishes for a merged endpoint. -/
structure Declared (existingRule incomingRule : NetworkPolicyRule) (endpoint : NetworkEndpoint) :
    Prop where
  scope : newBinaryScope existingRule incomingRule ≠ none →
    ∀ port ∈ authorizationPorts endpoint, UnitDeclared incomingRule endpoint port
  named : ∀ port ∈ authorizationPorts endpoint, ¬ UnitUnchanged existingRule endpoint port →
    operationNamesPort incomingRule endpoint port = true
  binaries : undeclaredExistingBinaries existingRule incomingRule ≠ [] →
    ∀ port ∈ authorizationPorts endpoint, UnitUnchanged existingRule endpoint port

variable {existingRule : NetworkPolicyRule} {endpoint : NetworkEndpoint} {port : Option Nat}

theorem mem_changedPorts :
    port ∈ changedPorts existingRule endpoint ↔
      port ∈ authorizationPorts endpoint ∧ ¬ UnitUnchanged existingRule endpoint port := by
  simp [changedPorts, UnitUnchanged]

variable {incomingRule : NetworkPolicyRule}

theorem mem_undeclaredPorts :
    port ∈ undeclaredPorts incomingRule endpoint ↔
      port ∈ authorizationPorts endpoint ∧ ¬ UnitDeclared incomingRule endpoint port := by
  simp [undeclaredPorts, UnitDeclared, operationDeclares]

variable {ruleName : String}

theorem declared_of_ensure
    (h : ensureEndpointIsDeclared existingRule incomingRule operationIndex ruleName endpoint
      = .ok ()) : Declared existingRule incomingRule endpoint := by
  obtain ⟨_, hscope, h⟩ := bind_eq_ok h
  obtain ⟨hnamed, h⟩ := rejectIf_bind.mp h
  have hbinaries := rejectIf_eq_ok.mp h
  refine ⟨?_, ?_, ?_⟩
  · intro hne port hport
    by_contra hno
    unfold ensureNewBinaryIsDeclared at hscope
    split at hscope
    next =>
      have hnil := not_not.mp (rejectIf_eq_ok.mp hscope)
      exact List.not_mem_nil (hnil ▸ mem_undeclaredPorts.mpr ⟨hport, hno⟩)
    next hnone => exact hne hnone
  · intro port hport hchanged
    by_contra hno
    refine hnamed ?_
    refine List.ne_nil_of_mem (List.mem_filter.mpr ⟨mem_changedPorts.mpr ⟨hport, hchanged⟩, ?_⟩)
    simpa using hno
  · intro hundeclared port hport
    by_contra hchanged
    exact hbinaries ⟨List.ne_nil_of_mem (mem_changedPorts.mpr ⟨hport, hchanged⟩), hundeclared⟩

/-! ## Merged rules -/

/-- What a successful merge of rules did. -/
structure MergedRules (existingRule incomingRule merged : NetworkPolicyRule)
    (warnings : List PolicyMergeWarning) : Prop where
  folded : ∃ operationIndex endpointWarnings,
    foldEndpoints operationIndex existingRule.endpoints incomingRule.endpoints
      = .ok (merged.endpoints, endpointWarnings) ∧ (warnings = [] → endpointWarnings = [])
  declared : ∀ endpoint ∈ merged.endpoints, Declared existingRule incomingRule endpoint
  binaries : merged.binaries = mergeBinaries existingRule.binaries incomingRule.binaries
  quiet : warnings = [] → existingRule.binaries = [] → incomingRule.binaries = []

variable {merged : NetworkPolicyRule}

theorem mergeRules_eq_ok {targetRuleName : String}
    (h : mergeRules existingRule incomingRule operationIndex ruleName targetRuleName
      = .ok (merged, warnings)) : MergedRules existingRule incomingRule merged warnings := by
  obtain ⟨⟨endpoints, endpointWarnings⟩, hfold, h⟩ := bind_eq_ok h
  obtain ⟨_, hguard, ⟨⟩⟩ := bind_ok_eq_ok h
  refine ⟨⟨operationIndex, endpointWarnings, hfold, ?_⟩, ?_, rfl, ?_⟩
  · exact fun hnil => (List.append_eq_nil_iff.mp hnil).2
  · exact fun endpoint he => declared_of_ensure (forM_eq_ok.mp hguard endpoint he)
  · intro hnil hex
    have hscope := (List.append_eq_nil_iff.mp hnil).1
    by_contra hin
    rw [if_pos (by simp [hex, hin])] at hscope
    cases hscope

variable {policy policy' : SandboxPolicy} {rule : NetworkPolicyRule}

/-- The places an added rule can land: an existing rule, the named one or one it
shares an endpoint with, or its own key, which was free. -/
theorem addRule_cases (h : addRule policy operationIndex ruleName rule = .ok (policy', warnings)) :
    (∃ key existing merged, policy.networkPolicies[key]? = some existing ∧
      (key = ruleName ∨ policy.networkPolicies[ruleName]? = none ∧
        overlappingKey policy (preparedRule ruleName rule) = some key) ∧
      MergedRules existing (preparedRule ruleName rule) merged warnings ∧
      policy' = insertRule policy key merged) ∨
    (policy.networkPolicies[ruleName]? = none ∧
      policy' = insertRule policy ruleName (preparedRule ruleName rule)) := by
  unfold addRule at h
  dsimp only at h
  split at h
  next existing hex =>
    obtain ⟨⟨merged, w⟩, hm, ⟨⟩⟩ := bind_ok_eq_ok h
    exact Or.inl ⟨ruleName, existing, merged, hex, Or.inl rfl, mergeRules_eq_ok hm, rfl⟩
  next hnone =>
    split at h
    next =>
      cases h
      exact Or.inr ⟨hnone, rfl⟩
    next key existing hfound =>
      obtain ⟨key', hkey, hmap⟩ := Option.bind_eq_some_iff.mp hfound
      obtain ⟨existing', hex, heq⟩ := Option.map_eq_some_iff.mp hmap
      obtain ⟨rfl, rfl⟩ := Prod.mk.inj heq
      split at h
      next merged w hm =>
        cases h
        exact Or.inl ⟨key', existing', merged, hex, Or.inr ⟨hnone, hkey⟩, mergeRules_eq_ok hm, rfl⟩
      next =>
        split at h
        next =>
          cases h
          exact Or.inr ⟨hnone, rfl⟩
        next => cases h

/-! ## A merge that adds a rule -/

/-- The form in which an added endpoint is prepared for the fold. -/
def preparedEndpoint (endpoint : NetworkEndpoint) : NetworkEndpoint :=
  normalizeEndpoint (canonicalizeEndpoint endpoint)

theorem preparedRule_endpoints (ruleName : String) (rule : NetworkPolicyRule) :
    (preparedRule ruleName (canonicalizeRule rule)).endpoints
      = rule.endpoints.map preparedEndpoint := by
  simp [preparedRule, normalizeRule, canonicalizeRule, preparedEndpoint, Function.comp_def]

theorem preparedRule_checked (h : ∀ endpoint ∈ rule.endpoints, Checked endpoint) :
    ∀ endpoint ∈ (preparedRule ruleName rule).endpoints, Checked endpoint := by
  intro endpoint he
  obtain ⟨e, hmem, rfl⟩ := List.mem_map.mp he
  exact (h e hmem).normalizeEndpoint

theorem MergedRules.checked (h : MergedRules existingRule incomingRule merged warnings)
    (he : ∀ endpoint ∈ existingRule.endpoints, Checked endpoint)
    (hi : ∀ endpoint ∈ incomingRule.endpoints, Checked endpoint) :
    ∀ endpoint ∈ merged.endpoints, Checked endpoint := by
  obtain ⟨index, endpointWarnings, hfold, -⟩ := h.folded
  exact foldEndpoints_invariant (fun i hmem => (hi i hmem).normalizeEndpoint)
    (fun _ i _ _ hc hmem _ hm => mergeEndpoint_checked hm hc (hi i hmem).normalizeEndpoint) he hfold

theorem addRule_checked (hp : CheckedPolicy policy)
    (hr : ∀ endpoint ∈ rule.endpoints, Checked endpoint)
    (h : addRule policy operationIndex ruleName rule = .ok (policy', warnings)) :
    CheckedPolicy policy' := by
  rcases addRule_cases h with ⟨key, existing, merged, hex, -, hm, rfl⟩ | ⟨-, rfl⟩
  · exact hp.insertRule (hm.checked (hp key existing hex) (preparedRule_checked hr))
  · exact hp.insertRule (preparedRule_checked hr)

/-- The stages of a successful merge that adds a rule: between the two
canonicalizations it is one `add_rule`. -/
structure AddedRule (ext : External) (policy : SandboxPolicy) (ruleName : String)
    (rule : NetworkPolicyRule) (result : PolicyMergeResult) : Prop where
  input : Accepted ext policy
  fragment : Accepted ext (insertRule restrictiveDefaultPolicy ruleName rule)
  checked : ∀ endpoint ∈ (canonicalizeRule rule).endpoints, Checked endpoint
  nonempty : rule.endpoints ≠ []
  added : addRule (canonicalPolicy policy) 0 ruleName (canonicalizeRule rule)
    = .ok (result.policy, result.warnings)
  output : Accepted ext result.policy

variable {ext : External} {result : PolicyMergeResult}

theorem mergePolicy_addRule (h : mergePolicy ext policy [.addRule ruleName rule] = .ok result) :
    AddedRule ext policy ruleName rule result := by
  obtain ⟨operation, merged, hone⟩ := mergePolicy_eq_ok h
  have hop := hone.operation
  unfold validateAndCanonicalizeOperation at hop
  dsimp only at hop
  split at hop
  next canonical hfrag =>
    cases hop
    obtain ⟨rfl, hacc, hchecked⟩ := validateRuleFragment_eq_ok hfrag
    have hmerged := addRule_checked hone.input.checkedPolicy hchecked hone.applied
    have hpolicy : result.policy = merged := hone.policy.trans hmerged.canonicalPolicy_eq
    refine ⟨hone.input, hacc, hchecked, ?_, hpolicy ▸ hone.applied, hpolicy ▸ hone.output⟩
    obtain ⟨-, hne⟩ := rejectIf_bind.mp hone.valid
    simpa using rejectIf_eq_ok.mp hne
  next => cases hop

/-- An entry after the merge was there before, is one the rule was merged into, or is the rule. -/
theorem AddedRule.entry (h : AddedRule ext policy ruleName rule result) {key : String}
    {after : NetworkPolicyRule} (hafter : result.policy.networkPolicies[key]? = some after) :
    (canonicalPolicy policy).networkPolicies[key]? = some after ∨
      (∃ existing, (canonicalPolicy policy).networkPolicies[key]? = some existing ∧
        MergedRules existing (preparedRule ruleName (canonicalizeRule rule))
          after result.warnings) ∨
      (canonicalPolicy policy).networkPolicies[key]? = none ∧ after = preparedRule ruleName
        (canonicalizeRule rule) := by
  rcases addRule_cases h.added with ⟨target, existing, merged, hex, -, hm,
    hpolicy⟩ | ⟨hfree, hpolicy⟩
  · rw [hpolicy, getElem?_insertRule] at hafter
    split at hafter
    next htarget => exact Or.inr (Or.inl ⟨existing, htarget ▸ hex, Option.some.inj hafter ▸ hm⟩)
    next => exact Or.inl hafter
  · rw [hpolicy, getElem?_insertRule] at hafter
    split at hafter
    next htarget => exact Or.inr (Or.inr ⟨htarget ▸ hfree, (Option.some.inj hafter).symm⟩)
    next => exact Or.inl hafter

/-- The rule under a key after a merge: canonical, or the result of merging the
operation in. -/
theorem mergePolicy_at {key : String}
    {before after : NetworkPolicyRule}
    (h : mergePolicy ext policy [.addRule ruleName rule] = .ok result)
    (hbefore : policy.networkPolicies[key]? = some before)
    (hafter : result.policy.networkPolicies[key]? = some after) :
    after = canonicalizeRule before ∨
      MergedRules (canonicalizeRule before) (preparedRule ruleName (canonicalizeRule rule)) after
        result.warnings := by
  have hlook : (canonicalPolicy policy).networkPolicies[key]? = some (canonicalizeRule before) := by
    rw [getElem?_canonicalPolicy, hbefore, Option.map_some]
  rcases (mergePolicy_addRule h).entry hafter with hsame | ⟨existing, hex, hm⟩ | ⟨hfree, -⟩
  · exact Or.inl (Option.mem_unique hsame hlook)
  · obtain rfl := Option.mem_unique hlook hex
    exact Or.inr hm
  · cases hlook.symm.trans hfree

end OpenShell.Policy
