import OpenShell.Policy.Validate

/-!
# Middleware over traffic that cannot be inspected

A fail-closed middleware over an endpoint that skips TLS would have to fail every
request, so validation refuses a selector that may reach such an endpoint. The
refusal compares host patterns, and is conservative wherever the endpoint's host
is one (`mayMatchPattern_of_common`). It misses the endpoints whose host no
pattern stands for: an empty host, which with `allowed_ips` admits every host, a
host `HostPattern::new` refuses, and a host with a bracket, which the pattern
reads as a class. `noInspectionGap_iff` says that a valid policy keeps the
guarantee exactly when no selector reaches one of those.
-/

namespace OpenShell.Policy

open OpenShell.Core

/-- Every DNS label of the host is non-empty. -/
def NonEmptyLabels (host : String) : Prop :=
  ∀ label ∈ splitChar host '.', isEmptyStr label = false

/-- The hosts an endpoint admits at runtime. -/
def NetworkEndpoint.Admits (glob : Glob) (endpoint : NetworkEndpoint) (host : String) : Prop :=
  if isEmptyStr endpoint.host then endpoint.allowedIps ≠ []
  else if containsChar endpoint.host '*' then
    ∃ pattern, HostPattern.new glob endpoint.host = .ok pattern ∧ pattern.matches glob host = true
  else eqIgnoreAsciiCase endpoint.host host = true

/-- The compiled selector of a config that must inspect, and an endpoint that
skips TLS, both of one policy. -/
structure Uninspectable (glob : Glob) (policy : SandboxPolicy) (selector : HostSelector)
    (endpoint : NetworkEndpoint) : Prop where
  config : ∃ (name : String) (middleware : NetworkMiddlewareConfig)
    (source : MiddlewareEndpointSelector),
    policy.networkMiddlewares[name]? = some middleware ∧ requiresInspection middleware = true ∧
      middleware.endpoints = some source ∧
      HostSelector.new glob source.includes source.exclude = .ok selector
  rule : ∃ (key : String) (rule : NetworkPolicyRule),
    policy.networkPolicies[key]? = some rule ∧ endpoint ∈ rule.endpoints
  skip : endpoint.tls = tlsSkip

/-- No fail-closed middleware selects a host that an endpoint admits without
inspection. -/
def NoInspectionGap (glob : Glob) (policy : SandboxPolicy) : Prop :=
  ∀ selector endpoint, Uninspectable glob policy selector endpoint →
    ∀ host, NonEmptyLabels host → endpoint.Admits glob host → selector.matches glob host = false

/-- A host that stands for itself at runtime and for something else, or nothing,
as a pattern: it does not compile, or has a bracket. -/
def misreadAsPattern (glob : Glob) (host : String) : Bool :=
  !containsChar host '*' &&
    ((HostPattern.new glob host).toOption.isNone || containsChar host '[')

variable {glob : Glob} {host : String}

/-- A host without `*` and brackets that compiles is matched by its own pattern,
in any case. -/
theorem matches_self (laws : GlobLaws glob) {text : String}
    {pattern : HostPattern} (hnew : HostPattern.new glob text = .ok pattern)
    (hstar : '*' ∉ text.toList) (hclass : '[' ∉ text.toList)
    (heq : eqIgnoreAsciiCase text host = true) : pattern.matches glob host = true := by
  obtain ⟨hc, hsource, hne⟩ := HostPattern.new_eq_ok hnew
  rw [matches_iff, ← eqIgnoreAsciiCase_iff.mp heq]
  refine ⟨hne, ?_⟩
  rw [hc.labels, hsource]
  have hall : ∀ label ∈ splitChar (toAsciiLowercase text) '.',
      '*' ∉ label.toList ∧ '[' ∉ label.toList := by
    intro label hl
    constructor
    · intro hm
      exact hstar ((mem_toAsciiLowercase (by decide) (by decide)).mp (mem_of_mem_splitChar hl hm))
    · intro hm
      exact hclass ((mem_toAsciiLowercase (by decide) (by decide)).mp (mem_of_mem_splitChar hl hm))
  generalize splitChar (toAsciiLowercase text) '.' = labels at hall
  induction labels with
  | nil => exact .nil
  | cons label labels ih =>
    obtain ⟨hs, hb⟩ := hall label List.mem_cons_self
    have hrec : label ≠ "**" := by
      rintro rfl
      exact hs (by decide)
    rw [List.map_cons, HostLabelPattern.ofText, if_neg hrec]
    exact .label (laws.question hs hb) (ih (List.forall_mem_cons.mp hall).2)

variable {policy : SandboxPolicy} {selector : HostSelector} {endpoint : NetworkEndpoint}

/-- What validation makes sure of: a selector reaches no host of the endpoint's
pattern. -/
theorem not_matches_of_pattern (laws : GlobLaws glob)
    (hvalid : validateMiddlewares glob policy = [])
    (hu : Uninspectable glob policy selector endpoint)
    {candidate : HostPattern} (hnew : HostPattern.new glob endpoint.host = .ok candidate)
    (hm : candidate.matches glob host = true) :
    selector.matches glob host = false := by
  obtain ⟨name, middleware, source, hcfg, hreq, hsource, hsel⟩ := hu.config
  obtain ⟨key, rule, hrule, hep⟩ := hu.rule
  obtain ⟨source', selector', hsource', hsel', hclear⟩ := selector_of_valid hvalid hcfg
  obtain rfl : source = source' := Option.mem_unique hsource hsource'
  obtain rfl : selector = selector' := Except.ok.inj (hsel.symm.trans hsel')
  have hov := hclear hreq key rule hrule endpoint hep
  obtain ⟨hincl, hexcl⟩ := HostSelector.new_eq_ok hsel
  by_contra hne
  have hmay := mayMatchPattern_of_common laws hincl hexcl (HostPattern.new_eq_ok hnew).1 hm
    (by simpa using hne)
  rw [overlapsTlsSkip, hnew] at hov
  simp [hu.skip, Except.toOption, hmay] at hov

/-- Selectors only look at the lower-cased host. -/
theorem selector_matches_congr {h₁ h₂ : String}
    (h : toAsciiLowercase h₁ = toAsciiLowercase h₂) :
    selector.matches glob h₁ = selector.matches glob h₂ := by
  unfold HostSelector.matches
  simp only [matches_congr h]

/-- A selector only matches hosts with non-empty labels. -/
theorem nonEmptyLabels_of_matches (h : selector.matches glob host = true) :
    NonEmptyLabels host := by
  unfold HostSelector.matches at h
  obtain ⟨pattern, -, hm⟩ := List.any_eq_true.mp (Bool.and_eq_true_iff.mp h).1
  intro label hl
  rw [← isEmptyStr_toAsciiLowercase]
  refine (matches_iff.mp hm).1 _ ?_
  rw [splitChar_toAsciiLowercase (by decide) (by decide)]
  exact List.mem_map_of_mem hl

/-- **When the guarantee holds.** In a valid policy no fail-closed middleware
selects uninspectable traffic if and only if none is combined with a hostless
endpoint, unless its selector is empty, and none selects a host that is misread
as a pattern. -/
theorem noInspectionGap_iff {ext : External} (laws : GlobLaws ext.glob) {policy : SandboxPolicy}
    (hvalid : validateSandboxPolicy ext policy = .ok ()) :
    NoInspectionGap ext.glob policy ↔
      ∀ selector endpoint, Uninspectable ext.glob policy selector endpoint →
        (endpoint.host = "" → endpoint.allowedIps ≠ [] →
          ∀ host, selector.matches ext.glob host = false) ∧
        (misreadAsPattern ext.glob endpoint.host = true → endpoint.host ≠ "" →
          selector.matches ext.glob endpoint.host = false) := by
  have hmid := (List.append_eq_nil_iff.mp (policyViolations_of_valid hvalid)).2
  constructor
  · intro hgap selector endpoint hu
    constructor
    · intro hempty hips host
      by_contra hm
      rw [Bool.not_eq_false] at hm
      have hadmits : endpoint.Admits ext.glob host := by
        rw [NetworkEndpoint.Admits, if_pos (isEmptyStr_iff.mpr hempty)]
        exact hips
      rw [hgap selector endpoint hu host (nonEmptyLabels_of_matches hm) hadmits] at hm
      cases hm
    · intro hmis hne
      by_contra hm
      rw [Bool.not_eq_false] at hm
      have hstar := (Bool.and_eq_true_iff.mp hmis).1
      have hadmits : endpoint.Admits ext.glob endpoint.host := by
        rw [NetworkEndpoint.Admits, if_neg (by rwa [isEmptyStr_iff]),
          if_neg (by simpa using hstar)]
        exact eqIgnoreAsciiCase_iff.mpr rfl
      rw [hgap selector endpoint hu _ (nonEmptyLabels_of_matches hm) hadmits] at hm
      cases hm
  · intro hcond selector endpoint hu host _ hadmits
    obtain ⟨hhostless, hmisread⟩ := hcond selector endpoint hu
    unfold NetworkEndpoint.Admits at hadmits
    split at hadmits
    next hempty => exact hhostless (isEmptyStr_iff.mp hempty) hadmits host
    next hempty =>
      split at hadmits
      next =>
        obtain ⟨candidate, hnew, hm⟩ := hadmits
        exact not_matches_of_pattern laws hmid hu hnew hm
      next hstar =>
        by_cases hmis : misreadAsPattern ext.glob endpoint.host = true
        · rw [← selector_matches_congr (eqIgnoreAsciiCase_iff.mp hadmits)]
          exact hmisread hmis (by rwa [isEmptyStr_iff] at hempty)
        · -- the host compiles, and its pattern matches it
          simp only [misreadAsPattern, hstar, Bool.not_false, Bool.true_and, Bool.or_eq_true,
            not_or, Bool.not_eq_true] at hmis
          obtain ⟨hnew, hclass⟩ := hmis
          cases hc : HostPattern.new ext.glob endpoint.host with
          | error reason => simp [hc, Except.toOption] at hnew
          | ok candidate =>
            refine not_matches_of_pattern laws hmid hu hc (matches_self laws hc ?_ ?_ hadmits)
            · rwa [← containsChar_iff]
            · rw [← containsChar_iff, hclass]
              decide

/-! ## A policy that keeps the guarantee, and one that does not -/

/-- One endpoint that skips TLS, and one fail-closed middleware. -/
def skipPolicy (endpoint : NetworkEndpoint) (includes : List String) : SandboxPolicy where
  networkPolicies := (∅ : Map NetworkPolicyRule).insert "raw"
    { endpoints := [{ endpoint with tls := tlsSkip, port := 443 }] }
  networkMiddlewares := (∅ : Map NetworkMiddlewareConfig).insert "audit"
    { middleware := "audit", onError := "fail_closed", endpoints := some { includes } }

theorem uninspectable_skipPolicy {ep : NetworkEndpoint}
    {includes : List String}
    (h : Uninspectable glob (skipPolicy endpoint includes) selector ep) :
    ep = { endpoint with tls := tlsSkip, port := 443 } := by
  obtain ⟨-, ⟨key, rule, hrule, hep⟩, -⟩ := h
  simp only [skipPolicy, Std.ExtTreeMap.getElem?_insert, Std.ExtTreeMap.getElem?_empty] at hrule
  obtain ⟨-, ⟨⟩⟩ := then_of_ite hrule nofun
  exact List.mem_singleton.mp hep

theorem noInspectionGap_literal :
    NoInspectionGap plainGlob (skipPolicy { host := "db.internal" } ["api.internal"]) := by
  have hvalid : validateSandboxPolicy plainExternal
      (skipPolicy { host := "db.internal" } ["api.internal"]) = .ok () := by decide
  refine (noInspectionGap_iff plainGlob_laws hvalid).mpr ?_
  intro selector endpoint hu
  obtain rfl := uninspectable_skipPolicy hu
  exact ⟨fun h => absurd h (by decide), fun h => absurd h (by decide)⟩

/-- An endpoint without a host admits every host, and no pattern stands for it. -/
theorem noInspectionGap_hostless :
    validateSandboxPolicy plainExternal (skipPolicy { allowedIps := ["10.0.0.0/8"] } ["**"])
        = .ok () ∧
      ¬ NoInspectionGap plainGlob (skipPolicy { allowedIps := ["10.0.0.0/8"] } ["**"]) := by
  refine ⟨by decide, ?_⟩
  intro hgap
  have hmiss := hgap ⟨[⟨"**", [.recursive]⟩], []⟩
    { allowedIps := ["10.0.0.0/8"], tls := tlsSkip, port := 443 }
    ⟨⟨"audit", _, ⟨["**"], []⟩, rfl, by decide, rfl, by decide⟩, ⟨"raw", _, rfl, by decide⟩, rfl⟩
    "db.internal" (by unfold NonEmptyLabels; decide) (List.cons_ne_nil _ _)
  revert hmiss
  decide

end OpenShell.Policy
