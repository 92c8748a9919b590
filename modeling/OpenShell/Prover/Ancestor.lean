import OpenShell.Prover.Address

/-!
# One symbolic ancestor

At run time a rule applies when one of its binary patterns matches the
executable or any of its ancestors (`binary_allowed` of `sandbox-policy.rego`);
the solver's action has an executable and one ancestor only. That loses no
violation: a request the candidate admits and the boundary does not is still one
when all but two of its paths are forgotten (`exists_two_paths`). One path is
kept for the rule that allows the request, and one for the rule of the boundary
that denies it. The address part needs no third path, because the endpoint that
allows the request also vouches for its address.
-/

namespace OpenShell.Prover

open OpenShell.Core OpenShell.Schema

/-- A request as the proxy sees it. -/
structure RuntimeRequest where
  executable : String
  ancestors : List String
  host : String
  port : Int
  layer : String
  method : String
  path : String
  ip : Destination
  trustedGateway : Bool

namespace RuntimeRequest

def paths (request : RuntimeRequest) : List String := request.executable :: request.ancestors

/-- The prover's action for the request with two of its paths. -/
def action (request : RuntimeRequest) (binary ancestorBinary : String) : Action :=
  { binary, ancestorBinary
    host := request.host
    port := request.port
    layer := request.layer
    method := request.method
    path := request.path
    ip := request.ip
    trustedGateway := request.trustedGateway }

end RuntimeRequest

/-- `binary_allowed`: no identity required, an exact path equal to the executable
or to an ancestor, or a pattern that matches one of them. -/
def binaryAllowed (rule : NetworkPolicyRule) (request : RuntimeRequest)
    (binaryIdentityRequired : Bool) : Bool :=
  !binaryIdentityRequired ||
    (rule.binaries.any fun b => !containsChar b.path '*' && b.path == request.executable) ||
    (rule.binaries.any fun b =>
      !containsChar b.path '*' && request.ancestors.any (b.path == ·)) ||
    rule.binaries.any fun b =>
      containsChar b.path '*' && request.paths.any (regexMatches · (globRegex b.path "/"))

/-- The request is admitted at run time: some rule allows it, none denies it, and
its address is allowed. -/
def admits (glob : Glob) (z : Simplifier) (policy : ContainmentPolicy) (request : RuntimeRequest)
    (binaryIdentityRequired : Bool) : Bool :=
  policyAllowsBy glob z (binaryAllowed · request binaryIdentityRequired) policy
    (request.action request.executable request.executable)

/-! ## Exact paths as patterns -/

theorem mem_literals {singleStar : Regexp Char} {segment word : List Char} (hstar : '*' ∉ segment) :
    word ∈ (Regexp.concat (segment.map (charRegex singleStar))).lang ↔ word = segment := by
  induction segment generalizing word with
  | nil => exact Regexp.mem_concat_nil
  | cons c segment ih =>
    have hc : c ≠ '*' := fun h => hstar (h ▸ List.mem_cons_self)
    rw [List.map_cons, Regexp.mem_concat_cons, charRegex, if_neg hc]
    simp only [Regexp.mem_literal, ih fun h => hstar (List.mem_cons_of_mem _ h)]
    simp [eq_comm]

/-- Without a star, a path pattern matches only itself. -/
theorem mem_pathGlobParts_literal {singleStar : Regexp Char} :
    ∀ {segments : List (List Char)}, segments ≠ [] → (∀ s ∈ segments, '*' ∉ s) →
      ∀ {word : List Char}, word ∈ (Regexp.concat (pathGlobParts singleStar segments)).lang ↔
        word = ['/'].intercalate segments := by
  intro segments
  induction segments with
  | nil => exact fun h => absurd rfl h
  | cons segment segments ih =>
    intro _ hstar word
    have hsegment := hstar segment List.mem_cons_self
    have hne : segment ≠ ['*', '*'] := fun h => hsegment (h ▸ List.mem_cons_self)
    cases segments with
    | nil =>
      rw [pathGlobParts.eq_def]
      dsimp only
      rw [if_neg hne]
      simp [mem_literals hsegment, pathGlobParts, List.intercalate]
    | cons next segments =>
      rw [pathGlobParts_literal hne (by simp), Regexp.mem_concat_append,
        intercalate_cons_cons _ (by simp)]
      simp only [Regexp.mem_concat_append, mem_literals hsegment,
        ih (by simp) (List.forall_mem_cons.mp hstar).2]
      simp [Regexp.mem_concat_cons, eq_comm]

theorem regexMatches_literal {pattern text : String} (hstar : containsChar pattern '*' = false) :
    regexMatches text (globRegex pattern "/") = (pattern == text) := by
  have hnot : '*' ∉ pattern.toList := fun h =>
    Bool.eq_false_iff.mp hstar (containsChar_iff.mpr h)
  have hpattern : pattern ≠ "**" := fun h => hnot (by rw [h]; decide)
  rw [Bool.eq_iff_iff, regexMatches_iff, globRegex, if_neg hpattern, if_pos rfl, pathGlobRegex,
    mem_pathGlobParts_literal (List.splitOn_ne_nil _ _) fun s hs h => hnot (mem_splitOn hs h).1,
    List.intercalate_splitOn, beq_iff_eq, String.toList_inj, eq_comm]

theorem any_or {α : Type} (l : List α) (f g : α → Bool) :
    (l.any fun a => f a || g a) = (l.any f || l.any g) := by
  induction l with
  | nil => rfl
  | cons a l ih =>
    rw [List.any_cons, List.any_cons, List.any_cons, ih]
    ac_rfl

/-- Whether one path of the process selects a rule. -/
def pathSelects (rule : NetworkPolicyRule) (binaryIdentityRequired : Bool) (path : String) : Bool :=
  !binaryIdentityRequired || rule.binaries.any fun b => regexMatches path (globRegex b.path "/")

theorem binaryAllowed_eq (rule : NetworkPolicyRule) (request : RuntimeRequest)
    (binaryIdentityRequired : Bool) :
    binaryAllowed rule request binaryIdentityRequired =
      request.paths.any (pathSelects rule binaryIdentityRequired) := by
  cases binaryIdentityRequired with
  | false => simp [binaryAllowed, pathSelects, RuntimeRequest.paths]
  | true =>
    -- the exact clauses are the pattern clause for a pattern without a star
    have hclauses : ∀ b : NetworkBinary,
        ((!containsChar b.path '*' && b.path == request.executable) ||
          (!containsChar b.path '*' && request.ancestors.any (b.path == ·)) ||
          (containsChar b.path '*' && request.paths.any (regexMatches · (globRegex b.path "/")))) =
        request.paths.any (regexMatches · (globRegex b.path "/")) := by
      intro b
      cases hstar : containsChar b.path '*' with
      | true => simp
      | false => simp [RuntimeRequest.paths, regexMatches_literal hstar]
    calc binaryAllowed rule request true
        = rule.binaries.any fun b => request.paths.any (regexMatches · (globRegex b.path "/")) := by
          rw [← funext hclauses, any_or, any_or]
          rfl
      _ = request.paths.any fun p => rule.binaries.any fun b =>
            regexMatches p (globRegex b.path "/") := by
          rw [Bool.eq_iff_iff]
          simp only [List.any_eq_true]
          grind

theorem binariesMatch_eq (rule : NetworkPolicyRule) (request : RuntimeRequest)
    (binaryIdentityRequired : Bool) (p q : String) :
    binariesMatch rule (request.action p q) binaryIdentityRequired =
      (pathSelects rule binaryIdentityRequired p || pathSelects rule binaryIdentityRequired q) := by
  cases binaryIdentityRequired with
  | false => rfl
  | true => exact any_or ..

/-! ## Overlap -/

/-- Endpoints that both match a connection may overlap. -/
theorem mayOverlap_of_matches {e e' : NetworkEndpoint} {action : Action}
    (h : endpointMatchesConnection e action = true)
    (h' : endpointMatchesConnection e' action = true) : EndpointsMayOverlap e e' := by
  obtain ⟨hport, -⟩ := Bool.and_eq_true_iff.mp h
  obtain ⟨hport', -⟩ := Bool.and_eq_true_iff.mp h'
  obtain ⟨port, hmem, heq⟩ := List.any_eq_true.mp hport
  obtain ⟨port', hmem', heq'⟩ := List.any_eq_true.mp hport'
  have hsame : port = port' := by
    have := (eq_of_beq heq).symm.trans (eq_of_beq heq')
    exact UInt16.toNat_inj.mp (by exact_mod_cast this)
  refine ⟨⟨port, hmem, hsame ▸ hmem'⟩, ?_⟩
  by_cases hstar : containsChar e.host '*' = true
  · exact Or.inl ((containsChar_star_toAsciiLowercase e.host).trans hstar)
  · by_cases hstar' : containsChar e'.host '*' = true
    · exact Or.inr (Or.inl ((containsChar_star_toAsciiLowercase e'.host).trans hstar'))
    · exact Or.inr (Or.inr ((host_eq_of_matches h (Bool.eq_false_iff.mpr hstar)).symm.trans
        (host_eq_of_matches h' (Bool.eq_false_iff.mpr hstar'))))

/-! ## Forgetting paths -/

section
variable {glob : Glob} {z : Simplifier} {policy boundary candidate : ContainmentPolicy}
  {request : RuntimeRequest} {binaryIdentityRequired : Bool} {p q : String}

/-- A rule selected by two of the paths is selected by all of them. -/
theorem binaryAllowed_of_binariesMatch (hp : p ∈ request.paths) (hq : q ∈ request.paths)
    {rule : NetworkPolicyRule}
    (h : binariesMatch rule (request.action p q) binaryIdentityRequired = true) :
    binaryAllowed rule request binaryIdentityRequired = true := by
  rw [binariesMatch_eq, Bool.or_eq_true] at h
  rw [binaryAllowed_eq]
  exact h.elim (fun h => List.any_eq_true.mpr ⟨p, hp, h⟩) (fun h => List.any_eq_true.mpr ⟨q, hq, h⟩)

/-- The paths kept for the rule that allows a request keep the request admitted. -/
theorem policyAllows_of_admits (hvalid : validateSupportedPolicy policy = .ok ())
    (h : admits glob z policy request binaryIdentityRequired = true) :
    ∃ p ∈ request.paths, ∀ q ∈ request.paths,
      policyAllows glob z policy (request.action p q) binaryIdentityRequired = true := by
  obtain ⟨hallow, hdeny, hdestination⟩ := policyAllowsBy_iff.mp h
  obtain ⟨rule, hrule, hselected, endpoint, hendpoint, hallows⟩ := anyRuleAllows_iff.mp hallow
  rw [binaryAllowed_eq] at hselected
  obtain ⟨p, hp, hpath⟩ := List.any_eq_true.mp hselected
  refine ⟨p, hp, fun q hq => ?_⟩
  have hbinaries : binariesMatch rule (request.action p q) binaryIdentityRequired = true := by
    rw [binariesMatch_eq, hpath, Bool.true_or]
  refine policyAllowsBy_iff.mpr ⟨?_, ?_, ?_⟩
  · exact anyRuleAllows_iff.mpr ⟨rule, hrule, hbinaries, endpoint, hendpoint, hallows⟩
  · refine Bool.eq_false_iff.mpr fun hdenies => Bool.eq_false_iff.mp hdeny ?_
    obtain ⟨rule, hrule, hselected, hdenies⟩ := anyRuleDenies_iff.mp hdenies
    exact anyRuleDenies_iff.mpr
      ⟨rule, hrule, binaryAllowed_of_binariesMatch hp hq hselected, hdenies⟩
  · -- the allowing endpoint overlaps the one that vouched for the address, so it vouches too
    obtain ⟨rule', hrule', -, endpoint', hendpoint', hconnection', haddress⟩ :=
      destinationAllowed_iff.mp hdestination
    have hconnection : endpointMatchesConnection endpoint (request.action p q) = true :=
      matchesConnection_of_allows hallows
    have hagree := agree_of_mem hvalid hrule hendpoint hrule' hendpoint'
      (mayOverlap_of_matches hconnection hconnection')
    refine destinationAllowed_iff.mpr ⟨rule, hrule, hbinaries, endpoint, hendpoint, hconnection, ?_⟩
    rw [addressAllowed_eq (supportedEndpoint_of_mem hvalid hrule hendpoint)
      (supportedEndpoint_of_mem hvalid hrule' hendpoint') hconnection hconnection' z z
      hagree.allowedIps hagree.implicitMode]
    exact haddress

/-- A request that is not admitted stays so when paths are forgotten, as long as
the paths that select a denying rule are kept. -/
theorem policyAllows_eq_false_of_not_admits
    (h : admits glob z policy request binaryIdentityRequired = false) :
    ∃ q ∈ request.paths, ∀ p ∈ request.paths,
      policyAllows glob z policy (request.action p q) binaryIdentityRequired = false := by
  by_cases hdenied : policy.rules.any (ruleDenies glob
      (binaryAllowed · request binaryIdentityRequired) ·
      (request.action request.executable request.executable)) = true
  · obtain ⟨rule, hrule, hselected, hdenies⟩ := anyRuleDenies_iff.mp hdenied
    rw [binaryAllowed_eq] at hselected
    obtain ⟨q, hq, hpath⟩ := List.any_eq_true.mp hselected
    refine ⟨q, hq, fun p _ => Bool.eq_false_iff.mpr fun hallows => ?_⟩
    have hbinaries : binariesMatch rule (request.action p q) binaryIdentityRequired = true := by
      rw [binariesMatch_eq, hpath, Bool.or_true]
    exact Bool.eq_false_iff.mp (policyAllowsBy_iff.mp hallows).2.1
      (anyRuleDenies_iff.mpr ⟨rule, hrule, hbinaries, hdenies⟩)
  · -- no rule denies: fewer paths select fewer rules, so nothing more is allowed
    refine ⟨request.executable, List.mem_cons_self, fun p hp => Bool.eq_false_iff.mpr ?_⟩
    intro hallows
    obtain ⟨hallow, -, hdestination⟩ := policyAllowsBy_iff.mp hallows
    obtain ⟨rule, hrule, hselected, hallow⟩ := anyRuleAllows_iff.mp hallow
    obtain ⟨rule', hrule', hselected', hdestination⟩ := destinationAllowed_iff.mp hdestination
    have hkeep : ∀ {rule}, binariesMatch rule (request.action p request.executable)
        binaryIdentityRequired = true → binaryAllowed rule request binaryIdentityRequired = true :=
      binaryAllowed_of_binariesMatch hp List.mem_cons_self
    refine Bool.eq_false_iff.mp h (policyAllowsBy_iff.mpr ⟨?_, Bool.eq_false_iff.mpr hdenied, ?_⟩)
    · exact anyRuleAllows_iff.mpr ⟨rule, hrule, hkeep hselected, hallow⟩
    · exact destinationAllowed_iff.mpr ⟨rule', hrule', hkeep hselected', hdestination⟩

/-- A violation of the boundary is already one for two of the process's paths. -/
theorem exists_two_paths (glob : Glob) (z : Simplifier) (request : RuntimeRequest)
    (hcandidate : validateSupportedPolicy candidate = .ok ())
    (hadmitted : admits glob z candidate request binaryIdentityRequired = true)
    (hrefused : admits glob z boundary request binaryIdentityRequired = false) :
    ∃ p ∈ request.paths, ∃ q ∈ request.paths,
      policyAllows glob z candidate (request.action p q) binaryIdentityRequired = true ∧
      policyAllows glob z boundary (request.action p q) binaryIdentityRequired = false := by
  obtain ⟨p, hp, hallows⟩ := policyAllows_of_admits hcandidate hadmitted
  obtain ⟨q, hq, hrefuses⟩ := policyAllows_eq_false_of_not_admits hrefused
  exact ⟨p, hp, q, hq, hallows q hq, hrefuses p hp⟩

end

/-- `GET` under `/repos` for one binary, with the given deny rules. -/
def reposRule (binary : String) (denyRules : List L7DenyRule) : NetworkPolicyRule :=
  { endpoints := [{ host := "api.example.com", ports := [443], protocol := "rest",
                    enforcement := "enforce", denyRules,
                    rules := [{ allow := { method := "GET", path := "/repos/**" } }] }]
    binaries := [{ path := binary }] }

/-- A boundary that admits `curl` unless the agent is among its ancestors. -/
def agentBoundary : ContainmentPolicy :=
  { networkPolicies := ((∅ : Policy.Map NetworkPolicyRule).insert "curl"
      (reposRule "/usr/bin/curl" [])).insert "agent"
        (reposRule "/opt/agent/*" [{ method := "*", path := "/repos/**" }]) }

def curlCandidate : ContainmentPolicy :=
  { networkPolicies := (∅ : Policy.Map NetworkPolicyRule).insert "curl"
      (reposRule "/usr/bin/curl" []) }

def agentRequest : RuntimeRequest :=
  { executable := "/usr/bin/curl", ancestors := ["/bin/sh", "/opt/agent/run", "/sbin/init"]
    host := "api.example.com", port := 443, layer := "rest", method := "GET", path := "/repos/a"
    ip := .concrete (.v4 0x08080808#32), trustedGateway := false }

theorem exists_two_paths_agent :
    ∃ p ∈ agentRequest.paths, ∃ q ∈ agentRequest.paths,
      policyAllows { new := fun _ => .ok (), isMatch := fun _ _ => false }
        { simplify := fun _ _ => none, sound := nofun } curlCandidate (agentRequest.action p q)
        true = true ∧
      policyAllows { new := fun _ => .ok (), isMatch := fun _ _ => false }
        { simplify := fun _ _ => none, sound := nofun } agentBoundary (agentRequest.action p q)
        true = false :=
  exists_two_paths _ _ agentRequest (by decide) (by decide) (by decide)

end OpenShell.Prover
