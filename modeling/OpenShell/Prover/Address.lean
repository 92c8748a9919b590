import OpenShell.Prover.Validate

/-!
# Which addresses an endpoint vouches for

A connection can be matched by several endpoints of a policy, and the address
part of the predicate asks for one of them. For supported endpoints that agree on
their address rules the choice does not matter, nor does what the simplifier
could or could not decide: `addressAllowed_eq`.
-/

namespace OpenShell.Prover

open OpenShell.Core OpenShell.Schema

theorem regexMatches_iff {text : String} {regex : Regexp Char} :
    regexMatches text regex = true ↔ text.toList ∈ regex.lang := Regexp.isMatch_iff

/-! ## Path patterns -/

/-- A segment that is not recursive is translated without looking ahead. -/
theorem pathGlobParts_literal {singleStar : Regexp Char} {segment : List Char}
    (hseg : segment ≠ ['*', '*']) {segments : List (List Char)} (hne : segments ≠ []) :
    pathGlobParts singleStar (segment :: segments) =
      (segment.map (charRegex singleStar) ++ [.literal ['/']]) ++
        pathGlobParts singleStar segments := by
  rw [pathGlobParts.eq_def]
  dsimp only
  rw [if_neg hseg, if_neg (by simpa using hne)]

/-! ## Host patterns -/

variable {separator : String} {c : Char}

/-- A character of a host pattern that is no star stands for itself. -/
theorem mem_of_mem_hostGlobParts (hc : c ≠ '*') :
    ∀ {pattern word : List Char}, word ∈ (Regexp.concat (hostGlobParts separator pattern)).lang →
      c ∈ pattern → c ∈ word := by
  intro pattern
  fun_induction hostGlobParts separator pattern with
  | case1 => simp
  | case2 rest ih =>
    intro word hword hmem
    obtain ⟨x, -, y, hy, rfl⟩ := Regexp.mem_concat_cons.mp hword
    have hrest : c ∈ rest := by simpa [hc] using hmem
    exact List.mem_append_right _ (ih hy hrest)
  | case3 d rest _ ih =>
    intro word hword hmem
    obtain ⟨x, hx, y, hy, rfl⟩ := Regexp.mem_concat_cons.mp hword
    obtain rfl | hrest := List.mem_cons.mp hmem
    · rw [charRegex, if_neg hc] at hx
      obtain rfl := Regexp.mem_literal.mp hx
      exact List.mem_append_left _ (List.mem_singleton_self _)
    · exact List.mem_append_right _ (ih hy hrest)

/-- A host pattern without a star matches only itself. -/
theorem eq_of_mem_hostGlobParts :
    ∀ {pattern word : List Char}, word ∈ (Regexp.concat (hostGlobParts separator pattern)).lang →
      '*' ∉ pattern → word = pattern := by
  intro pattern
  fun_induction hostGlobParts separator pattern with
  | case1 => simp
  | case2 rest ih => simp
  | case3 d rest _ ih =>
    intro word hword hstar
    obtain ⟨x, hx, y, hy, rfl⟩ := Regexp.mem_concat_cons.mp hword
    have hd : d ≠ '*' := fun h => hstar (h ▸ List.mem_cons_self)
    rw [charRegex, if_neg hd] at hx
    obtain rfl := Regexp.mem_literal.mp hx
    rw [ih hy fun h => hstar (List.mem_cons_of_mem _ h)]
    rfl

variable {endpoint : NetworkEndpoint}

theorem mem_host_of_matches {action : Action}
    (h : endpointMatchesConnection endpoint action = true) (hc : c ≠ '*')
    (hmem : c ∈ (toAsciiLowercase endpoint.host).toList) : c ∈ action.host.toList := by
  have hhost := regexMatches_iff.mp (Bool.and_eq_true_iff.mp h).2
  unfold globRegex at hhost
  split at hhost
  next heq =>
    rw [heq] at hmem
    exact absurd (by simpa using hmem) hc
  next =>
    rw [if_neg (by decide)] at hhost
    exact mem_of_mem_hostGlobParts hc hhost hmem

theorem host_eq_of_matches {action : Action}
    (h : endpointMatchesConnection endpoint action = true)
    (hexact : containsChar endpoint.host '*' = false) :
    action.host = toAsciiLowercase endpoint.host := by
  have hstar : '*' ∉ (toAsciiLowercase endpoint.host).toList := by
    rw [mem_toAsciiLowercase (by decide) (by decide)]
    exact fun hmem => Bool.eq_false_iff.mp hexact (containsChar_iff.mpr hmem)
  have hhost := regexMatches_iff.mp (Bool.and_eq_true_iff.mp h).2
  unfold globRegex at hhost
  rw [if_neg (fun heq => hstar (by rw [heq]; decide)), if_neg (by decide)] at hhost
  exact String.toList_inj.mp (eq_of_mem_hostGlobParts hhost hstar)

theorem matchesConnection_of_allows {glob : Glob} {action : Action}
    (h : endpointAllows glob endpoint action = true) :
    endpointMatchesConnection endpoint action = true := by
  unfold endpointAllows at h
  split at h
  next => exact h
  next =>
    simp only [Bool.and_eq_true] at h
    exact h.1.1.1

/-! ## Literal hosts -/

theorem toLower_of_isDottedDigit (h : isDottedDigit c = true) : c.toLower = c := by
  by_cases hc : c.toNat < 128
  · exact forall_ascii (P := fun c => isDottedDigit c = true → c.toLower = c) (by decide) hc h
  · exact toLower_of_le (by omega)

theorem isDottedDigit_toLower (c : Char) : isDottedDigit c.toLower = isDottedDigit c := by
  by_cases hc : c.toNat < 128
  · exact forall_ascii (P := fun c => isDottedDigit c.toLower = isDottedDigit c) (by decide) hc
  · rw [toLower_of_le (by omega)]

theorem toAsciiLowercase_of_isDottedDigit {s : String}
    (h : ∀ c ∈ s.toList, isDottedDigit c = true) : toAsciiLowercase s = s := by
  rw [← String.toList_inj, toList_toAsciiLowercase]
  exact (List.map_congr_left fun c hc => toLower_of_isDottedDigit (h c hc)).trans (List.map_id _)

/-- The letter case of a host has no part in whether it is an address. -/
theorem parseIpAddr_congr {a b : String} (hab : toAsciiLowercase a = toAsciiLowercase b)
    (ha : ':' ∉ a.toList) (hb : ':' ∉ b.toList) : parseIpAddr a = parseIpAddr b := by
  -- an address on one side is made of digits and dots, which leaves the other no choice
  have hsame : ∀ {a b : String} {ip : IpAddr}, toAsciiLowercase a = toAsciiLowercase b →
      ':' ∉ a.toList → parseIpAddr a = some ip → a = b := by
    intro a b ip hab ha hip
    have hdigits := isDottedDigit_of_parseIpAddr hip ha
    rw [toAsciiLowercase_of_isDottedDigit hdigits] at hab
    refine hab.trans (toAsciiLowercase_of_isDottedDigit fun c hc => ?_)
    rw [← isDottedDigit_toLower]
    apply hdigits
    rw [hab, toList_toAsciiLowercase]
    exact List.mem_map_of_mem hc
  cases hpa : parseIpAddr a with
  | some ip => rw [← hsame hab ha hpa, hpa]
  | none =>
    cases hpb : parseIpAddr b with
    | none => rfl
    | some ip =>
      rw [hsame hab.symm hb hpb, hpa] at hpb
      cases hpb

theorem exact_of_parseIpAddr (h : SupportedEndpoint endpoint)
    {ip : IpAddr} (hip : parseIpAddr endpoint.host = some ip) :
    containsChar endpoint.host '*' = false := by
  refine Bool.eq_false_iff.mpr fun hstar => ?_
  have hdotted := isDottedDigit_of_parseIpAddr hip h.noColon '*' (containsChar_iff.mp hstar)
  exact absurd hdotted (by decide)

/-- A supported host pattern has a character that no address has. -/
theorem exists_notDotted (h : SupportedEndpoint endpoint)
    (hstar : containsChar endpoint.host '*' = true) :
    ∃ c ∈ endpoint.host.toList, isDottedDigit c = false ∧ c ≠ '*' := by
  by_contra hall
  push Not at hall
  have hnumeric : endpoint.host.toList.all
      (fun c => ('0' ≤ c && c ≤ '9') || c == '.' || c == '*') = true := by
    rw [List.all_eq_true]
    intro c hc
    by_cases hdotted : isDottedDigit c = true
    · unfold isDottedDigit at hdotted
      rw [hdotted, Bool.true_or]
    · simp [hall c hc (Bool.eq_false_iff.mpr hdotted)]
  have hrefused := h.addresses
  unfold unsupportedEndpoint at hrefused
  rw [hstar, hnumeric] at hrefused
  cases hrefused

/-! ## The address rules -/

section
variable {endpoint other : NetworkEndpoint} {action : Action}

theorem addressAllowed_congr {z : Simplifier} (hhost : endpoint.host = other.host)
    (hips : endpoint.allowedIps = other.allowedIps) :
    addressAllowed z endpoint action = addressAllowed z other action := by
  unfold addressAllowed canMatchGateway ordinaryAddress literalAddress
  rw [hhost, hips]

/-- The simplifier has no say in the addresses of a matched connection. -/
theorem addressAllowed_of_matches (z : Simplifier)
    (h : endpointMatchesConnection endpoint action = true) :
    addressAllowed z endpoint action =
      ((if trusted action then gatewayAddress action else ordinaryAddress endpoint action) &&
        literalAddress endpoint action) := by
  unfold addressAllowed
  by_cases htrusted : trusted action = true
  · -- the host is a gateway name the pattern matches, so the test cannot fail
    have hcan : canMatchGateway z endpoint = true := by
      obtain ⟨name, hname, heq⟩ := List.any_eq_true.mp (Bool.and_eq_true_iff.mp htrusted).1
      obtain rfl := eq_of_beq heq
      refine List.any_eq_true.mpr ⟨action.host, hname, bne_iff_ne.mpr fun hfalse => ?_⟩
      have hhost := (Bool.and_eq_true_iff.mp h).2
      rw [z.sound _ _ _ hfalse] at hhost
      cases hhost
    rw [hcan, if_pos rfl]
  · simp only [htrusted, Bool.false_eq_true, if_false, ite_self]

section
variable (he : SupportedEndpoint endpoint) (ho : SupportedEndpoint other)
  (hmatch : endpointMatchesConnection endpoint action = true)
  (hmatch' : endpointMatchesConnection other action = true)
include he ho hmatch hmatch'

/-- A literal address is not matched by a supported pattern. -/
theorem parseIpAddr_eq_none_of_matches (hstar : containsChar other.host '*' = true) :
    parseIpAddr endpoint.host = none := by
  cases hip : parseIpAddr endpoint.host with
  | none => rfl
  | some ip =>
    have hdigits := isDottedDigit_of_parseIpAddr hip he.noColon
    have hhost := host_eq_of_matches hmatch (exact_of_parseIpAddr he hip)
    rw [toAsciiLowercase_of_isDottedDigit hdigits] at hhost
    obtain ⟨c, hc, hnot, hne⟩ := exists_notDotted ho hstar
    have hlower : c.toLower ≠ '*' := fun h => hne ((toLower_eq_iff (by decide) (by decide)).mp h)
    have hmem : c.toLower ∈ (toAsciiLowercase other.host).toList := by
      rw [toList_toAsciiLowercase]
      exact List.mem_map_of_mem hc
    have hdotted := hdigits _ (hhost ▸ mem_host_of_matches hmatch' hlower hmem)
    rw [isDottedDigit_toLower, hnot] at hdotted
    cases hdotted

theorem parseIpAddr_eq_of_matches : parseIpAddr endpoint.host = parseIpAddr other.host := by
  by_cases hstar : containsChar endpoint.host '*' = true
  · rw [parseIpAddr_eq_none_of_matches he he hmatch hmatch hstar,
      parseIpAddr_eq_none_of_matches ho he hmatch' hmatch hstar]
  · by_cases hstar' : containsChar other.host '*' = true
    · rw [parseIpAddr_eq_none_of_matches he ho hmatch hmatch' hstar',
        parseIpAddr_eq_none_of_matches ho ho hmatch' hmatch' hstar']
    · have hhost := host_eq_of_matches hmatch (Bool.eq_false_iff.mpr hstar)
      have hhost' := host_eq_of_matches hmatch' (Bool.eq_false_iff.mpr hstar')
      exact parseIpAddr_congr (hhost.symm.trans hhost') he.noColon ho.noColon

/-- Supported endpoints with the same address rules vouch for the same addresses
of a connection they both match. -/
theorem addressAllowed_eq (z z' : Simplifier) (hips : endpoint.allowedIps = other.allowedIps)
    (hmode : endpoint.allowedIps = [] →
      containsChar endpoint.host '*' = containsChar other.host '*') :
    addressAllowed z endpoint action = addressAllowed z' other action := by
  have hparse := parseIpAddr_eq_of_matches he ho hmatch hmatch'
  have hordinary : ordinaryAddress endpoint action = ordinaryAddress other action := by
    unfold ordinaryAddress
    rw [← hparse, ← hips]
    by_cases hempty : endpoint.allowedIps = []
    · rw [hmode hempty]
    · simp [hempty]
  rw [addressAllowed_of_matches z hmatch, addressAllowed_of_matches z' hmatch', hordinary]
  unfold literalAddress
  rw [hparse]

end

/-- What a policy allows does not depend on the simplifier. -/
theorem policyAllows_simplifier (glob : Glob) (z z' : Simplifier) (policy : ContainmentPolicy)
    (binaryIdentityRequired : Bool) :
    policyAllows glob z policy action binaryIdentityRequired =
      policyAllows glob z' policy action binaryIdentityRequired := by
  have hdestination : ∀ selected, destinationAllowed z selected policy action =
      destinationAllowed z' selected policy action := by
    intro selected
    unfold destinationAllowed
    refine congrArg (policy.rules.any ·) (funext fun rule => ?_)
    refine congrArg (rule.endpoints.any ·) (funext fun endpoint => ?_)
    by_cases hmatch : endpointMatchesConnection endpoint action = true
    · rw [addressAllowed_of_matches z hmatch, addressAllowed_of_matches z' hmatch]
    · simp [Bool.eq_false_iff.mpr hmatch]
  unfold policyAllows policyAllowsBy
  rw [hdestination]

end

end OpenShell.Prover
