import OpenShell.Prover.Check

/-!
# Concrete requests lie in the action domain

The prover reports a request only after replaying it against the predicate; it
does not check that the request lies in the domain the solver is told about.
Requests read back from a model do. So do those tried beforehand, unless their
port is zero (`actionDomain_of_concreteWitness`), which no runtime connection
has and the schema allows in `ports`.
-/

namespace OpenShell.Prover

open OpenShell.Core OpenShell.Schema OpenShell.L7

/-! ## Paths -/

theorem exists_of_containsStr {s needle : String} (h : containsStr s needle = true) :
    ∃ pre rest, s.toList = pre ++ (needle.toList ++ rest) := by
  obtain ⟨tail, htail, hpre⟩ := List.any_eq_true.mp h
  obtain ⟨pre, hpre'⟩ := (List.mem_tails _ _).mp htail
  obtain ⟨rest, hrest⟩ := List.isPrefixOf_iff_prefix.mp hpre
  exact ⟨pre, rest, by rw [hrest, hpre']⟩

variable {path : String}

/-- A recognised path is in the domain the solver is told about. -/
theorem pathInDomain_of_isCanonicalRestPath
    (h : isCanonicalRestPath (utf8Bytes path) = true) : pathInDomain path = true := by
  obtain ⟨⟨hlen, hroot, hpair⟩, ⟨hsemi, hquestion, hhash⟩, hascii, hdots, -⟩ :=
    shape_of_isCanonicalRestPath h
  have htext := toList_eq_of_ascii hascii
  -- each forbidden text would show up in the bytes
  have hforbidden : ∀ (needle : String) (bytes : Bytes), needle.toList = bytes.map charOfByte →
      (∀ pre rest, utf8Bytes path ≠ pre ++ (bytes ++ rest)) → containsStr path needle = false := by
    intro needle bytes hneedle hnone
    refine Bool.eq_false_iff.mpr fun hcontains => ?_
    obtain ⟨pre, rest, heq⟩ := exists_of_containsStr hcontains
    obtain ⟨pre', rest', hbytes, -⟩ := exists_append_of_ascii htext (hneedle ▸ heq)
    exact hnone pre' rest' hbytes
  have hending : ∀ (suffix : String) (bytes : Bytes), suffix.toList = bytes.map charOfByte →
      (∀ pre, utf8Bytes path ≠ pre ++ bytes) → endsWith path suffix = false := by
    intro suffix bytes hsuffix hnone
    refine Bool.eq_false_iff.mpr fun hends => ?_
    obtain ⟨pre, heq⟩ := List.isSuffixOf_iff_suffix.mp hends
    have heq' : path.toList = pre ++ (bytes.map charOfByte ++ []) := by
      rw [← hsuffix, List.append_nil, heq]
    obtain ⟨pre', rest', hbytes, hrest⟩ := exists_append_of_ascii htext heq'
    rw [List.map_eq_nil_iff.mp hrest.symm, List.append_nil] at hbytes
    exact hnone pre' hbytes
  -- a dot segment is a piece of the split
  have hsegment : ∀ (pre segment rest : Bytes), (segment = [dot] ∨ segment = [dot, dot]) →
      (rest = [] ∨ ∃ tail, rest = slash :: tail) →
      utf8Bytes path ≠ pre ++ slash :: (segment ++ rest) := by
    intro pre segment rest hseg hrest heq
    have hpiece : slash ∉ segment := by
      obtain rfl | rfl := hseg <;> decide
    have hmem := mem_splitOn_of_sep pre hpiece hrest
    rw [← heq] at hmem
    exact hseg.elim (hdots segment hmem).1 (hdots segment hmem).2
  have hstart : startsWith path "/" = true := by
    obtain ⟨tail, htail⟩ := List.head?_eq_some_iff.mp hroot
    refine startsWith_iff.mpr ⟨tail.map charOfByte, ?_⟩
    rw [htext, htail]
    rfl
  have hdot : endsWith path "/." = false :=
    hending "/." [slash, dot] (by decide) fun pre => hsegment pre [dot] [] (Or.inl rfl) (Or.inl rfl)
  have hdots : endsWith path "/.." = false :=
    hending "/.." [slash, dot, dot] (by decide) fun pre =>
      hsegment pre [dot, dot] [] (Or.inr rfl) (Or.inl rfl)
  have hnot : ∀ forbidden ∈ ["//", "/./", "/../", ";", "?", "#"],
      containsStr path forbidden = false := by
    have hbyte : ∀ b : UInt8, b ∉ utf8Bytes path →
        ∀ pre rest, utf8Bytes path ≠ pre ++ ([b] ++ rest) :=
      fun b hb pre rest heq => hb (heq ▸ by simp)
    simp only [List.forall_mem_cons, List.not_mem_nil, false_imp_iff, implies_true, and_true]
    refine ⟨?_, ?_, ?_, ?_, ?_, ?_⟩
    · refine hforbidden _ [slash, slash] (by decide) fun pre rest heq => ?_
      rw [heq] at hpair
      exact Bool.eq_false_iff.mp hpair (containsPair_of_append rest pre)
    · exact hforbidden _ [slash, dot, slash] (by decide) fun pre rest =>
        hsegment pre [dot] (slash :: rest) (Or.inl rfl) (Or.inr ⟨rest, rfl⟩)
    · exact hforbidden _ [slash, dot, dot, slash] (by decide) fun pre rest =>
        hsegment pre [dot, dot] (slash :: rest) (Or.inr rfl) (Or.inr ⟨rest, rfl⟩)
    · exact hforbidden _ [semicolon] (by decide) (hbyte _ hsemi)
    · exact hforbidden _ [question] (by decide) (hbyte _ hquestion)
    · exact hforbidden _ [hash] (by decide) (hbyte _ hhash)
  have hlength : path.toList.length ≤ 4096 := by
    rw [htext, List.length_map]
    exact hlen
  unfold pathInDomain
  simp only [Bool.and_eq_true, List.all_eq_true, Bool.not_eq_true', decide_eq_true_eq, bne_iff_ne]
  refine ⟨⟨⟨⟨⟨⟨hstart, hlength⟩, hnot⟩, ?_⟩, ?_⟩, hdot⟩, hdots⟩
  · rintro rfl
    exact absurd hdot (by decide)
  · rintro rfl
    exact absurd hdots (by decide)

/-! ## Binaries -/

theorem length_le_byteLen (s : String) : s.toList.length ≤ byteLen s := by
  unfold byteLen
  induction s.toList with
  | nil => exact Nat.le_refl _
  | cons c cs ih =>
    have hc : 0 < c.utf8Size := Char.utf8Size_pos c
    simp only [List.length_cons, List.map_cons, List.sum_cons]
    omega

theorem binaryInDomain_of_startsWith (hstart : startsWith path "/" = true)
    (hlen : path.toList.length ≤ 4096) : binaryInDomain path = true := by
  obtain ⟨rest, hrest⟩ := startsWith_iff.mp hstart
  have hregex : globRegex "/**" "/" = .concat [.literal ['/'], .full] := by decide
  rw [binaryInDomain, Bool.and_eq_true, regexMatches_iff, hregex]
  refine ⟨?_, decide_eq_true hlen⟩
  rw [hrest]
  exact Regexp.mem_concat_cons.mpr ⟨['/'], rfl, rest,
    Regexp.mem_concat_cons.mpr ⟨rest, Regexp.mem_full _, [], rfl, List.append_nil _⟩, rfl⟩

theorem binaryInDomain_of_isCanonicalRuntimeBinaryPath
    (h : isCanonicalRuntimeBinaryPath path = true) : binaryInDomain path = true := by
  simp only [isCanonicalRuntimeBinaryPath, isCanonicalPatternPath, Bool.and_eq_true,
    decide_eq_true_eq] at h
  exact binaryInDomain_of_startsWith h.1.2.1.1 ((length_le_byteLen path).trans h.1.1)

theorem length_replaceDoubleStars_le (cs : List Char) :
    (replaceDoubleStars cs).length ≤ cs.length := by
  fun_induction replaceDoubleStars cs with
  | case1 => exact Nat.le_refl _
  | case2 | case3 =>
    simp only [List.length_cons]
    omega

theorem toList_replaceStars (pattern : String) :
    (replaceStars pattern).toList =
      (replaceDoubleStars pattern.toList).map fun c => if c == '*' then 'a' else c := by
  unfold replaceStars replaceChar
  simp only [String.toList_ofList]
  induction replaceDoubleStars pattern.toList with
  | nil => rfl
  | cons c cs ih =>
    rw [List.flatMap_cons, ih, List.map_cons]
    by_cases hc : (c == '*') = true
    · rw [if_pos hc, if_pos hc]
      rfl
    · rw [if_neg hc, if_neg hc]
      rfl

/-- Filling in the stars of an absolute path pattern gives an absolute path. -/
theorem binaryInDomain_replaceStars {pattern : String} (hstart : startsWith pattern "/" = true)
    (hlen : byteLen pattern ≤ maxPatternBytes) : binaryInDomain (replaceStars pattern) = true := by
  refine binaryInDomain_of_startsWith (startsWith_iff.mpr ?_) ?_
  · obtain ⟨rest, hrest⟩ := startsWith_iff.mp hstart
    have hfill : replaceDoubleStars ('/' :: rest) = '/' :: replaceDoubleStars rest := by
      simp [replaceDoubleStars]
    refine ⟨(replaceDoubleStars rest).map fun c => if c == '*' then 'a' else c, ?_⟩
    rw [toList_replaceStars, hrest]
    exact congrArg (List.map fun c => if c == '*' then 'a' else c) hfill
  · rw [toList_replaceStars, List.length_map]
    exact (length_replaceDoubleStars_le _).trans ((length_le_byteLen pattern).trans hlen)

variable {st st' : LimitState}

variable {rule : NetworkPolicyRule}

theorem byteLen_binary_le_of_accountRule (h : accountRule st rule = .ok st') :
    ∀ binary ∈ rule.binaries, byteLen binary.path ≤ maxPatternBytes := by
  unfold accountRule at h
  obtain ⟨_, hbinaries, _⟩ := bind_eq_ok h
  refine forall_of_foldlM_eq_ok ?_ hbinaries
  intro st binary st' hst
  unfold accountPatternBytes at hst
  exact Nat.not_lt.mp (rejectIf_bind.mp hst).1

theorem byteLen_binary_le_of_accountPolicy {policy : ContainmentPolicy}
    (h : accountPolicy st policy = .ok st') :
    ∀ rule ∈ policy.rules, ∀ binary ∈ rule.binaries, byteLen binary.path ≤ maxPatternBytes := by
  unfold accountPolicy at h
  obtain ⟨_, _, hrules⟩ := bind_eq_ok h
  refine forall_of_foldlM_eq_ok ?_ hrules
  intro st rule st' hst
  exact byteLen_binary_le_of_accountRule hst

variable {boundary candidate : ContainmentPolicy}

/-- Within the limits, no binary pattern is longer than a path may be. -/
theorem byteLen_binary_le (h : resourceLimitReason boundary candidate = none) :
    ∀ rule ∈ candidate.rules, ∀ binary ∈ rule.binaries,
      byteLen binary.path ≤ maxPatternBytes := by
  unfold resourceLimitReason at h
  split at h
  next => cases h
  next st hok =>
    unfold accountPolicies at hok
    obtain ⟨-, hok⟩ := rejectIf_bind.mp hok
    obtain ⟨-, hok⟩ := rejectIf_bind.mp hok
    obtain ⟨-, hok⟩ := rejectIf_bind.mp hok
    have hpolicies := forall_of_foldlM_eq_ok (P := fun policy => ∀ rule ∈ policy.rules,
      ∀ binary ∈ rule.binaries, byteLen binary.path ≤ maxPatternBytes) ?_ hok
    · exact hpolicies candidate (by simp)
    · intro st policy st' hst
      exact byteLen_binary_le_of_accountPolicy hst

/-! ## Witnesses -/

variable {witness : NetworkWitness}

/-- What makes the action of a counterexample one the solver is told about. -/
theorem actionDomain_of_witness (hport : witness.port ≠ 0)
    (hmethod : witness.method.getD "GET" ≠ "")
    (hpath : pathInDomain (witness.path.getD "/") = true)
    (hbinary : witness.binaryIdentityRequired = true →
      binaryInDomain (witness.binary.getD "") = true ∧
        binaryInDomain (witness.ancestorBinary.getD "") = true) :
    actionDomain witness.action witness.binaryIdentityRequired = true := by
  have hlow : (1 : Int) ≤ witness.port.toNat := by
    have hne : witness.port.toNat ≠ 0 := fun h => hport (UInt16.toNat_inj.mp h)
    omega
  have hhigh : (witness.port.toNat : Int) ≤ 65535 := by
    have hlt := witness.port.toNat_lt
    omega
  have hlayer : (witness.protocol.asStr == "l4" || witness.protocol.asStr == "rest") = true := by
    cases witness.protocol <;> decide
  have hidentity : (!witness.binaryIdentityRequired ||
      (binaryInDomain (witness.binary.getD "") &&
        binaryInDomain (witness.ancestorBinary.getD ""))) = true := by
    cases hmode : witness.binaryIdentityRequired with
    | false => rfl
    | true => simp [hbinary hmode]
  simp only [actionDomain, NetworkWitness.action, inDomain_concrete, hidentity, hlow, hhigh, hlayer,
    hpath, decide_true, Bool.and_true, Bool.true_and, bne_iff_ne]
  exact hmethod

theorem ne_empty_of_isHttpMethod {method : String} (h : isHttpMethod method = true) :
    method ≠ "" := by
  rintro rfl
  exact absurd h (by decide)

variable {mode : Bool}

theorem port_of_actionDomain {action : Action} (h : actionDomain action mode = true) :
    1 ≤ action.port ∧ action.port ≤ 65535 := by
  simp only [actionDomain, Bool.and_eq_true, decide_eq_true_eq] at h
  exact ⟨h.1.1.1.1.2, h.1.1.1.2⟩

theorem binaryInDomain_of_binaryFromModel {binary : Option String}
    (h : binaryFromModel path true = some binary) : binaryInDomain (binary.getD "") = true := by
  unfold binaryFromModel at h
  rw [if_pos rfl] at h
  obtain ⟨hcanonical, ⟨⟩⟩ := then_of_ite h nofun
  exact binaryInDomain_of_isCanonicalRuntimeBinaryPath hcanonical

/-- A request read back from a model is in the domain. -/
theorem actionDomain_of_counterexampleFromModel {action : Action}
    (h : counterexampleFromModel action mode = some witness)
    (hdomain : actionDomain action mode = true) :
    witness.binaryIdentityRequired = mode ∧ actionDomain witness.action mode = true := by
  unfold counterexampleFromModel at h
  simp only [bind, Option.bind_eq_some_iff, Option.pure_def] at h
  obtain ⟨binary, hbinary, ancestorBinary, hancestor, _, -, _, hrest, destinationIp, -, _, hport,
    h⟩ := h
  have hrest := (Option.guard_eq_some' _).mp hrest
  have hport := (Option.guard_eq_some' _).mp hport
  cases h
  refine ⟨rfl, actionDomain_of_witness ?_ ?_ ?_ ?_⟩
  · have hlow := (port_of_actionDomain hdomain).1
    intro hzero
    have hnat : action.port.toNat % 2 ^ 16 = 0 := congrArg UInt16.toNat hzero
    omega
  · by_cases hl4 : action.layer = "l4"
    · simp [hl4]
    · simp only [hl4, if_false, reduceCtorEq, false_or, if_true, Option.getD_some] at hrest ⊢
      exact ne_empty_of_isHttpMethod hrest.1
  · by_cases hl4 : action.layer = "l4"
    · simp only [hl4, if_true, reduceCtorEq, if_false]
      decide
    · simp only [hl4, if_false, reduceCtorEq, false_or, if_true, Option.getD_some] at hrest ⊢
      exact pathInDomain_of_isCanonicalRestPath hrest.2
  · rintro rfl
    exact ⟨binaryInDomain_of_binaryFromModel hbinary, binaryInDomain_of_binaryFromModel hancestor⟩

/-- What a request tried for an endpoint looks like. -/
theorem mem_endpointWitnesses {endpoint : NetworkEndpoint}
    (h : witness ∈ endpointWitnesses rule endpoint mode) :
    witness.binaryIdentityRequired = mode ∧ witness.method.getD "GET" ≠ "" ∧
      pathInDomain (witness.path.getD "/") = true ∧ witness.ancestorBinary = witness.binary ∧
      (mode = true → witness.binary = some "/usr/bin/worker" ∨
        ∃ binary ∈ rule.binaries, witness.binary = some (replaceStars binary.path)) := by
  unfold endpointWitnesses at h
  split at h
  next => exact absurd h List.not_mem_nil
  next hcanonical =>
    simp only [Bool.or_eq_true, Bool.not_eq_true', not_or, Bool.not_eq_false] at hcanonical
    obtain ⟨⟨-, hpath⟩, hmethod⟩ := hcanonical
    obtain ⟨port, -, h⟩ := List.mem_flatMap.mp h
    obtain ⟨destinationIp, -, rfl⟩ := List.mem_map.mp h
    refine ⟨rfl, ?_, ?_, rfl, ?_⟩
    · unfold endpointWitness
      split
      next => exact ne_empty_of_isHttpMethod hmethod
      next => exact (by decide : "GET" ≠ "")
    · unfold endpointWitness
      split
      next => exact pathInDomain_of_isCanonicalRestPath hpath
      next => exact (by decide : pathInDomain "/" = true)
    · rintro rfl
      unfold endpointWitness witnessBinary
      cases hhead : rule.binaries.head? with
      | none => exact Or.inl rfl
      | some binary => exact Or.inr ⟨binary, List.mem_of_mem_head? hhead, rfl⟩

/-- A request tried for an endpoint is in the domain if its port is. -/
theorem actionDomain_of_concreteWitness (hlimits : resourceLimitReason boundary candidate = none)
    (hvalid : validateSupportedPolicy candidate = .ok ())
    (h : witness ∈ concreteWitnesses candidate mode) :
    witness.binaryIdentityRequired = mode ∧
      (witness.port ≠ 0 → actionDomain witness.action mode = true) := by
  obtain ⟨⟨rule, endpoint⟩, hpair, hwitness⟩ := List.mem_flatMap.mp h
  obtain ⟨rule', hrule, hpair⟩ := List.mem_flatMap.mp (List.mem_of_mem_take hpair)
  obtain ⟨endpoint', hendpoint, hpair⟩ := List.mem_map.mp hpair
  obtain ⟨rfl, rfl⟩ := Prod.mk.inj hpair
  obtain ⟨rfl, hmethod, hpath, hancestor, hbinary⟩ := mem_endpointWitnesses hwitness
  refine ⟨rfl, fun hport => actionDomain_of_witness hport hmethod hpath fun hmode => ?_⟩
  rw [hancestor, and_self_iff]
  obtain hbinary | ⟨binary, hmem, hbinary⟩ := hbinary hmode
  · rw [hbinary]
    exact binaryInDomain_of_startsWith (by decide) (by decide)
  · rw [hbinary]
    obtain ⟨name, hok⟩ := validateSupportedNetworkRule_of_mem hvalid hrule
    obtain ⟨_, hbinaries, _⟩ := bind_eq_ok hok
    exact binaryInDomain_replaceStars
      (startsWith_of_validateSupportedBinary (forM_eq_ok.mp hbinaries binary hmem))
      (byteLen_binary_le hlimits rule' hrule binary hmem)

end OpenShell.Prover
