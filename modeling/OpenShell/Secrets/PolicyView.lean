import OpenShell.Secrets.ScanForward

/-!
# The policy's view of a target

What the policy and the log see of a target is written next to what is sent: where
the resolved target has a secret, the redacted one has a mark. Which stretches of
the target are replaced is read off the target alone. A token of a path segment
ends where its grammar says, whichever keys the resolver knows, and a query value
is replaced as a whole. So two rewrites of one target that succeed, with whatever
resolvers, have one redacted target.
-/

namespace OpenShell.Secrets

variable {r₁ r₂ : SecretResolver} {now₁ now₂ : Int}

/-- Any two resolvers mark the same stretches of a segment. -/
theorem rewritePathSegment_redacted_eq (segment : Bytes) :
    Agree (fun out₁ out₂ => out₁.2 = out₂.2) (rewritePathSegment segment r₁ now₁)
      (rewritePathSegment segment r₂ now₂) := by
  intro out₁ out₂ h₁ h₂
  obtain ⟨spans₁, hrun₁, -, hout₁⟩ := rewritePathSegment_run h₁
  obtain ⟨spans₂, hrun₂, -, hout₂⟩ := rewritePathSegment_run h₂
  have haligned :=
    hrun₁.aligned (V := fun _ _ => True) hrun₂ rfl (fun _ => rfl) fun hread hread' => by
    -- a token ends where its text says, whatever it resolves to
    obtain ⟨token, htoken, -⟩ := SecretResolver.segmentToken_eq_ok hread
    obtain ⟨token', htoken', -⟩ := SecretResolver.segmentToken_eq_ok hread'
    exact ⟨(Prod.mk.inj (Option.mem_unique htoken htoken')).1, trivial⟩
  rw [hout₁, hout₂, Scanner.splice_aligned segment (fun _ _ _ => rfl) haligned]

/-- Parts of which the policy sees the same. -/
def SameView (part₁ part₂ : Part) : Prop :=
  part₁.redacted = part₂.redacted ∧ part₁.rewritten = part₂.rewritten

/-- Step: a segment of the path looks the same under any two resolvers. -/
theorem rewriteUriSegment_view_eq (segment : Bytes) :
    Agree SameView (rewriteUriSegment r₁ now₁ segment) (rewriteUriSegment r₂ now₂ segment) := by
  unfold rewriteUriSegment
  by_cases hmarker : containsRawReservedMarker (percentDecode segment) = true
  · simp only [hmarker, if_true]
    exact (rewritePathSegment_redacted_eq _).bind fun _ _ h => agree_pure ⟨h, rfl⟩
  · simp only [hmarker]
    exact agree_pure ⟨rfl, rfl⟩

/-- Step: so does a parameter, whose value is replaced as a whole or not at all. -/
theorem rewriteUriParam_view_eq (param : Bytes) :
    Agree SameView (rewriteUriParam r₁ now₁ param) (rewriteUriParam r₂ now₂ param) := by
  unfold rewriteUriParam
  cases splitOnce 0x3D param with
  | none => exact agree_pure ⟨rfl, rfl⟩
  | some entry =>
    obtain ⟨key, value⟩ := entry
    by_cases hmarker : containsRawReservedMarker (percentDecode value) = true
    · simp only [hmarker, if_true]
      refine Agree.bind (R := fun _ _ => True) (fun _ _ _ _ => trivial)
        fun out₁ out₂ _ part₁ part₂ h₁ h₂ => ?_
      obtain ⟨-, h₁⟩ := else_of_ite h₁ nofun
      obtain ⟨-, h₂⟩ := else_of_ite h₂ nofun
      exact agree_pure ⟨rfl, rfl⟩ part₁ part₂ h₁ h₂
    · simp only [hmarker]
      exact agree_pure ⟨rfl, rfl⟩

/-- Parts that look the same make a text that does. -/
theorem joinParts_view_eq {sep : Bytes} {parts₁ parts₂ : List Part}
    (h : List.Forall₂ SameView parts₁ parts₂) :
    (joinParts sep parts₁).map Prod.snd = (joinParts sep parts₂).map Prod.snd := by
  have hsame : parts₁.map (·.redacted) = parts₂.map (·.redacted) ∧
      parts₁.any (·.rewritten) = parts₂.any (·.rewritten) := by
    induction h with
    | nil => exact ⟨rfl, rfl⟩
    | cons hpart _ ih => simp [hpart.1, hpart.2, ih.1, ih.2]
  unfold joinParts
  rw [hsame.2]
  split
  · exact congrArg (fun texts => some (sep.intercalate texts)) hsame.1
  · rfl

/-- Targets, or parts of them, with one redacted text or none. -/
def SameRedacted (out₁ out₂ : Option (Bytes × Bytes)) : Prop :=
  out₁.map Prod.snd = out₂.map Prod.snd

/-- Run: the policy sees one path. -/
theorem rewriteUriPath_redacted_eq (path : Bytes) :
    Agree SameRedacted (rewriteUriPath path r₁ now₁) (rewriteUriPath path r₂ now₂) :=
  (agree_mapM rewriteUriSegment_view_eq _).bind fun _ _ h => agree_pure (joinParts_view_eq h)

/-- Run: the policy sees one query. -/
theorem rewriteUriQueryParams_redacted_eq (query : Bytes) :
    Agree SameRedacted (rewriteUriQueryParams query r₁ now₁)
      (rewriteUriQueryParams query r₂ now₂) := by
  unfold rewriteUriQueryParams
  by_cases hmarker : (!containsReservedCredentialMarker query) = true
  · rw [if_pos hmarker, if_pos hmarker]
    exact agree_pure rfl
  · rw [if_neg hmarker, if_neg hmarker]
    exact (agree_mapM rewriteUriParam_view_eq _).bind fun _ _ h => agree_pure (joinParts_view_eq h)

/-- A text in which nothing is replaced stands for itself. -/
theorem SameRedacted.getD {out₁ out₂ : Option (Bytes × Bytes)} (h : SameRedacted out₁ out₂)
    (text : Bytes) :
    (out₁.getD (text, text)).2 = (out₂.getD (text, text)).2 := by
  have hgetD : ∀ out : Option (Bytes × Bytes),
      (out.getD (text, text)).2 = (out.map Prod.snd).getD text := by
    intro out
    cases out <;> rfl
  rw [hgetD, hgetD, show out₁.map Prod.snd = out₂.map Prod.snd from h]

/-- The path and the query together. -/
theorem rewriteTarget_redacted_eq (target : Bytes) :
    Agree (fun out₁ out₂ => out₁.2 = out₂.2) (rewriteTarget target r₁ now₁)
      (rewriteTarget target r₂ now₂) := by
  unfold rewriteTarget
  cases splitOnce 0x3F target with
  | none => exact (rewriteUriPath_redacted_eq target).bind fun _ _ h => agree_pure (h.getD target)
  | some parts =>
    obtain ⟨path, query⟩ := parts
    refine (rewriteUriPath_redacted_eq path).bind fun path₁ path₂ hpath => ?_
    refine (rewriteUriQueryParams_redacted_eq query).bind fun query₁ query₂ hquery => agree_pure ?_
    show (path₁.getD (path, path)).2 ++ [0x3F] ++ (query₁.getD (query, query)).2 =
      (path₂.getD (path, path)).2 ++ [0x3F] ++ (query₂.getD (query, query)).2
    rw [hpath.getD, hquery.getD]

/-- Two rewrites of one target that succeed redact it alike. -/
theorem rewriteTargetForEval_redacted_eq (target : Bytes) :
    Agree (fun result₁ result₂ => result₁.redacted = result₂.redacted)
      (rewriteTargetForEval target r₁ now₁) (rewriteTargetForEval target r₂ now₂) := by
  unfold rewriteTargetForEval
  by_cases hmarker : containsReservedCredentialMarker target = true
  · rw [if_pos hmarker, if_pos hmarker]
    exact (rewriteTarget_redacted_eq target).bind fun _ _ h => agree_pure h
  · rw [if_neg hmarker, if_neg hmarker]
    exact agree_pure rfl

/-- The secret-free projection of a target is the redacted target of a rewrite. -/
theorem redactTargetForPolicy_eq_ok {target redacted : Bytes} {now : Int}
    (h : redactTargetForPolicy target now = .ok redacted) :
    ∃ r result, rewriteTargetForEval target r now = .ok result ∧ result.redacted = redacted := by
  unfold redactTargetForPolicy at h
  by_cases hmarker : containsReservedCredentialMarker target = true
  · rw [if_pos hmarker] at h
    obtain ⟨env, -, h⟩ := bind_eq_ok h
    cases hresolver : redactionResolver env with
    | none =>
      rw [hresolver] at h
      cases h
    | some r =>
      rw [hresolver] at h
      obtain ⟨result, hresult, h⟩ := bind_eq_ok h
      exact ⟨r, result, hresult, Except.ok.inj h⟩
  · rw [if_neg hmarker] at h
    refine ⟨.empty, ⟨target, target⟩, ?_, Except.ok.inj h⟩
    rw [rewriteTargetForEval, if_neg hmarker]

/-- What policy sees of a target depends on the target alone: not on the resolver, not on the time,
and not on which of the two calls redacts it. -/
theorem redacted_independent (target : Bytes) :
    (∀ r₁ r₂ now₁ now₂ result₁ result₂, rewriteTargetForEval target r₁ now₁ = .ok result₁ →
      rewriteTargetForEval target r₂ now₂ = .ok result₂ → result₁.redacted = result₂.redacted) ∧
    (∀ r now now' redacted result, redactTargetForPolicy target now' = .ok redacted →
      rewriteTargetForEval target r now = .ok result → redacted = result.redacted) := by
  refine ⟨fun _ _ _ _ => rewriteTargetForEval_redacted_eq target,
    fun r now now' redacted result hpolicy h => ?_⟩
  obtain ⟨r', result', h', rfl⟩ := redactTargetForPolicy_eq_ok hpolicy
  exact rewriteTargetForEval_redacted_eq target _ _ h' h

/-- A target with a placeholder in its query, and a resolver that knows it. -/
def keyTarget : Bytes := utf8Bytes "/v1/items?token=openshell:resolve:env:KEY"

theorem keyIssued_prefixed (secret : Bytes) :
    ∀ placeholder, placeholder ∈ (PlaceholderMap.empty.issue (utf8Bytes "KEY") ⟨secret, 0⟩).1 →
      placeholderPrefix <+: placeholder :=
  (PlaceholderMap.empty.issue (utf8Bytes "KEY") ⟨secret, 0⟩).2

def keyResolver (secret : Bytes) : SecretResolver :=
  (SecretResolver.ofPlaceholders (PlaceholderMap.empty.issue (utf8Bytes "KEY") ⟨secret, 0⟩).1
    (keyIssued_prefixed secret)).withPlacements
    ((∅ : TextMap CredentialPlacement).insert (utf8Bytes "KEY") (.queryParam (utf8Bytes "token")))

/-- One placeholder is issued, with the secret under it. -/
theorem keyIssued_getElem? {secret placeholder : Bytes} {entry : SecretValue}
    (h : (PlaceholderMap.empty.issue (utf8Bytes "KEY") ⟨secret, 0⟩).1[placeholder]? = some entry) :
    placeholder = utf8Bytes "openshell:resolve:env:KEY" ∧ entry.value = secret := by
  change ((∅ : TextMap SecretValue).insert (placeholderPrefix ++ utf8Bytes "KEY")
    ⟨secret, 0⟩)[placeholder]? = some entry at h
  rw [Std.ExtTreeMap.getElem?_insert] at h
  split at h
  next hkey =>
    cases h
    exact ⟨(Std.LawfulEqCmp.eq_of_compare hkey).symm.trans (by decide), rfl⟩
  next => simp at h

theorem redacted_independent_keyTarget :
    ∃ result₁ result₂ redacted, rewriteTargetForEval keyTarget (keyResolver (utf8Bytes "abc")) 0 =
      .ok result₁ ∧
      rewriteTargetForEval keyTarget (keyResolver (utf8Bytes "xyzxyz")) 0 = .ok result₂ ∧
      redactTargetForPolicy keyTarget 0 = .ok redacted ∧
      result₁.redacted = result₂.redacted ∧ redacted = result₁.redacted := by
  obtain ⟨result₁, h₁⟩ : ∃ result,
      rewriteTargetForEval keyTarget (keyResolver (utf8Bytes "abc")) 0 = .ok result :=
    exists_ok_of_isSome (by decide)
  obtain ⟨result₂, h₂⟩ : ∃ result,
      rewriteTargetForEval keyTarget (keyResolver (utf8Bytes "xyzxyz")) 0 = .ok result :=
    exists_ok_of_isSome (by decide)
  obtain ⟨redacted, h⟩ : ∃ redacted, redactTargetForPolicy keyTarget 0 = .ok redacted :=
    exists_ok_of_isSome (by decide)
  exact ⟨result₁, result₂, redacted, h₁, h₂, h,
    (redacted_independent keyTarget).1 _ _ _ _ _ _ h₁ h₂,
    (redacted_independent keyTarget).2 _ _ _ _ _ h h₁⟩

end OpenShell.Secrets
