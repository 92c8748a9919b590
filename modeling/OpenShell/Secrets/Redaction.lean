import OpenShell.Secrets.ScanForward

/-!
# Redacting a target

The policy projection of a request target first collects the keys it refers to,
then rewrites the target with a resolver that knows these keys and no secret. The
first loop never panics: it slices at its own position only, and although a word
may run back, its token then ends in front (`lt_stop_of_nextStart`). The second
part rewrites segment by segment and value by value, so a target comes out, or an
error, exactly when no word runs back into a token there.
-/

namespace OpenShell.Secrets

open Scanner

/-! ## Collecting the keys -/

variable {text : Bytes} {marker start : Nat}

/-- A lead-in has no alias marker in its word. -/
theorem not_placeholderPrefix_of_word (hlt : start < marker)
    (hmarker : providerAliasMarker <+: text.drop marker)
    (hword : ∀ i, start ≤ i → i < marker → text[i]?.any isAliasTokenChar = true) :
    ¬ placeholderPrefix <+: text.drop start := by
  intro hlead
  have hcolon := getElem?_of_prefix_drop hlead (k := 9) (by decide)
  have hO := getElem?_of_prefix_drop hmarker (k := 0) (by decide)
  -- the first colon of the lead-in ends the word, so the marker starts before it
  have hle : marker ≤ start + 9 := Nat.not_lt.mp fun h => by
    have := hword (start + 9) (Nat.le_add_right ..) h
    rw [hcolon] at this
    exact absurd this (by decide)
  have hbyte := getElem?_of_prefix_drop hlead (k := marker - start)
    (Nat.lt_of_le_of_lt (Nat.sub_le_iff_le_add'.mpr hle) (by decide))
  rw [Nat.add_sub_cancel' (Nat.le_of_lt hlt)] at hbyte
  have hlower : ∀ k < 10, placeholderPrefix[k]? ≠ providerAliasMarker[0]? := by decide
  exact hlower (marker - start) (by omega) (hbyte.symm.trans hO)

variable {token : Bytes} {stop : Nat}

/-- The token of a word ends behind every alias marker in it. -/
theorem lt_stop_of_aliasTokenAt (h : aliasTokenAt text start = some (stop, token))
    (hle : start ≤ marker) (hmarker : providerAliasMarker <+: text.drop marker)
    (hword : ∀ i, start ≤ i → i < marker → text[i]?.any isAliasTokenChar = true) :
    marker < stop := by
  obtain ⟨-, -, hafter, first, hfirst, rfl⟩ := aliasTokenAt_eq_some h
  have hlen := add_length_le_of_prefix_drop providerAliasMarker_ne_nil hmarker
  have hlength : providerAliasMarker.length = 22 := by decide
  have hend := le_envKeyEnd text (first + providerAliasMarker.length)
  have hfirstle : first ≤ marker := Nat.not_lt.mp fun hlt => hfirst.2.2 marker hle hlt hmarker
  refine Nat.not_le.mp fun hstop => ?_
  -- the token of an earlier marker would be followed by an alias character
  generalize hkeyEnd : envKeyEnd text (first + providerAliasMarker.length) = keyEnd at *
  have halias : text[keyEnd]?.any isAliasTokenChar = true := by
    rcases Nat.lt_or_eq_of_le hstop with hlt | rfl
    · exact hword keyEnd (by have := hfirst.1; omega) hlt
    · rw [← Nat.add_zero keyEnd, getElem?_of_prefix_drop hmarker (by omega)]
      decide
  have hne : keyEnd ≠ text.length := by omega
  simp [aliasAfterOk, halias, hne] at hafter

variable {pos : Nat}

/-- Whatever the next start, its token ends behind the position. -/
theorem lt_stop_of_nextStart
    (hnext : nextStart text pos = some start) (h : tokenInSegment text start = some (stop, token)) :
    pos < stop := by
  have hread := (tokenInSegment_read h).1
  by_cases hle : pos ≤ start
  · exact Nat.lt_of_le_of_lt hle hread.lt
  rcases nextStart_cases hnext with ⟨hle', -⟩ | ⟨marker, hfirst, rfl⟩
  · exact absurd hle' hle
  have hlt := Nat.lt_of_lt_of_le (Nat.not_le.mp hle) hfirst.1
  have hword := (aliasStartForMarker_le_iff (Nat.le_of_lt hlt)).mp (Nat.le_refl _)
  rcases orElse_eq_some h with hcanonical | h
  · have hlead := (canonicalTokenAt_eq_some hcanonical).2.2
    exact absurd hlead (not_placeholderPrefix_of_word hlt hfirst.2.1 hword)
  · exact Nat.lt_of_le_of_lt hfirst.1
      (lt_stop_of_aliasTokenAt h (Nat.le_of_lt hlt) hfirst.2.1 hword)

variable {decoded : Bytes}

theorem referencedKeys_returns (hutf8 : isUtf8 decoded = true) (fuel : Nat) :
    ∀ (pos : Nat) (env : TextMap Bytes), decoded.length ≤ pos + fuel →
      isCharBoundary decoded pos = true → Returns (referencedKeys decoded fuel pos env) := by
  induction fuel with
  | zero =>
    intro pos env hfuel _
    have hpos : ¬ pos < decoded.length := Nat.not_lt.mpr hfuel
    rw [referencedKeys, if_neg hpos]
    exact returns_ok env
  | succ fuel ih =>
    intro pos env hfuel hcut
    rw [referencedKeys]
    split
    next hpos =>
      rw [slice_of_boundary (Nat.le_of_lt hpos) (Nat.le_refl _) hcut
        (isCharBoundary_length decoded)]
      refine returns_bind_iff.mpr ⟨returns_ok _, fun _ _ => ?_⟩
      split
      next => exact returns_ok env
      next start hnext =>
        split
        next => exact returns_failed _
        next stop token htoken =>
          split
          next => exact returns_failed _
          next key hkey =>
            have hlt := lt_stop_of_nextStart hnext htoken
            exact ih stop _ (by omega) (tokenInSegment_eq_some hutf8 htoken).2
    next => exact returns_ok env

/-! ## The keys are text -/

/-- A token that ends in an ASCII byte is text when its text is. -/
theorem TokenRead.isUtf8 (h : TokenRead text start stop token)
    (hutf8 : isUtf8 text = true) (hnext : nextStart text pos = some start)
    (hlast : text[stop - 1]?.any isEnvKeyChar = true) : isUtf8 token = true := by
  obtain ⟨b, hb, hascii⟩ := nextStart_ascii hnext
  obtain ⟨c, hc, hkey⟩ := (Option.any_eq_true _ _).mp hlast
  have hdrop := (isUtf8_drop_of_ascii hutf8 hb hascii).1
  have hlt := h.lt
  have hget : (text.drop start)[stop - 1 - start]? = some c := by
    rw [List.getElem?_drop, Nat.add_sub_cancel' (by omega), hc]
  obtain ⟨hi, hget⟩ := List.getElem?_eq_some_iff.mp hget
  -- the text from the start on is the token up to its last byte, that byte, the rest
  have hsplit : text.drop start =
      (text.drop start).take (stop - 1 - start) ++ c :: (text.drop start).drop
      (stop - 1 - start + 1) := by
    rw [← hget, ← List.drop_eq_getElem_cons hi, List.take_append_drop]
  have htoken : token = (text.drop start).take (stop - 1 - start) ++ [c] := by
    rw [h.eq, ← hget, List.take_append_getElem hi]
    congr 1
    omega
  rw [hsplit, isUtf8_append_ascii (isEnvKeyChar_ascii c hkey), Bool.and_eq_true] at hdrop
  rw [htoken, isUtf8_append_ascii (isEnvKeyChar_ascii c hkey), hdrop.1]
  rfl

variable {key : Bytes}

theorem isUtf8_of_envKey (h : key.all isEnvKeyChar = true) : isUtf8 key = true :=
  isUtf8_of_ascii fun b hb => isEnvKeyChar_ascii b (List.all_eq_true.mp h b hb)

theorem aliasSuffixKey_all {suffix : Bytes} (h : suffix.all isEnvKeyChar = true) :
    (aliasSuffixKey suffix).all isEnvKeyChar = true := by
  unfold aliasSuffixKey
  split
  next identity key hsplit =>
    rcases orElse_eq_some hsplit with hsplit | hsplit
    · exact (splitIdentityEnvKey_eq_some hsplit).2.2.1
    · exact (splitIdentityEnvKey_eq_some hsplit).2.2.1
  next => exact h

theorem placeholderEnvKey_isUtf8 (hutf8 : isUtf8 token = true)
    (h : placeholderEnvKey token = some key) : isUtf8 key = true := by
  rcases placeholderEnvKey_eq_some.mp h with
    ⟨handle, hstable⟩ | ⟨-, ⟨revision, hrevision⟩ | ⟨-, hstrip | ⟨-, suffix, hsuffix, rfl⟩⟩⟩
  · obtain ⟨suffix, -, hsplit⟩ := Option.bind_eq_some_iff.mp hstable
    exact isUtf8_of_envKey (splitIdentityEnvKey_eq_some hsplit).2.2.1
  · obtain ⟨suffix, digits, -, hsplit, -⟩ := revisionedPlaceholderParts_eq_some hrevision
    exact isUtf8_of_envKey (splitIdentityEnvKey_eq_some hsplit).2.2.1
  · rw [stripBytes_eq_some.mp hstrip,
      isUtf8_append (isUtf8_of_ascii placeholderPrefix_ascii)] at hutf8
    exact hutf8
  · exact isUtf8_of_envKey (aliasSuffixKey_all (aliasEnvKey_eq_some hsuffix).2)

/-- The keys collected from a text are text. -/
theorem referencedKeys_isUtf8 (hutf8 : isUtf8 decoded = true) (fuel : Nat) :
    ∀ (pos : Nat) (env env' : TextMap Bytes), (∀ key, key ∈ env → isUtf8 key = true) →
      referencedKeys decoded fuel pos env = .ok env' → ∀ key, key ∈ env' → isUtf8 key = true := by
  induction fuel with
  | zero =>
    intro pos env env' henv h
    rw [referencedKeys] at h
    obtain ⟨-, h⟩ := else_of_ite h nofun
    exact Except.ok.inj h ▸ henv
  | succ fuel ih =>
    intro pos env env' henv h
    rw [referencedKeys] at h
    split at h
    next =>
      obtain ⟨_, -, h⟩ := bind_eq_ok h
      split at h
      next => exact Except.ok.inj h ▸ henv
      next start hnext =>
        split at h
        next => cases h
        next stop token htoken =>
          split at h
          next => cases h
          next key hkey =>
            refine ih stop _ env' (fun key' hkey' => ?_) h
            rcases Std.ExtTreeMap.mem_insert.mp hkey' with heq | hmem
            · rw [← Std.LawfulEqCmp.eq_of_compare heq]
              obtain ⟨hread, hlast⟩ := tokenInSegment_read htoken
              exact placeholderEnvKey_isUtf8 (hread.isUtf8 hutf8 hnext hlast) hkey
            · exact henv key' hmem
    next => exact Except.ok.inj h ▸ henv

variable {r : SecretResolver}

/-- A resolver made of text entries has text placeholders. -/
theorem fromProviderEnv_isUtf8 {entries : List (Bytes × Bytes)}
    (hentries : ∀ entry ∈ entries, isUtf8 entry.1 = true)
    (h : SecretResolver.fromProviderEnv entries = some r) :
    ∀ placeholder, placeholder ∈ r.byPlaceholder → isUtf8 placeholder = true := by
  unfold SecretResolver.fromProviderEnv at h
  dsimp only at h
  obtain ⟨-, ⟨⟩⟩ := else_of_ite h nofun
  clear h
  refine List.foldlRecOn entries _ (motive := fun issued : PlaceholderMap =>
    ∀ placeholder, placeholder ∈ issued.1 → isUtf8 placeholder = true) ?_ ?_
  · exact fun _ h => absurd h Std.ExtTreeMap.not_mem_empty
  · intro issued hissued entry hentry placeholder hmem
    split at hmem
    next => exact hissued placeholder hmem
    next =>
      rcases Std.ExtTreeMap.mem_insert.mp hmem with heq | hmem
      · rw [← Std.LawfulEqCmp.eq_of_compare heq,
          isUtf8_append (isUtf8_of_ascii placeholderPrefix_ascii)]
        exact hentries entry hentry
      · exact hissued placeholder hmem

/-! ## Rewriting a target -/

/-- A resolver for policy projection checks no placement. -/
theorem placementReturns_of_redaction (h : r.policyRedactionOnly = true) :
    r.PlacementReturns := by
  intro placeholder
  rw [SecretResolver.placementPermits, if_pos h]
  exact returns_ok true

section Target
variable (r : SecretResolver) (now : Int)

/-- No scan of a path segment that is come to runs back. -/
def PathSegmentsClear (path : Bytes) : Prop :=
  ∀ done segment rest, path.splitOn 0x2F = done ++ segment :: rest →
    (∀ s ∈ done, ∃ part, rewriteUriSegment (r.withRequestLocation (.path (percentDecode path)))
      now s = .ok part) →
    ∀ e, (segmentScanner (r.withRequestLocation (.path (percentDecode path))) now
      (percentDecode segment)).Reaches 0 e → ¬ RunsBack (percentDecode segment) e

/-- No scan of a query value that is come to runs back. -/
def QueryValuesClear (query : Bytes) : Prop :=
  containsReservedCredentialMarker query = true →
    ∀ done param rest, query.splitOn 0x26 = done ++ param :: rest →
      (∀ p ∈ done, ∃ part, rewriteUriParam r now p = .ok part) →
      ∀ key value, splitOnce 0x3D param = some (key, value) →
        ∀ e, ((r.withRequestLocation (.queryParam (percentDecode (plusToSpace key)))).textScanner
          now "query_param"
            (percentDecode value)).Reaches 0 e → ¬ RunsBack (percentDecode value) e

/-- No scan of a target that is come to runs back: the path's, and then the query's. -/
def TargetClear (target : Bytes) : Prop :=
  match splitOnce 0x3F target with
  | some (path, query) =>
    PathSegmentsClear r now path ∧
      ((∃ out, rewriteUriPath path r now = .ok out) → QueryValuesClear r now query)
  | none => PathSegmentsClear r now target

variable {r now}

theorem rewriteUriSegment_returns_iff (hplacement : r.PlacementReturns) (segment : Bytes) :
    Returns (rewriteUriSegment r now segment) ↔
      ∀ e, (segmentScanner r now (percentDecode segment)).Reaches 0 e →
        ¬ RunsBack (percentDecode segment) e := by
  unfold rewriteUriSegment
  dsimp only
  by_cases hmarker : containsRawReservedMarker (percentDecode segment) = true
  · rw [if_pos hmarker, returns_bind_iff, segment_returns_iff hplacement (percentDecode_isUtf8 _)]
    exact and_iff_left fun _ _ => returns_ok _
  · rw [if_neg hmarker]
    exact iff_of_true (returns_ok _) fun e _ => not_runsBack_of_no_marker hmarker e

theorem rewriteUriParam_returns_iff (hr : r.IsText) (hredact : r.policyRedactionOnly = true)
    (param : Bytes) :
    Returns (rewriteUriParam r now param) ↔
      ∀ key value, splitOnce 0x3D param = some (key, value) →
        ∀ e, ((r.withRequestLocation (.queryParam (percentDecode (plusToSpace key)))).textScanner
          now "query_param"
            (percentDecode value)).Reaches 0 e → ¬ RunsBack (percentDecode value) e := by
  unfold rewriteUriParam
  cases hsplit : splitOnce 0x3D param with
  | none => exact iff_of_true (returns_ok _) fun _ _ h => absurd h nofun
  | some pair =>
    obtain ⟨key, value⟩ := pair
    simp only [Option.some.injEq, Prod.mk.injEq, and_imp, forall_eq', forall_apply_eq_imp_iff]
    by_cases hmarker : containsRawReservedMarker (percentDecode value) = true
    · have hr' : (r.withRequestLocation (.queryParam (percentDecode (plusToSpace key)))).IsText :=
        ⟨hr.keys, fun _ h => absurd h nofun⟩
      have hplacement : (r.withRequestLocation
          (.queryParam (percentDecode (plusToSpace key)))).PlacementReturns :=
        placementReturns_of_redaction hredact
      rw [if_pos hmarker, returns_bind_iff,
        SecretResolver.rewrite_returns_iff hr' hplacement (percentDecode_isUtf8 _)]
      refine and_iff_left fun out _ => ?_
      split
      · exact returns_failed _
      · exact returns_ok _
    · rw [if_neg hmarker]
      exact iff_of_true (returns_ok _) fun e _ => not_runsBack_of_no_marker hmarker e

variable (hr : r.IsText) (hredact : r.policyRedactionOnly = true)
include hredact

theorem rewriteUriPath_returns_iff (path : Bytes) :
    Returns (rewriteUriPath path r now) ↔ PathSegmentsClear r now path := by
  have hplacement : (r.withRequestLocation (.path (percentDecode path))).PlacementReturns :=
    placementReturns_of_redaction hredact
  unfold rewriteUriPath
  dsimp only
  refine Iff.trans (returns_bind_of fun _ => returns_ok _) ?_
  rw [returns_mapM_iff]
  refine forall₄_congr fun done segment rest _ => ?_
  exact forall_congr' fun _ => rewriteUriSegment_returns_iff hplacement segment

include hr

theorem rewriteUriQueryParams_returns_iff (query : Bytes) :
    Returns (rewriteUriQueryParams query r now) ↔ QueryValuesClear r now query := by
  unfold rewriteUriQueryParams
  by_cases hmarker : containsReservedCredentialMarker query = true
  · rw [if_neg (by simp [hmarker])]
    refine Iff.trans (returns_bind_of fun _ => returns_ok _) ?_
    rw [returns_mapM_iff]
    refine Iff.trans ?_
      ⟨fun h (_ : containsReservedCredentialMarker query = true) => h, fun h => h hmarker⟩
    refine forall₄_congr fun done param rest _ => ?_
    exact forall_congr' fun _ => rewriteUriParam_returns_iff hr hredact param
  · rw [if_pos (by simp [hmarker])]
    exact iff_of_true (returns_ok _) fun h => absurd h hmarker

theorem rewriteTarget_returns_iff (target : Bytes) :
    Returns (rewriteTarget target r now) ↔ TargetClear r now target := by
  unfold rewriteTarget TargetClear
  cases hsplit : splitOnce 0x3F target with
  | none =>
    exact (returns_bind_of fun _ => returns_ok _).trans (rewriteUriPath_returns_iff hredact target)
  | some pair =>
    obtain ⟨path, query⟩ := pair
    dsimp only
    rw [returns_bind_iff, rewriteUriPath_returns_iff hredact]
    refine and_congr_right fun _ => ?_
    have hquery : ∀ out : Option (Bytes × Bytes),
        Returns (do
          let q := (← rewriteUriQueryParams query r now).getD (query, query)
          return ((out.getD (path, path)).1 ++ [0x3F] ++ q.1,
            (out.getD (path, path)).2 ++ [0x3F] ++ q.2) :
            Rewrite (Bytes × Bytes)) ↔ QueryValuesClear r now query := by
      intro out
      exact (returns_bind_of fun _ => returns_ok _).trans
        (rewriteUriQueryParams_returns_iff hr hredact query)
    constructor
    · rintro h ⟨out, hout⟩
      exact (hquery out).mp (h out hout)
    · exact fun h out hout => (hquery out).mpr (h ⟨out, hout⟩)

end Target

/-! ## The policy projection -/

theorem redactionResolver_spec {env : TextMap Bytes}
    (henv : ∀ key, key ∈ env → isUtf8 key = true) (h : redactionResolver env = some r) :
    r.IsText ∧ r.policyRedactionOnly = true := by
  obtain ⟨base, hbase, rfl⟩ := Option.map_eq_some_iff.mp h
  have hentries : ∀ entry ∈ env.toList, isUtf8 entry.1 = true := by
    intro entry hentry
    refine henv entry.1 (Std.ExtTreeMap.mem_keys.mp ?_)
    rw [← Std.ExtTreeMap.map_fst_toList_eq_keys]
    exact List.mem_map_of_mem hentry
  -- nothing but the entries was attached, so there is no location either
  have hlocation : base.requestLocation = none := by
    unfold SecretResolver.fromProviderEnv at hbase
    dsimp only at hbase
    obtain ⟨-, ⟨⟩⟩ := else_of_ite hbase nofun
    rfl
  have hkeys := fromProviderEnv_isUtf8 hentries hbase
  refine ⟨⟨hkeys, fun actual h => ?_⟩, rfl⟩
  exact absurd (hlocation.symm.trans h) nofun

/-- No scan the projection of a target comes to runs back. -/
def RedactionClear (target : Bytes) (now : Int) : Prop :=
  containsReservedCredentialMarker target = true →
    ∀ env r, referencedKeys (percentDecode target) (percentDecode target).length 0 ∅ = .ok env →
      redactionResolver env = some r → TargetClear r now target

theorem redactTargetForPolicy_returns_iff {target : Bytes} {now : Int} :
    Returns (redactTargetForPolicy target now) ↔ RedactionClear target now := by
  have hutf8 := percentDecode_isUtf8 target
  unfold redactTargetForPolicy RedactionClear
  by_cases hmarker : containsReservedCredentialMarker target = true
  · have hkeys := referencedKeys_returns hutf8 (percentDecode target).length 0 ∅
      (Nat.le_add_left ..) rfl
    rw [if_pos hmarker]
    dsimp only
    rw [returns_bind_iff, and_iff_right hkeys]
    refine Iff.trans ?_ (forall_prop_of_true hmarker).symm
    refine forall_congr' fun env => ?_
    rw [forall_comm]
    refine forall_congr' fun henv => ?_
    have htext :=
      referencedKeys_isUtf8 hutf8 _ _ _ _ (fun _ h => absurd h Std.ExtTreeMap.not_mem_empty) henv
    cases hresolver : redactionResolver env with
    | none => exact iff_of_true (returns_failed _) fun _ h => absurd h nofun
    | some r =>
      obtain ⟨hr, hredact⟩ := redactionResolver_spec htext hresolver
      have htarget : Returns (rewriteTargetForEval target r now) ↔ TargetClear r now target := by
        unfold rewriteTargetForEval
        rw [if_pos hmarker]
        exact (returns_bind_of fun _ => returns_ok _).trans
          (rewriteTarget_returns_iff hr hredact target)
      refine ((returns_bind_of fun _ => returns_ok _).trans htarget).trans ?_
      constructor
      · rintro h r' heq
        cases heq
        exact h
      · exact fun h => h r rfl
  · rw [if_neg hmarker]
    exact iff_of_true (returns_ok _) fun h => absurd h hmarker

/-! ## Scanning forward -/

/-- Scanning moves forward exactly where no word runs back into a token and, on
success, no marker straddles a token's end: for the placement check of a
placeholder, for text, for a path segment, and for the projection of a target. -/
theorem scansForward_iff (r : SecretResolver) (hr : r.IsText) (now : Int) :
    (∀ placeholder, Returns (ε := UnresolvedPlaceholderError) (r.placementPermits placeholder) ↔
      ∀ key expected actual, r.policyRedactionOnly = false →
        placeholderEnvKey placeholder = some key →
        r.placements[key]? = some (.pathTemplate expected) →
          r.requestLocation = some (.path actual) →
        r.PathClear key actual) ∧
    (r.PlacementReturns →
      (∀ text location, isUtf8 text = true →
        (r.RewritesForward now text location ↔
          ScanClear (r.textScanner now location text)
            (∃ out, r.rewriteTextPlaceholdersAtLocation now text location = .ok out))) ∧
      ∀ segment, isUtf8 segment = true →
        (SegmentForward r now segment ↔
          ScanClear (segmentScanner r now segment)
            (∃ out, rewritePathSegment segment r now = .ok out))) ∧
    ∀ target, Returns (redactTargetForPolicy target now) ↔ RedactionClear target now :=
  ⟨fun _ => SecretResolver.placementPermits_returns_iff hr,
    fun hplacement =>
      ⟨fun _ _ hutf8 => SecretResolver.rewritesForward_iff hr hplacement hutf8,
        fun _ hutf8 => segmentForward_iff hplacement hutf8⟩,
    fun _ => redactTargetForPolicy_returns_iff⟩

/-- A resolver with one key. -/
def sampleResolver : SecretResolver :=
  .ofPlaceholders (PlaceholderMap.empty.issue (utf8Bytes "KEY") ⟨utf8Bytes "secret", 0⟩).1
    (PlaceholderMap.empty.issue (utf8Bytes "KEY") ⟨utf8Bytes "secret", 0⟩).2

theorem sampleResolver_isText : sampleResolver.IsText := by
  refine ⟨fun placeholder h => ?_, fun _ h => absurd h nofun⟩
  rcases Std.ExtTreeMap.mem_insert.mp h with heq | hmem
  · rw [← Std.LawfulEqCmp.eq_of_compare heq]
    decide
  · exact absurd hmem Std.ExtTreeMap.not_mem_empty

theorem sampleResolver_placementReturns : sampleResolver.PlacementReturns := fun _ =>
  (SecretResolver.placementPermits_returns_iff sampleResolver_isText).mpr fun _ _ _ _ _ _ h =>
    absurd h nofun

theorem scansForward_iff_sample :
    sampleResolver.RewritesForward 0 (utf8Bytes "Bearer openshell:resolve:env:KEY") "header" ↔
      ScanClear (sampleResolver.textScanner 0 "header"
        (utf8Bytes "Bearer openshell:resolve:env:KEY"))
        (∃ out, sampleResolver.rewriteTextPlaceholdersAtLocation 0
          (utf8Bytes "Bearer openshell:resolve:env:KEY") "header" = .ok out) :=
  ((scansForward_iff sampleResolver sampleResolver_isText 0).2.1 sampleResolver_placementReturns).1
    _ "header"
    (by decide)

/-- A canonical token, then a word with an alias marker: the word starts at the key of
the token. -/
def wordAfterToken : Bytes := utf8Bytes "openshell:resolve:env:KEY-OPENSHELL-RESOLVE-ENV-X"

theorem not_scansForward_wordAfterToken :
    isUtf8 wordAfterToken = true ∧
      sampleResolver.rewriteTextPlaceholdersAtLocation 0 wordAfterToken "header" =
        .error .panicked ∧
      rewritePathSegment wordAfterToken sampleResolver 0 = .error .panicked ∧
      redactTargetForPolicy (utf8Bytes "/" ++ wordAfterToken) 0 = .error .panicked := by
  decide

end OpenShell.Secrets
