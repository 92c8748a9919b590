import OpenShell.Secrets.Decoders
import OpenShell.Secrets.PathShape

/-!
# Credentials in a query

Three decoders read a query value. The policy's reads a plus sign as a space and
refuses a malformed escape; the one of the rewrite keeps a plus sign; and the
encoder writes the kept plus sign as an escape, so that it is a plus sign ever
after. Where a value with a marker has no plus sign, the first two agree, and the
rewritten query means what the original meant. Where it has one, the text around
the tokens changes.
-/

namespace OpenShell.Secrets

open L7

/-! ## Plus signs and tokens

The same tokens are found whether plus signs are read as spaces or not: neither is
a character of a marker, a key or an alias. -/

/-- Neither a plus sign nor a space. -/
def Plain (s : Bytes) : Prop := ∀ b ∈ s, b ≠ 0x2B ∧ b ≠ 0x20

theorem placeholderPrefix_plain : Plain placeholderPrefix := forall_mem_byte (by decide)

theorem providerAliasMarker_plain : Plain providerAliasMarker := forall_mem_byte (by decide)

@[simp] theorem length_plusToSpace (text : Bytes) : (plusToSpace text).length = text.length :=
  List.length_map ..

@[simp] theorem drop_plusToSpace (text : Bytes) (n : Nat) :
    (plusToSpace text).drop n = plusToSpace (text.drop n) :=
  List.map_drop.symm

@[simp] theorem take_plusToSpace (text : Bytes) (n : Nat) :
    (plusToSpace text).take n = plusToSpace (text.take n) :=
  List.map_take.symm

theorem plusToSpace_cons (b : UInt8) (text : Bytes) :
    plusToSpace (b :: text) = (if b == 0x2B then 0x20 else b) :: plusToSpace text := rfl

theorem plusToSpace_of_notMem {text : Bytes} (h : 0x2B ∉ text) : plusToSpace text = text := by
  refine (List.map_congr_left fun b hb => ?_).trans (List.map_id _)
  exact if_neg fun (heq : (b == 0x2B) = true) => h (eq_of_beq heq ▸ hb)

theorem plain_beq {c : UInt8} (hc : c ≠ 0x2B ∧ c ≠ 0x20) (b : UInt8) :
    (c == if b == 0x2B then 0x20 else b) = (c == b) := by
  by_cases hb : b = 0x2B
  · rw [hb, if_pos (beq_self_eq_true _), beq_eq_false_iff_ne.mpr hc.1, beq_eq_false_iff_ne.mpr hc.2]
  · rw [if_neg (by simpa using hb)]

theorem isPrefixOf_plusToSpace : ∀ {needle : Bytes}, Plain needle → ∀ text : Bytes,
    needle.isPrefixOf (plusToSpace text) = needle.isPrefixOf text
  | [], _, _ => rfl
  | _ :: _, _, [] => rfl
  | c :: needle, h, b :: text => by
    rw [plusToSpace_cons, List.isPrefixOf_cons_cons, List.isPrefixOf_cons_cons,
      plain_beq (h c List.mem_cons_self), isPrefixOf_plusToSpace (List.forall_mem_cons.mp h).2 text]

theorem findSub_plusToSpace {needle : Bytes} (h : Plain needle) (text : Bytes) :
    findSub needle (plusToSpace text) = findSub needle text := by
  induction text with
  | nil => rfl
  | cons b text ih =>
    have hprefix := isPrefixOf_plusToSpace h (b :: text)
    rw [plusToSpace_cons] at hprefix ⊢
    rw [findSub, findSub, hprefix, ih]

theorem containsRawReservedMarker_plusToSpace (text : Bytes) :
    containsRawReservedMarker (plusToSpace text) = containsRawReservedMarker text := by
  rw [containsRawReservedMarker, containsRawReservedMarker, containsSub, containsSub, containsSub,
    containsSub,
    findSub_plusToSpace placeholderPrefix_plain, findSub_plusToSpace providerAliasMarker_plain]

/-- A class of characters that has neither a plus sign nor a space in it. -/
theorem any_plusToSpace {p : UInt8 → Bool} (hplus : p 0x2B = false) (hspace : p 0x20 = false)
    (text : Bytes) (i : Nat) : (plusToSpace text)[i]?.any p = text[i]?.any p := by
  rw [plusToSpace, List.getElem?_map]
  cases text[i]? with
  | none => rfl
  | some b =>
    show p (if b == 0x2B then 0x20 else b) = p b
    by_cases hb : b = 0x2B
    · rw [hb, if_pos (beq_self_eq_true _), hplus, hspace]
    · rw [if_neg (by simpa using hb)]

theorem aliasChar_plusToSpace (text : Bytes) (i : Nat) :
    (plusToSpace text)[i]?.any isAliasTokenChar = text[i]?.any isAliasTokenChar :=
  any_plusToSpace (by decide) (by decide) text i

theorem aliasStartForMarker_plusToSpace (text : Bytes) :
    ∀ marker, aliasStartForMarker (plusToSpace text) marker = aliasStartForMarker text marker
  | 0 => rfl
  | marker + 1 => by
    rw [aliasStartForMarker, aliasStartForMarker, aliasChar_plusToSpace,
      aliasStartForMarker_plusToSpace text marker]

theorem envKeyEnd_plusToSpace (text : Bytes) (keyStart : Nat) :
    envKeyEnd (plusToSpace text) keyStart = envKeyEnd text keyStart := by
  have hchar : (isEnvKeyChar ∘ fun b : UInt8 => if b == 0x2B then 0x20 else b) = isEnvKeyChar := by
    funext b
    have := any_plusToSpace (p := isEnvKeyChar) (by decide) (by decide) [b] 0
    simpa [plusToSpace] using this
  unfold envKeyEnd
  rw [drop_plusToSpace, plusToSpace, List.takeWhile_map, List.length_map, hchar]

theorem aliasBeforeOk_plusToSpace (text : Bytes) (start : Nat) :
    aliasBeforeOk (plusToSpace text) start = aliasBeforeOk text start := by
  rw [aliasBeforeOk, aliasBeforeOk, aliasChar_plusToSpace]

theorem aliasAfterOk_plusToSpace (text : Bytes) (stop : Nat) :
    aliasAfterOk (plusToSpace text) stop = aliasAfterOk text stop := by
  rw [aliasAfterOk, aliasAfterOk, aliasChar_plusToSpace, length_plusToSpace]

theorem nextStart_plusToSpace (text : Bytes) (pos : Nat) :
    nextStart (plusToSpace text) pos = nextStart text pos := by
  rw [nextStart, nextStart, drop_plusToSpace, findSub_plusToSpace placeholderPrefix_plain,
    findSub_plusToSpace providerAliasMarker_plain]
  simp only [aliasStartForMarker_plusToSpace]

/-- A token, with its plus signs read as spaces. -/
def spaced (found : Nat × Bytes) : Nat × Bytes := (found.1, plusToSpace found.2)

theorem canonicalTokenAt_plusToSpace (text : Bytes) (start : Nat) :
    canonicalTokenAt (plusToSpace text) start = (canonicalTokenAt text start).map spaced := by
  unfold canonicalTokenAt
  rw [drop_plusToSpace, isPrefixOf_plusToSpace placeholderPrefix_plain]
  dsimp only
  rw [envKeyEnd_plusToSpace, take_plusToSpace]
  split
  · split <;> rfl
  · rfl

theorem aliasTokenAt_plusToSpace (text : Bytes) (start : Nat) :
    aliasTokenAt (plusToSpace text) start = (aliasTokenAt text start).map spaced := by
  unfold aliasTokenAt
  rw [drop_plusToSpace, findSub_plusToSpace providerAliasMarker_plain]
  cases findSub providerAliasMarker (text.drop start) with
  | none => rfl
  | some markerRel =>
    simp only [Option.bind_eq_bind, Option.bind_some, envKeyEnd_plusToSpace,
      aliasBeforeOk_plusToSpace, aliasAfterOk_plusToSpace, take_plusToSpace]
    split
    · rfl
    split
    · rfl
    split <;> rfl

variable {key token : Bytes}

/-- An alias has alias characters only. -/
theorem aliasChars_of_aliasEnvKey (h : aliasEnvKey token = some key) :
    ∀ b ∈ token, isAliasTokenChar b = true := by
  have hkeyChar : ∀ b, isEnvKeyChar b = true → isAliasTokenChar b = true := fun b hb => by
    unfold isEnvKeyChar at hb
    unfold isAliasTokenChar
    rw [hb]
    rfl
  have hkey := (aliasEnvKey_eq_some h).2
  unfold aliasEnvKey at h
  obtain ⟨marker, hfind, h⟩ := Option.bind_eq_some_iff.mp h
  obtain ⟨hat, -⟩ := findSub_eq_some.mp hfind
  dsimp only at h
  obtain ⟨-, h⟩ := else_of_ite h nofun
  obtain ⟨hfront, h⟩ := else_of_ite h nofun
  obtain ⟨-, ⟨⟩⟩ := then_of_ite h nofun
  -- the token is its front, the marker and the key
  obtain ⟨rest, hrest⟩ := hat
  have hdrop : token.drop (marker + providerAliasMarker.length) = rest := by
    rw [← List.drop_drop, ← hrest, List.drop_left]
  rw [← List.take_append_drop marker token, ← hrest]
  intro b hb
  rcases List.mem_append.mp hb with hb | hb
  · exact List.all_eq_true.mp (by simpa using hfront) b hb
  rcases List.mem_append.mp hb with hb | hb
  · exact providerAliasMarker_alias b hb
  · exact hkeyChar b (List.all_eq_true.mp hkey b (hdrop ▸ hb))

/-- A placeholder with a revision has no plus sign. -/
theorem plus_notMem_of_revisioned {revision : Nat}
    (h : revisionedPlaceholderParts token = some (revision, key)) : 0x2B ∉ token := by
  obtain ⟨suffix, digits, rfl, hsplit, -⟩ := revisionedPlaceholderParts_eq_some h
  obtain ⟨hdigits, -, hkey, hparts⟩ := splitIdentityEnvKey_eq_some hsplit
  obtain ⟨rest, hrest, honce⟩ := Option.bind_eq_some_iff.mp hparts
  rw [stripBytes_eq_some.mp hrest, (splitOnce_eq_some honce).1]
  intro hplus
  simp only [List.mem_append, List.mem_cons] at hplus
  rcases hplus with hplus | ((hplus | hplus) | hplus | hplus | hplus)
  · exact (placeholderPrefix_plain _ hplus).1 rfl
  · exact absurd hplus (by decide)
  · cases hplus
  · have hdigit := List.all_eq_true.mp (Bool.and_eq_true_iff.mp hdigits).2 _ hplus
    exact absurd hdigit (by decide)
  · exact absurd hplus (by decide)
  · exact absurd (List.all_eq_true.mp hkey _ hplus) (by decide)

/-- No placeholder of the resolver has a plus sign or a space in it. -/
def SecretResolver.PlainKeys (r : SecretResolver) : Prop :=
  ∀ placeholder ∈ r.byPlaceholder, Plain placeholder

variable {secret a b out : Bytes}

section Tokens
variable {r : SecretResolver} (hr : r.PlainKeys)
include hr

theorem longestKnownTokenMatch_plusToSpace (text : Bytes) (start : Nat) :
    r.longestKnownTokenMatch (plusToSpace text) start = r.longestKnownTokenMatch text start := by
  unfold SecretResolver.longestKnownTokenMatch
  congr 2
  refine List.filter_congr fun placeholder hmem => ?_
  have hplain := hr placeholder (Std.ExtTreeMap.mem_keys.mp hmem)
  unfold tokenBoundaryOk
  rw [drop_plusToSpace, drop_plusToSpace, isPrefixOf_plusToSpace hplain,
    isPrefixOf_plusToSpace placeholderPrefix_plain, length_plusToSpace,
    any_plusToSpace (p := isEnvKeyChar) (by decide) (by decide), aliasBeforeOk_plusToSpace,
    aliasAfterOk_plusToSpace]

/-- The token at a start, in a text read either way. -/
theorem tokenInText_plusToSpace (text : Bytes) (start : Nat) :
    r.tokenInText (plusToSpace text) start = (r.tokenInText text start).map spaced := by
  have hknown : (r.longestKnownTokenMatch text start).map spaced =
      r.longestKnownTokenMatch text start := by
    cases hfound : r.longestKnownTokenMatch text start with
    | none => rfl
    | some found =>
      obtain ⟨stop, token⟩ := found
      obtain ⟨hmem, -, -⟩ := SecretResolver.longestKnownTokenMatch_eq_some hfound
      have htoken := plusToSpace_of_notMem fun hplus => (hr token hmem _ hplus).1 rfl
      exact congrArg (fun token => some (stop, token)) htoken
  unfold SecretResolver.tokenInText SecretResolver.credentialTokenAt
  rw [drop_plusToSpace, isPrefixOf_plusToSpace placeholderPrefix_plain,
    longestKnownTokenMatch_plusToSpace hr, canonicalTokenAt_plusToSpace, aliasTokenAt_plusToSpace]
  split
  · cases hfound : r.longestKnownTokenMatch text start with
    | some known =>
      rw [hfound] at hknown
      exact hknown.symm
    | none =>
      cases canonicalTokenAt text start with
      | some canonical => rfl
      | none => rfl
  · rfl

variable {now : Int}

/-- A token that resolves has no plus sign. -/
theorem plus_notMem_of_resolve
    (h : r.resolvePlaceholder (ε := UnresolvedPlaceholderError) now token = .ok (some secret)) :
    0x2B ∉ token := by
  obtain ⟨entry, hentry, -⟩ := SecretResolver.resolvePlaceholder_eq_some h
  cases halias : aliasEnvKey token with
  | some key =>
    exact fun hplus => absurd (aliasChars_of_aliasEnvKey halias _ hplus) (by decide)
  | none =>
    rw [SecretResolver.normalizeAlias, halias] at hentry
    rcases orElse_eq_some hentry with hentry | hentry
    · have hmem : token ∈ r.byPlaceholder :=
        Std.ExtTreeMap.mem_iff_isSome_getElem?.mpr (by rw [hentry]; rfl)
      exact fun hplus => (hr token hmem _ hplus).1 rfl
    · obtain ⟨⟨revision, key⟩, hparts, -⟩ := Option.bind_eq_some_iff.mp hentry
      exact plus_notMem_of_revisioned hparts

/-- Tokens at one start in texts that differ in plus signs and spaces only are the
same, if they resolve. -/
theorem token_eq_of_resolve {token' secret' : Bytes} {start stop stop' : Nat}
    (hab : plusToSpace a = plusToSpace b)
    (htoken : r.tokenInText a start = some (stop, token))
    (htoken' : r.tokenInText b start = some (stop', token'))
    (h : r.resolvePlaceholder (ε := UnresolvedPlaceholderError) now token = .ok (some secret))
    (h' : r.resolvePlaceholder (ε := UnresolvedPlaceholderError) now token' = .ok (some secret')) :
    stop = stop' ∧ token = token' := by
  have hspaced := tokenInText_plusToSpace hr a start
  rw [hab, tokenInText_plusToSpace hr b start, htoken, htoken'] at hspaced
  obtain ⟨hstop, heq⟩ := Prod.mk.inj (Option.some.inj hspaced)
  rw [plusToSpace_of_notMem (plus_notMem_of_resolve hr h),
    plusToSpace_of_notMem (plus_notMem_of_resolve hr h')]
    at heq
  exact ⟨hstop.symm, heq.symm⟩

/-- Two readings of a value that are rewritten to one text are one. -/
theorem eq_of_rewrite_eq {location : String} {n n' : Nat}
    (hab : plusToSpace a = plusToSpace b)
    (ha : r.rewriteTextPlaceholdersAtLocation now a location = .ok (out, n))
    (hb : r.rewriteTextPlaceholdersAtLocation now b location = .ok (out, n')) : a = b := by
  have hlen : a.length = b.length := by rw [← length_plusToSpace a, hab, length_plusToSpace]
  obtain ⟨spans, hrun, houta, -⟩ := SecretResolver.exists_run_of_rewrite ha
  obtain ⟨spans', hrun', houtb, -⟩ := SecretResolver.exists_run_of_rewrite hb
  have hsame : spans = spans' := by
    refine Scanner.eq_of_aligned
      (hrun.aligned hrun' hlen (fun pos => ?_)
        fun {start stop stop' value value'} hread hread' => ?_)
    · show nextStart a pos = nextStart b pos
      rw [← nextStart_plusToSpace a, hab, nextStart_plusToSpace]
    · obtain ⟨token, htoken, hresolve⟩ := SecretResolver.textToken_eq_ok hread
      obtain ⟨token', htoken', hresolve'⟩ := SecretResolver.textToken_eq_ok hread'
      obtain ⟨hstop, rfl⟩ := token_eq_of_resolve hr hab htoken htoken' hresolve hresolve'
      exact ⟨hstop, Option.some.inj (Except.ok.inj (hresolve.symm.trans hresolve'))⟩
  subst hsame
  have htiled := hrun.tiled_of_read fun _ hread => by
    obtain ⟨token, htoken, -⟩ := SecretResolver.textToken_eq_ok hread
    have hbounds := (SecretResolver.tokenInText_read htoken).1
    exact ⟨hbounds.lt, hbounds.le⟩
  have hdrop :=
    Scanner.drop_eq_of_splice_eq hlen htiled (fun span hspan => ?_) (houta.symm.trans houtb)
  · exact hdrop
  · obtain ⟨_, -, hread⟩ := hrun.exists_of_mem hspan
    obtain ⟨_, -, hread'⟩ := hrun'.exists_of_mem hspan
    obtain ⟨token, htoken, hresolve⟩ := SecretResolver.textToken_eq_ok hread
    obtain ⟨token', htoken', hresolve'⟩ := SecretResolver.textToken_eq_ok hread'
    obtain ⟨-, rfl⟩ := token_eq_of_resolve hr hab htoken htoken' hresolve hresolve'
    rw [← (SecretResolver.tokenInText_read htoken).1.eq,
      ← (SecretResolver.tokenInText_read htoken').1.eq]

end Tokens

/-! ## Decoding -/

theorem hexDigit_ne_plus {high low value : UInt8} (h : hexPair high low = some value) :
    high ≠ 0x2B ∧ low ≠ 0x2B := by
  obtain ⟨hhigh, hlow⟩ := hexDigit_of_hexPair h
  constructor
  · rintro rfl
    exact absurd hhigh (by decide)
  · rintro rfl
    exact absurd hlow (by decide)

/-- The two decoders agree but for plus signs, and agree where there is none. -/
theorem percentDecodeBytes_of_decodeQuery : ∀ {s out : Bytes}, decodeQueryBytes s = some out →
    plusToSpace (percentDecodeBytes s) = plusToSpace out ∧ (percentDecodeBytes s = out ↔ 0x2B ∉ s)
  | [], out, h => by
    obtain rfl : [] = out := Option.some.inj h
    exact ⟨rfl, iff_of_true rfl List.not_mem_nil⟩
  | b :: rest, out, h => by
    rcases decodeQueryBytes_cases h with ⟨rfl, out', hout', rfl⟩ | ⟨hplus, hpercent, out',
      hout', rfl⟩ |
      ⟨rfl, high, low, tail, value, out', rfl, hvalue, hout', rfl⟩
    · obtain ⟨hspace, -⟩ := percentDecodeBytes_of_decodeQuery hout'
      rw [percentDecodeBytes_cons_of_ne (by decide)]
      refine ⟨congrArg (0x20 :: ·) hspace, iff_of_false (fun heq => ?_) fun hno =>
        hno List.mem_cons_self⟩
      exact absurd (List.cons.inj heq).1 (by decide)
    · obtain ⟨hspace, hiff⟩ := percentDecodeBytes_of_decodeQuery hout'
      rw [percentDecodeBytes_cons_of_ne hpercent, plusToSpace_cons, plusToSpace_cons, hspace]
      refine ⟨rfl, ?_⟩
      rw [List.cons_inj_right, hiff, List.mem_cons, not_or]
      exact (and_iff_right (Ne.symm hplus)).symm
    · obtain ⟨hspace, hiff⟩ := percentDecodeBytes_of_decodeQuery hout'
      obtain ⟨hhigh, hlow⟩ := hexDigit_ne_plus hvalue
      rw [percentDecodeBytes_escape tail hvalue, plusToSpace_cons, plusToSpace_cons, hspace]
      refine ⟨rfl, ?_⟩
      rw [List.cons_inj_right, hiff]
      simp [Ne.symm hhigh, Ne.symm hlow]

/-- A name is read the same way by both. -/
theorem percentDecodeBytes_plusToSpace : ∀ {s out : Bytes}, decodeQueryBytes s = some out →
    percentDecodeBytes (plusToSpace s) = out
  | [], out, h => Option.some.inj h
  | b :: rest, out, h => by
    rw [plusToSpace_cons]
    rcases decodeQueryBytes_cases h with ⟨rfl, out', hout', rfl⟩ | ⟨hplus, hpercent, out',
      hout', rfl⟩ |
      ⟨rfl, high, low, tail, value, out', rfl, hvalue, hout', rfl⟩
    · rw [if_pos (beq_self_eq_true _), percentDecodeBytes_cons_of_ne (by decide),
        percentDecodeBytes_plusToSpace hout']
    · rw [if_neg (by simpa using hplus), percentDecodeBytes_cons_of_ne hpercent,
        percentDecodeBytes_plusToSpace hout']
    · obtain ⟨hhigh, hlow⟩ := hexDigit_ne_plus hvalue
      rw [if_neg (by decide), plusToSpace_cons, plusToSpace_cons, if_neg (by simpa using hhigh),
        if_neg (by simpa using hlow), percentDecodeBytes_escape _ hvalue,
        percentDecodeBytes_plusToSpace hout']

set_option maxRecDepth 8000 in
/-- An encoded value is read back by the policy. -/
theorem decodeQueryBytes_percentEncode (input : Bytes) :
    decodeQueryBytes (percentEncodeQuery input) = some input := by
  have hpair : ∀ b : UInt8, hexPair (upperHexDigit (b / 16)) (upperHexDigit (b % 16)) = some b :=
    forall_byte (by decide)
  induction input with
  | nil => rfl
  | cons b input ih =>
    show decodeQueryBytes
        ((if isUnreserved b then [b] else percentEncodeByte b) ++ percentEncodeQuery input) = _
    split
    next hb =>
      have hplus : b ≠ 0x2B := by
        rintro rfl
        exact absurd hb (by decide)
      have hpercent : b ≠ 0x25 := by
        rintro rfl
        exact absurd hb (by decide)
      rw [List.singleton_append, decodeQueryBytes_literal hplus hpercent, ih]
      rfl
    next =>
      show decodeQueryBytes
          (0x25 :: upperHexDigit (b / 16) :: upperHexDigit (b % 16) :: percentEncodeQuery input) = _
      rw [decodeQueryBytes_escape, hpair, Option.bind_some, ih]
      rfl

theorem isUtf8_append_plusToSpace (text before : Bytes) :
    isUtf8 (before ++ plusToSpace text) = isUtf8 (before ++ text) := by
  induction text generalizing before with
  | nil => rfl
  | cons b text ih =>
    rw [plusToSpace_cons]
    by_cases hb : b = 0x2B
    · rw [hb, if_pos (beq_self_eq_true _), isUtf8_append_ascii (by decide),
        isUtf8_append_ascii (by decide)]
      exact congrArg (isUtf8 before && ·) (ih [])
    · rw [if_neg (by simpa using hb), List.append_cons, ih, ← List.append_cons]

theorem isUtf8_eq_of_plusToSpace (h : plusToSpace a = plusToSpace b) : isUtf8 a = isUtf8 b := by
  have ha := isUtf8_append_plusToSpace a []
  rw [List.nil_append, h] at ha
  exact ha.symm.trans (isUtf8_append_plusToSpace b [])

theorem decodeQueryComponent_eq_ok {input : Bytes} :
    decodeQueryComponent input = .ok out ↔
      decodeQueryBytes input = some out ∧ isUtf8 out = true := by
  unfold decodeQueryComponent
  cases decodeQueryBytes input with
  | none => simp
  | some decoded =>
    dsimp only
    split
    next hutf8 =>
      constructor
      · intro h
        cases h
        exact ⟨rfl, hutf8⟩
      · rintro ⟨h, -⟩
        rw [Option.some.inj h]
    next hutf8 =>
      refine iff_of_false nofun fun h => hutf8 ?_
      rw [Option.some.inj h.1]
      exact h.2

/-! ## What is kept -/

/-- The value of a parameter has a marker, as the rewrite decodes it. -/
def markedParam (param : Bytes) : Bool :=
  (splitOnce 0x3D param).any fun entry => containsRawReservedMarker (percentDecode entry.2)

/-- A value of the policy's view, and what stands for it after the rewrite: itself, or,
with a marker, itself with its tokens replaced. -/
def ValueKept (r : SecretResolver) (now : Int) (key value value' : Bytes) : Prop :=
  if containsRawReservedMarker value = true then
    ∃ replacements,
      (r.withRequestLocation (.queryParam key)).rewriteTextPlaceholdersAtLocation now value
      "query_param" = .ok (value', replacements)
  else value' = value

/-- The same names, and for each its values in order. -/
def ParamsKept (r : SecretResolver) (now : Int) (params params' : QueryParams) : Prop :=
  (∀ key, key ∈ params' ↔ key ∈ params) ∧
    ∀ key : Bytes, List.Forall₂ (ValueKept r now key) (params[key]?.getD []) (params'[key]?.getD [])

/-- The rewritten query is read as the original one was, and its parameters without a
marker are the original ones. -/
def QueryKept (r : SecretResolver) (now : Int) (query : Bytes) (params : QueryParams)
    (query' : Bytes) : Prop :=
  (∃ params', parseQueryParams query' = .ok params' ∧ ParamsKept r now params params') ∧
    List.Forall₂ (fun param param' => markedParam param = false → param' = param)
    (query.splitOn 0x26)
      (query'.splitOn 0x26)

/-- No plus sign stands in a value with a marker. -/
def PlusFree (param : Bytes) : Prop :=
  markedParam param = true → ∀ key value, splitOnce 0x3D param = some (key, value) → 0x2B ∉ value

/-! ## One parameter -/

section Param
variable {r : SecretResolver} {now : Int} {param key value : Bytes} {part : Part}

variable (h : rewriteUriParam r now param = .ok part)
include h

theorem rewriteUriParam_unmarked (hmarked : markedParam param = false) :
    part.resolved = param := by
  unfold rewriteUriParam at h
  unfold markedParam at hmarked
  cases hsplit : splitOnce 0x3D param with
  | none =>
    rw [hsplit] at h
    exact (Except.ok.inj h) ▸ rfl
  | some entry =>
    obtain ⟨rawKey, rawValue⟩ := entry
    rw [hsplit] at h hmarked
    dsimp only at h
    rw [if_neg (by simpa using hmarked)] at h
    exact (Except.ok.inj h) ▸ rfl

/-- A marked value is rewritten in the place its name says, and written encoded. -/
theorem rewriteUriParam_marked (hmarked : markedParam param = true) :
    ∃ rawKey rawValue out, splitOnce 0x3D param = some (rawKey, rawValue) ∧
      (r.withRequestLocation
        (.queryParam (percentDecode (plusToSpace rawKey)))).rewriteTextPlaceholdersAtLocation
        now (percentDecode rawValue) "query_param" = .ok out ∧
      part.resolved = rawKey ++ 0x3D :: percentEncodeQuery out.1 := by
  unfold markedParam at hmarked
  obtain ⟨⟨rawKey, rawValue⟩, hsplit, hmarker⟩ := (Option.any_eq_true _ _).mp hmarked
  unfold rewriteUriParam at h
  rw [hsplit] at h
  dsimp only at h hmarker
  rw [if_pos hmarker] at h
  obtain ⟨out, hout, h⟩ := bind_eq_ok h
  obtain ⟨-, ⟨⟩⟩ := else_of_ite h nofun
  exact ⟨rawKey, rawValue, out, hsplit, hout, by simp⟩

omit h in
/-- The policy reads the encoded value as it was rewritten. -/
theorem decodePair_marked (hr : r.TextSecrets) (h : rewriteUriParam r now param = .ok part)
    (hmarked : markedParam param = true) (hpair : decodePair param = .ok (key, value)) :
    ∃ rawKey rawValue out, splitOnce 0x3D param = some (rawKey, rawValue) ∧
      decodeQueryBytes rawValue = some value ∧
      (r.withRequestLocation (.queryParam key)).rewriteTextPlaceholdersAtLocation now
        (percentDecodeBytes rawValue)
        "query_param" = .ok out ∧ decodePair part.resolved = .ok (key, out.1) := by
  obtain ⟨rawKey, rawValue, out, hsplit, hout, hresolved⟩ := rewriteUriParam_marked h hmarked
  obtain ⟨hkey, hvalue⟩ := (decodePair_of_split hsplit).mp hpair
  obtain ⟨hkeyBytes, hkeyUtf8⟩ := decodeQueryComponent_eq_ok.mp hkey
  obtain ⟨hvalueBytes, hvalueUtf8⟩ := decodeQueryComponent_eq_ok.mp hvalue
  have hutf8 : isUtf8 (percentDecodeBytes rawValue) = true :=
    (isUtf8_eq_of_plusToSpace (percentDecodeBytes_of_decodeQuery hvalueBytes).1).trans hvalueUtf8
  have hdecodedKey : percentDecode (plusToSpace rawKey) = key := by
    rw [percentDecode, percentDecodeBytes_plusToSpace hkeyBytes, fromUtf8Lossy_of_isUtf8 hkeyUtf8]
  have hdecodedValue : percentDecode rawValue = percentDecodeBytes rawValue :=
    fromUtf8Lossy_of_isUtf8 hutf8
  rw [hdecodedKey, hdecodedValue] at hout
  have houtUtf8 : isUtf8 out.1 = true :=
    rewriteText_isUtf8 (r := r.withRequestLocation (.queryParam key)) hr hutf8 hout
  have hencoded : decodeQueryComponent (percentEncodeQuery out.1) = .ok out.1 :=
    decodeQueryComponent_eq_ok.mpr ⟨decodeQueryBytes_percentEncode out.1, houtUtf8⟩
  refine ⟨rawKey, rawValue, out, hsplit, hvalueBytes, hout, ?_⟩
  rw [hresolved]
  exact (decodePair_of_split (splitOnce_append _ (splitOnce_eq_some hsplit).2)).mpr ⟨hkey, hencoded⟩

omit h in
/-- The policy sees a marker in a value exactly when the rewrite does. -/
theorem containsRawReservedMarker_of_decodePair (hpair : decodePair param = .ok (key, value)) :
    containsRawReservedMarker value = markedParam param := by
  unfold markedParam
  cases hsplit : splitOnce 0x3D param with
  | none =>
    unfold decodePair at hpair
    rw [hsplit] at hpair
    obtain ⟨key', -, hpair⟩ := bind_eq_ok hpair
    obtain ⟨value', hvalue, hpair⟩ := bind_eq_ok hpair
    obtain ⟨-, rfl⟩ := ok_pair_inj hpair
    obtain rfl : [] = value' := Except.ok.inj hvalue
    rfl
  | some entry =>
    obtain ⟨rawKey, rawValue⟩ := entry
    obtain ⟨-, hvalue⟩ := (decodePair_of_split hsplit).mp hpair
    obtain ⟨hbytes, hutf8⟩ := decodeQueryComponent_eq_ok.mp hvalue
    have hspace := (percentDecodeBytes_of_decodeQuery hbytes).1
    have hdecoded : percentDecode rawValue = percentDecodeBytes rawValue :=
      fromUtf8Lossy_of_isUtf8 ((isUtf8_eq_of_plusToSpace hspace).trans hutf8)
    show containsRawReservedMarker value = containsRawReservedMarker (percentDecode rawValue)
    rw [hdecoded, ← containsRawReservedMarker_plusToSpace value, ← hspace,
      containsRawReservedMarker_plusToSpace]

omit h in
theorem param_kept (hr : r.TextSecrets) (h : rewriteUriParam r now param = .ok part)
    (hpair : decodePair param = .ok (key, value)) :
    ∃ value', decodePair part.resolved = .ok (key, value') ∧
      (PlusFree param → ValueKept r now key value value') ∧
      (r.PlainKeys → ValueKept r now key value value' → PlusFree param) := by
  have hmarker := containsRawReservedMarker_of_decodePair hpair
  unfold ValueKept
  rw [hmarker]
  by_cases hmarked : markedParam param = true
  · obtain ⟨rawKey, rawValue, ⟨out, replacements⟩, hsplit, hbytes, hout, hpair'⟩ :=
      decodePair_marked hr h hmarked hpair
    obtain ⟨hspace, hplus⟩ := percentDecodeBytes_of_decodeQuery hbytes
    refine ⟨out, hpair', fun hfree => ?_, fun hplain hkept => ?_⟩
    · rw [if_pos hmarked, ← hplus.mpr (hfree hmarked rawKey rawValue hsplit)]
      exact ⟨replacements, hout⟩
    · rw [if_pos hmarked] at hkept
      obtain ⟨replacements', hkept⟩ := hkept
      have heq :=
        eq_of_rewrite_eq (r := r.withRequestLocation (.queryParam key)) hplain hspace hout hkept
      intro _ key' value' hsplit'
      cases Option.mem_unique hsplit hsplit'
      exact hplus.mp heq
  · refine ⟨value, ?_, fun _ => ?_, fun _ _ hmarked' => absurd hmarked' hmarked⟩
    · rw [rewriteUriParam_unmarked h (Bool.eq_false_iff.mpr hmarked), hpair]
    · rw [if_neg hmarked]

/-- A rewritten parameter is empty only if the original one was. -/
theorem isEmpty_resolved :
    part.resolved.isEmpty = param.isEmpty := by
  by_cases hmarked : markedParam param = true
  · obtain ⟨rawKey, rawValue, out, hsplit, -, hresolved⟩ := rewriteUriParam_marked h hmarked
    rw [hresolved, (splitOnce_eq_some hsplit).1]
    cases rawKey <;> rfl
  · rw [rewriteUriParam_unmarked h (Bool.eq_false_iff.mpr hmarked)]

theorem ampersand_notMem_resolved (hparam : 0x26 ∉ param) :
    0x26 ∉ part.resolved := by
  by_cases hmarked : markedParam param = true
  · obtain ⟨rawKey, rawValue, out, hsplit, -, hresolved⟩ := rewriteUriParam_marked h hmarked
    have hvalue : 0x26 ∉ percentEncodeQuery out.1 :=
      notMem_percentEncode (by decide) (by decide) out.1
    rw [(splitOnce_eq_some hsplit).1] at hparam
    rw [hresolved]
    intro hmem
    rcases List.mem_append.mp hmem with hmem | hmem
    · exact hparam (List.mem_append_left _ hmem)
    rcases List.mem_cons.mp hmem with hmem | hmem
    · exact absurd hmem (by decide)
    · exact hvalue hmem
  · rwa [rewriteUriParam_unmarked h (Bool.eq_false_iff.mpr hmarked)]

end Param

/-! ## The query -/

section Query
variable {r : SecretResolver} {now : Int}

/-- The pairs of the rewritten query, next to those of the original one. -/
theorem entries_kept (hr : r.TextSecrets) {params : List Bytes} {parts : List Part}
    (hall : List.Forall₂ (fun param part => rewriteUriParam r now param = .ok part) params parts) :
    ∀ {entries : List (Bytes × Bytes)},
      (params.filter fun param => !param.isEmpty).mapM decodePair = .ok entries →
      ∃ entries', ((parts.map (·.resolved)).filter fun param => !param.isEmpty).mapM decodePair =
        .ok entries' ∧ List.Forall₂ (fun entry entry' => entry.1 = entry'.1) entries entries' ∧
        ((∀ param ∈ params, PlusFree param) →
          List.Forall₂ (fun entry entry' => ValueKept r now entry.1 entry.2 entry'.2)
            entries entries') ∧
        (r.PlainKeys → List.Forall₂ (fun entry entry' => ValueKept r now entry.1 entry.2 entry'.2)
          entries entries' → ∀ param ∈ params, PlusFree param) := by
  induction hall with
  | nil =>
    intro entries h
    obtain rfl : [] = entries := Except.ok.inj h
    exact ⟨[], rfl, .nil, fun _ => .nil, fun _ _ => by simp⟩
  | @cons param part params parts hparam hall ih =>
    intro entries h
    by_cases hempty : param.isEmpty = true
    · -- an empty pair is skipped, here and there
      have hresolved := (isEmpty_resolved hparam).trans hempty
      rw [List.filter_cons_of_neg (by simp [hempty])] at h
      obtain ⟨entries', hentries', hkeys, hfree, hplain⟩ := ih h
      have hnil : param = [] := List.isEmpty_iff.mp hempty
      have hfreeHere : PlusFree param := fun hmarked => by rw [hnil] at hmarked; cases hmarked
      refine ⟨entries', ?_, hkeys, fun hall => hfree (List.forall_mem_cons.mp hall).2,
        fun hk hkept => ?_⟩
      · rw [List.map_cons, List.filter_cons_of_neg (by simp [hresolved]), hentries']
      · exact List.forall_mem_cons.mpr ⟨hfreeHere, hplain hk hkept⟩
    · have hresolved : part.resolved.isEmpty = false :=
        (isEmpty_resolved hparam).trans (Bool.eq_false_iff.mpr hempty)
      rw [List.filter_cons_of_pos (by simp [hempty]), List.mapM_cons] at h
      obtain ⟨⟨key, value⟩, hpair, h⟩ := bind_eq_ok h
      obtain ⟨rest, hrest, h⟩ := bind_eq_ok h
      obtain rfl : (key, value) :: rest = entries := Except.ok.inj h
      obtain ⟨entries', hentries', hkeys, hfree, hplain⟩ := ih hrest
      obtain ⟨value', hpair', hfreeHere, hplainHere⟩ := param_kept hr hparam hpair
      refine ⟨(key, value') :: entries', ?_, .cons rfl hkeys, fun hall => ?_, fun hk hkept => ?_⟩
      · rw [List.map_cons, List.filter_cons_of_pos (by simp [hresolved]), List.mapM_cons,
          hpair', hentries']
        rfl
      · obtain ⟨hhere, hrest⟩ := List.forall_mem_cons.mp hall
        exact .cons (hfreeHere hhere) (hfree hrest)
      · obtain ⟨hhere, hrest⟩ := List.forall₂_cons.mp hkept
        exact List.forall_mem_cons.mpr ⟨hplainHere hk hhere, hplain hk hrest⟩

variable {entries entries' : List (Bytes × Bytes)}

/-- Pairs with the same names, grouped by name. -/
theorem forall₂_valuesOf_iff {R : Bytes → Bytes → Bytes → Prop}
    (hkeys : List.Forall₂ (fun entry entry' => entry.1 = entry'.1) entries entries') :
    (∀ key, List.Forall₂ (R key) (valuesOf key entries) (valuesOf key entries')) ↔
      List.Forall₂ (fun entry entry' => R entry.1 entry.2 entry'.2) entries entries' := by
  induction hkeys with
  | nil => simp [valuesOf]
  | @cons entry entry' entries entries' hkey _ ih =>
    have hcons : ∀ key, List.Forall₂ (R key) (valuesOf key (entry :: entries))
        (valuesOf key (entry' :: entries')) ↔
        (entry.1 = key → R key entry.2 entry'.2) ∧ List.Forall₂ (R key) (valuesOf key entries)
        (valuesOf key entries') := by
      intro key
      rw [valuesOf_cons, valuesOf_cons, ← hkey]
      by_cases h : entry.1 = key <;> simp [h]
    simp only [hcons, forall_and, forall_eq', ih, List.forall₂_cons]

theorem paramsKept_iff {query query' : Bytes} {params params' : QueryParams}
    (hquery : parseQueryParams query = .ok params) (hquery' : parseQueryParams query' = .ok params')
    (hentries : queryEntries query = .ok entries) (hentries' : queryEntries query' = .ok entries')
    (hkeys : List.Forall₂ (fun entry entry' => entry.1 = entry'.1) entries entries') :
    ParamsKept r now params params' ↔
      List.Forall₂ (fun entry entry' => ValueKept r now entry.1 entry.2 entry'.2)
        entries entries' := by
  obtain ⟨found, hfound, hparams⟩ := parseQueryParams_eq_ok hquery
  cases hentries.symm.trans hfound
  obtain ⟨found', hfound', hparams'⟩ := parseQueryParams_eq_ok hquery'
  cases hentries'.symm.trans hfound'
  -- both maps have the names of their pairs, and these are the same
  have hlength : ∀ key, (valuesOf key entries).length = (valuesOf key entries').length := fun key =>
    ((forall₂_valuesOf_iff (R := fun _ _ _ => True) hkeys).mpr (hkeys.imp fun _ _ _ => trivial)
      key).length_eq
  have hvalues : ∀ key, params[key]?.getD [] = valuesOf key entries := fun key => by
    rw [hparams key]
    split
    next hnil => exact hnil.symm
    next => rfl
  have hvalues' : ∀ key, params'[key]?.getD [] = valuesOf key entries' := fun key => by
    rw [hparams' key]
    split
    next hnil => exact hnil.symm
    next => rfl
  have hmem : ∀ key, key ∈ params' ↔ key ∈ params := fun key => by
    have hnil : valuesOf key entries' = [] ↔ valuesOf key entries = [] := by
      rw [← List.length_eq_zero_iff, ← hlength key, List.length_eq_zero_iff]
    rw [Std.ExtTreeMap.mem_iff_isSome_getElem?, Std.ExtTreeMap.mem_iff_isSome_getElem?,
      hparams, hparams']
    by_cases h : valuesOf key entries = []
    · rw [if_pos h, if_pos (hnil.mpr h)]
    · rw [if_neg h, if_neg (mt hnil.mp h)]
      rfl
  unfold ParamsKept
  rw [← forall₂_valuesOf_iff hkeys, and_iff_right hmem]
  simp only [hvalues, hvalues']

/-- The rewritten query is read as the original one was if no value with a marker has a plus sign,
and, for a resolver whose placeholders have neither a plus sign nor a space, only then. -/
theorem queryKept_iff (hr : r.TextSecrets) {query : Bytes} {params : QueryParams}
    {out : Bytes × Bytes} (hquery : parseQueryParams query = .ok params)
    (h : rewriteUriQueryParams query r now = .ok (some out)) :
    ((∀ param ∈ query.splitOn 0x26, PlusFree param) → QueryKept r now query params out.1) ∧
      (r.PlainKeys → QueryKept r now query params out.1 →
        ∀ param ∈ query.splitOn 0x26, PlusFree param) := by
  unfold rewriteUriQueryParams at h
  obtain ⟨-, h⟩ := else_of_ite h nofun
  obtain ⟨parts, hparts, h⟩ := bind_eq_ok h
  have hjoin := Except.ok.inj h
  unfold joinParts at hjoin
  obtain ⟨-, ⟨⟩⟩ := then_of_ite hjoin nofun
  have hall := mapM_eq_ok hparts
  have hsplit := splitOn_intercalate_resolved hparts fun _ _ => ampersand_notMem_resolved
  obtain ⟨entries, hentries, -⟩ := parseQueryParams_eq_ok hquery
  obtain ⟨entries', hentries', hkeys, hfree, hplain⟩ := entries_kept hr hall hentries
  have hentries'' : queryEntries ([0x26].intercalate (parts.map (·.resolved))) = .ok entries' := by
    unfold queryEntries
    rw [hsplit, hentries']
  obtain ⟨params', hquery'⟩ := exists_parseQueryParams hentries''
  have hiff : ParamsKept r now params params' ↔ _ :=
    paramsKept_iff hquery hquery' hentries hentries'' hkeys
  have hsame : List.Forall₂ (fun param param' => markedParam param = false → param' = param)
      (query.splitOn 0x26) (parts.map (·.resolved)) :=
    List.forall₂_map_right_iff.mpr
      (hall.imp fun _ _ hpart hmarked => rewriteUriParam_unmarked hpart hmarked)
  unfold QueryKept
  rw [hsplit]
  constructor
  · exact fun hall => ⟨⟨params', hquery', hiff.mpr (hfree hall)⟩, hsame⟩
  · rintro hk ⟨⟨params'', hquery'', hkept⟩, -⟩
    cases hquery'.symm.trans hquery''
    exact hplain hk (hiff.mp hkept)

end Query

theorem keyResolver_textSecrets (hsecret : isUtf8 secret = true) :
    (keyResolver secret).TextSecrets := fun _ _ h => (keyIssued_getElem? h).2 ▸ hsecret

theorem keyResolver_plainKeys (secret : Bytes) : (keyResolver secret).PlainKeys := by
  intro placeholder h
  obtain ⟨entry, hentry⟩ :=
    Option.isSome_iff_exists.mp (Std.ExtTreeMap.mem_iff_isSome_getElem?.mp h)
  rw [(keyIssued_getElem? hentry).1]
  exact forall_mem_byte (by decide)

theorem queryKept_iff_token :
    ∃ params out, parseQueryParams (utf8Bytes "token=openshell:resolve:env:KEY") = .ok params ∧
      rewriteUriQueryParams (utf8Bytes "token=openshell:resolve:env:KEY")
        (keyResolver (utf8Bytes "a&b")) 0 = .ok (some out) ∧
      (QueryKept (keyResolver (utf8Bytes "a&b")) 0 (utf8Bytes "token=openshell:resolve:env:KEY")
        params out.1 ↔
        ∀ param ∈ (utf8Bytes "token=openshell:resolve:env:KEY").splitOn 0x26, PlusFree param) := by
  have hentries : queryEntries (utf8Bytes "token=openshell:resolve:env:KEY") =
      .ok [(utf8Bytes "token", utf8Bytes "openshell:resolve:env:KEY")] := by decide +kernel
  obtain ⟨params, hparams⟩ := exists_parseQueryParams hentries
  have hok : rewriteUriQueryParams (utf8Bytes "token=openshell:resolve:env:KEY")
      (keyResolver (utf8Bytes "a&b")) 0 =
      .ok (some (utf8Bytes "token=a%26b", utf8Bytes "token=[CREDENTIAL]")) := by decide
  have hiff := queryKept_iff (keyResolver_textSecrets (by decide)) hparams hok
  exact ⟨params, _, hparams, hok, hiff.2 (keyResolver_plainKeys _), hiff.1⟩

/-- A plus sign before a placeholder: the policy reads a space. -/
def plusQuery : Bytes := utf8Bytes "token=a+openshell:resolve:env:KEY"

theorem not_queryKept_plusQuery :
    ∃ params out, parseQueryParams plusQuery = .ok params ∧
      rewriteUriQueryParams plusQuery (keyResolver (utf8Bytes "s")) 0 = .ok (some out) ∧
      ¬ QueryKept (keyResolver (utf8Bytes "s")) 0 plusQuery params out.1 := by
  have hentries : queryEntries plusQuery = .ok
      [(utf8Bytes "token", utf8Bytes "a openshell:resolve:env:KEY")] := by
    decide +kernel
  have hok : rewriteUriQueryParams plusQuery (keyResolver (utf8Bytes "s")) 0 =
      .ok (some (utf8Bytes "token=a%2Bs", utf8Bytes "token=[CREDENTIAL]")) := by decide
  have hentries' : queryEntries (utf8Bytes "token=a%2Bs") = .ok
      [(utf8Bytes "token", utf8Bytes "a+s")] := by
    decide +kernel
  obtain ⟨params, hparams⟩ := exists_parseQueryParams hentries
  refine ⟨params, _, hparams, hok, ?_⟩
  rintro ⟨⟨params', hparams', hkept⟩, -⟩
  rw [paramsKept_iff hparams hparams' hentries hentries' (.cons rfl .nil)] at hkept
  -- the value the policy read is rewritten to one with the space kept
  have hvalue := (List.forall₂_cons.mp hkept).1
  unfold ValueKept at hvalue
  rw [if_pos (by decide)] at hvalue
  obtain ⟨replacements, hvalue⟩ := hvalue
  have hread : (((keyResolver (utf8Bytes "s")).withRequestLocation
      (.queryParam (utf8Bytes "token"))).rewriteTextPlaceholdersAtLocation 0
    (utf8Bytes "a openshell:resolve:env:KEY")
      "query_param").toOption.map (·.1) = some (utf8Bytes "a s") := by decide
  rw [hvalue] at hread
  have hsame : utf8Bytes "a+s" = utf8Bytes "a s" := Option.some.inj hread
  exact absurd hsame (by decide)

end OpenShell.Secrets
