import Mathlib
import OpenShell.Secrets.PolicyView

/-!
# Credentials in a path

A segment with a placeholder is decoded, its tokens are replaced, and the result is
encoded again. Encoding is undone by decoding (`percentDecode_percentEncode`), and
what it writes has no slash, so the path keeps its segments. Secrets are checked one
at a time, and what they make together with the text around them is not checked: a
segment of one or two dots may come out.
-/

namespace OpenShell.Secrets

/-! ## Encoding -/

set_option maxRecDepth 8000 in
/-- An encoded byte is read back. -/
theorem percentDecodeBytes_encodeByte (b : UInt8) (rest : Bytes) :
    percentDecodeBytes (percentEncodeByte b ++ rest) = b :: percentDecodeBytes rest := by
  have hpair : ∀ b : UInt8,
      fromHexPair (upperHexDigit (b / 16)) (upperHexDigit (b % 16)) = some b :=
    forall_byte (by decide)
  show percentDecodeBytes (0x25 :: upperHexDigit (b / 16) :: upperHexDigit (b % 16) :: rest) = _
  rw [percentDecodeBytes, if_pos (beq_self_eq_true _), hpair]

theorem percentDecodeBytes_percentEncode (keep : UInt8 → Bool) (hkeep : keep 0x25 = false)
    (input : Bytes) :
    percentDecodeBytes (percentEncode keep input) = input := by
  induction input with
  | nil => rfl
  | cons b input ih =>
    show percentDecodeBytes
        ((if keep b then [b] else percentEncodeByte b) ++ percentEncode keep input) = _
    split
    next hb =>
      have hne : b ≠ 0x25 := by
        rintro rfl
        exact absurd hb (by simp [hkeep])
      rw [List.singleton_append, percentDecodeBytes_cons_of_ne hne, ih]
    next => rw [percentDecodeBytes_encodeByte, ih]

variable {keep : UInt8 → Bool}

/-- Encoding is undone by decoding. -/
theorem percentDecode_percentEncode (hkeep : keep 0x25 = false) {input : Bytes}
    (hinput : isUtf8 input = true) : percentDecode (percentEncode keep input) = input := by
  rw [percentDecode, percentDecodeBytes_percentEncode keep hkeep, fromUtf8Lossy_of_isUtf8 hinput]

set_option maxRecDepth 8000 in
/-- A byte that is neither kept nor written by an escape is not in the output. -/
theorem notMem_percentEncode {c : UInt8} (hkeep : keep c = false)
    (hescape : c ≠ 0x25 ∧ isAsciiHexdigit c = false) (input : Bytes) :
    c ∉ percentEncode keep input := by
  have hdigits : ∀ b, ((percentEncodeByte b).all fun c => c == 0x25 || isAsciiHexdigit c) = true :=
    forall_byte (by decide)
  intro hc
  obtain ⟨b, -, hc⟩ := List.mem_flatMap.mp hc
  split at hc
  next hb =>
    obtain rfl := List.mem_singleton.mp hc
    exact absurd hb (by simp [hkeep])
  next =>
    have hdigit := List.all_eq_true.mp (hdigits b) c hc
    simp [hescape.1, hescape.2] at hdigit

/-- Path characters and escapes only (`pchar` of RFC 3986). -/
def isPathText : Bytes → Bool
  | [] => true
  | [b] => isPathChar b
  | [b, c] => isPathChar b && isPathChar c
  | b :: high :: low :: rest =>
    if b == 0x25 then isAsciiHexdigit high && isAsciiHexdigit low && isPathText rest
    else isPathChar b && isPathText (high :: low :: rest)

variable {b : UInt8}

theorem isPathText_cons_of_ne (h : b ≠ 0x25) (rest : Bytes) :
    isPathText (b :: rest) = (isPathChar b && isPathText rest) := by
  match rest with
  | [] => simp [isPathText]
  | [_] => rfl
  | _ :: _ :: _ => rw [isPathText, if_neg (by simpa using h)]

set_option maxRecDepth 8000 in
theorem isPathText_percentEncode (input : Bytes) :
    isPathText (percentEncodePathSegment input) = true := by
  have hdigits : ∀ b : UInt8,
      (isAsciiHexdigit (upperHexDigit (b / 16)) && isAsciiHexdigit (upperHexDigit (b % 16))) =
      true :=
    forall_byte (by decide)
  induction input with
  | nil => rfl
  | cons b input ih =>
    show isPathText ((if isPathChar b then [b] else percentEncodeByte b) ++
        percentEncodePathSegment input) = true
    split
    next hb =>
      have hne : b ≠ 0x25 := by
        rintro rfl
        exact absurd hb (by decide)
      rw [List.singleton_append, isPathText_cons_of_ne hne, hb, ih]
      rfl
    next =>
      show isPathText (0x25 :: upperHexDigit (b / 16) :: upperHexDigit (b % 16) ::
          percentEncodePathSegment input) = true
      rw [isPathText, if_pos (beq_self_eq_true _), hdigits b, ih]
      rfl

/-! ## Secrets are text -/

/-- The secrets of a resolver are strings. -/
def SecretResolver.TextSecrets (r : SecretResolver) : Prop :=
  ∀ (placeholder : Bytes) (secret : SecretValue), r.byPlaceholder[placeholder]? = some secret →
    isUtf8 secret.value = true

variable {secret segment text : Bytes}

section Secrets
variable {r : SecretResolver} (hr : r.TextSecrets) {now : Int}
include hr

variable {value : Bytes}

theorem secretFor_isUtf8 {secret : SecretValue} (h : r.secretFor value = some secret) :
    isUtf8 secret.value = true := by
  rcases orElse_eq_some h with h | h
  · exact hr _ _ h
  · obtain ⟨⟨revision, key⟩, -, h⟩ := Option.bind_eq_some_iff.mp h
    dsimp only at h
    obtain ⟨-, h⟩ := else_of_ite h nofun
    exact hr _ _ h

theorem resolvePlaceholder_isUtf8 {ε : Type}
    (h : r.resolvePlaceholder now value (ε := ε) = .ok (some secret)) : isUtf8 secret = true := by
  obtain ⟨entry, hentry, rfl⟩ := SecretResolver.resolvePlaceholder_eq_some h
  exact secretFor_isUtf8 hr hentry

/-- A rewritten segment of a text is a text. -/
theorem rewritePathSegment_isUtf8 {out : Bytes × Bytes} (hsegment : isUtf8 segment = true)
    (h : rewritePathSegment segment r now = .ok out) : isUtf8 out.1 = true := by
  refine Scanner.loop_invariant (P := fun st => isUtf8 st.1 = true) (fun hst hslice => ?_)
    (fun hst hread => ?_) rfl h
  · exact (isUtf8_append hst _).trans (slice_isUtf8 hsegment hslice)
  · obtain ⟨token, -, hresolve⟩ := SecretResolver.segmentToken_eq_ok hread
    exact (isUtf8_append hst _).trans (resolvePlaceholder_isUtf8 hr hresolve)

theorem rewriteText_isUtf8 {location : String} {out : Bytes × Nat} (htext : isUtf8 text = true)
    (h : r.rewriteTextPlaceholdersAtLocation now text location = .ok out) :
    isUtf8 out.1 = true := by
  unfold SecretResolver.rewriteTextPlaceholdersAtLocation at h
  split at h
  next =>
    cases h
    exact htext
  next =>
    obtain ⟨st, hloop, h⟩ := bind_eq_ok h
    have hst : isUtf8 st.1 = true := by
      refine Scanner.loop_invariant (P := fun st => isUtf8 st.1 = true) (fun hst hslice => ?_)
        (fun hst hread => ?_) rfl hloop
      · exact (isUtf8_append hst _).trans (slice_isUtf8 htext hslice)
      · obtain ⟨token, -, hresolve⟩ := SecretResolver.textToken_eq_ok hread
        exact (isUtf8_append hst _).trans (resolvePlaceholder_isUtf8 hr hresolve)
    dsimp only at h
    obtain ⟨-, ⟨⟩⟩ := else_of_ite h nofun
    exact hst

end Secrets

/-! ## The text around the tokens -/

/-- A text from a position on, without its spans. -/
def literalText (text : Bytes) : Nat → List (Span Bytes) → Bytes
  | pos, [] => text.drop pos
  | pos, span :: spans =>
    (text.drop pos).take (span.start - pos) ++ literalText text span.stop spans

theorem mem_splice :
    ∀ {spans : List (Span Bytes)}
      {pos : Nat}, b ∈ Scanner.splice text (fun span => span.value) pos spans ↔
      b ∈ literalText text pos spans ∨ ∃ span ∈ spans, b ∈ span.value
  | [], pos => by simp [Scanner.splice, literalText]
  | span :: spans, pos => by
    rw [Scanner.splice, literalText, List.mem_append, List.mem_append, List.mem_append, mem_splice]
    simp only [List.mem_cons, exists_eq_or_imp]
    grind

theorem length_splice :
    ∀ {spans : List (Span Bytes)}
      {pos : Nat}, (Scanner.splice text (fun span => span.value) pos spans).length =
      (literalText text pos spans).length + (spans.map fun span => span.value.length).sum
  | [], pos => rfl
  | span :: spans, pos => by
    rw [Scanner.splice, literalText, List.length_append, List.length_append, length_splice,
      List.length_append, List.map_cons, List.sum_cons]
    omega

def dot : UInt8 := 0x2E

theorem dots_iff {s : Bytes} : (s = [dot] ∨ s = [dot, dot]) ↔
    (∀ b ∈ s, b = dot) ∧ 1 ≤ s.length ∧ s.length ≤ 2 := by
  constructor
  · rintro (rfl | rfl) <;> simp
  · rintro ⟨hdots, hmin, hmax⟩
    have hs := List.eq_replicate_of_mem hdots
    rcases (by omega : s.length = 1 ∨ s.length = 2) with hlen | hlen
    · exact Or.inl (by rw [hs, hlen]; rfl)
    · exact Or.inr (by rw [hs, hlen]; rfl)

/-- The secrets of a segment and the text around them are dots only, one or two of them. -/
def DotsOnly (r : SecretResolver) (now : Int) (text : Bytes) : Prop :=
  ∃ spans, (segmentScanner r now text).Run 0 spans ∧ (∀ b ∈ literalText text 0 spans, b = dot) ∧
    (∀ span ∈ spans, ∀ b ∈ span.value, b = dot) ∧
    1 ≤ (literalText text 0 spans).length + (spans.map fun span => span.value.length).sum ∧
    (literalText text 0 spans).length + (spans.map fun span => span.value.length).sum ≤ 2

variable {r : SecretResolver} {now : Int}

theorem dotsOnly_iff :
    DotsOnly r now text ↔ ∃ spans, (segmentScanner r now text).Run 0 spans ∧
      (Scanner.splice text (fun span => span.value) 0 spans = [dot] ∨
        Scanner.splice text (fun span => span.value) 0 spans = [dot, dot]) := by
  refine exists_congr fun spans => and_congr_right fun _ => ?_
  rw [dots_iff, length_splice, ← and_assoc]
  refine and_congr_left fun _ => ?_
  simp only [mem_splice]
  constructor
  · rintro ⟨hliteral, hsecret⟩ b (hb | ⟨span, hspan, hb⟩)
    · exact hliteral b hb
    · exact hsecret span hspan b hb
  · exact fun h =>
      ⟨fun b hb => h b (Or.inl hb), fun span hspan b hb => h b (Or.inr ⟨span, hspan, hb⟩)⟩

/-! ## The path -/

/-- The tokens of a text, replaced by their secrets. -/
def Replaced (r : SecretResolver) (now : Int) (text text' : Bytes) : Prop :=
  ∃ spans, (segmentScanner r now text).Run 0 spans ∧
    text' = Scanner.splice text (fun span => span.value) 0 spans

/-- A segment is kept as it is, or it has a marker and becomes a path segment that
decodes to its decoded text with the tokens replaced, and is no dot segment. -/
def SegmentKept (r : SecretResolver) (now : Int) (segment segment' : Bytes) : Prop :=
  if containsRawReservedMarker (percentDecode segment) = true then
    isPathText segment' = true ∧ Replaced r now (percentDecode segment) (percentDecode segment') ∧
      segment' ≠ [dot] ∧ segment' ≠ [dot, dot]
  else segment' = segment

/-- The path keeps its segments. -/
def PathKept (r : SecretResolver) (now : Int) (path path' : Bytes) : Prop :=
  List.Forall₂ (SegmentKept (r.withRequestLocation (.path (percentDecode path))) now)
    (path.splitOn 0x2F) (path'.splitOn 0x2F)

theorem percentEncodePathSegment_eq_iff {s kept : Bytes}
    (hkept : percentEncodePathSegment kept = kept) :
    percentEncodePathSegment s = kept ↔ s = kept := by
  constructor
  · intro h
    have hdecode := percentDecodeBytes_percentEncode isPathChar (by decide)
    calc s = percentDecodeBytes (percentEncodePathSegment s) := (hdecode s).symm
      _ = percentDecodeBytes (percentEncodePathSegment kept) := by rw [h, hkept]
      _ = kept := hdecode kept
  · rintro rfl
    exact hkept

variable {part : Part}

theorem segmentKept_iff (hr : r.TextSecrets)
    (h : rewriteUriSegment r now segment = .ok part) :
    SegmentKept r now segment part.resolved ↔
      (containsRawReservedMarker (percentDecode segment) = true →
        ¬ DotsOnly r now (percentDecode segment)) := by
  unfold rewriteUriSegment at h
  unfold SegmentKept
  dsimp only at h
  by_cases hmarker : containsRawReservedMarker (percentDecode segment) = true
  · rw [if_pos hmarker] at h ⊢
    obtain ⟨out, hout, rfl⟩ := bind_ok_eq_ok h
    obtain ⟨spans, hrun, hresolved, -⟩ := rewritePathSegment_run hout
    have hutf8 := rewritePathSegment_isUtf8 hr (percentDecode_isUtf8 segment) hout
    have hdecode : percentDecode (percentEncodePathSegment out.1) = out.1 :=
      percentDecode_percentEncode (by decide) hutf8
    have hdots : DotsOnly r now (percentDecode segment) ↔ out.1 = [dot] ∨ out.1 = [dot, dot] := by
      rw [dotsOnly_iff, hresolved]
      constructor
      · rintro ⟨spans', hrun', hdot⟩
        rwa [hrun.unique hrun']
      · exact fun hdot => ⟨spans, hrun, hdot⟩
    rw [hdots, hdecode, Ne, Ne, percentEncodePathSegment_eq_iff (by decide),
      percentEncodePathSegment_eq_iff (by decide), ← not_or]
    constructor
    · exact fun hkept _ => hkept.2.2
    · exact fun hdot => ⟨isPathText_percentEncode out.1, ⟨spans, hrun, hresolved⟩, hdot hmarker⟩
  · rw [if_neg hmarker] at h ⊢
    cases h
    exact iff_of_true rfl fun h => absurd h hmarker

/-- Parts that have no separator inside stay apart when they are joined. -/
theorem splitOn_intercalate_resolved {sep : UInt8} {f : Bytes → Rewrite Part} {parts : List Part}
    (h : (text.splitOn sep).mapM f = .ok parts)
    (hsep : ∀ piece part, f piece = .ok part → sep ∉ piece → sep ∉ part.resolved) :
    ([sep].intercalate (parts.map (·.resolved))).splitOn sep = parts.map (·.resolved) := by
  refine List.splitOn_intercalate sep (fun resolved hresolved => ?_) ?_
  · obtain ⟨part, hpart, rfl⟩ := List.mem_map.mp hresolved
    obtain ⟨piece, hpiece, hf⟩ := exists_of_mem_mapM h part hpart
    exact hsep piece part hf (notMem_of_mem_splitOn hpiece)
  · have hlen := (mapM_eq_ok h).length_eq
    have hne := List.length_pos_iff.mpr (List.splitOn_ne_nil sep text)
    exact List.ne_nil_of_length_pos (by rw [List.length_map]; omega)

theorem slash_notMem_resolved
    (h : rewriteUriSegment r now segment = .ok part) (hslash : 0x2F ∉ segment) :
    0x2F ∉ part.resolved := by
  unfold rewriteUriSegment at h
  dsimp only at h
  split at h
  next =>
    obtain ⟨out, -, rfl⟩ := bind_ok_eq_ok h
    exact notMem_percentEncode (by decide) (by decide) out.1
  next =>
    cases h
    exact hslash

/-- The rewritten path keeps its segments exactly if no segment with a placeholder comes out as one
or two dots. -/
theorem pathKept_iff {r : SecretResolver} (hr : r.TextSecrets) {now : Int} {path : Bytes}
    {out : Bytes × Bytes} (h : rewriteUriPath path r now = .ok (some out)) :
    PathKept r now path out.1 ↔
      ∀ segment ∈ path.splitOn 0x2F, containsRawReservedMarker (percentDecode segment) = true →
        ¬ DotsOnly (r.withRequestLocation (.path (percentDecode path))) now
          (percentDecode segment) := by
  obtain ⟨parts, hparts, h⟩ := bind_eq_ok h
  have hjoin := Except.ok.inj h
  unfold joinParts at hjoin
  obtain ⟨-, ⟨⟩⟩ := then_of_ite hjoin nofun
  unfold PathKept
  rw [splitOn_intercalate_resolved hparts fun _ _ => slash_notMem_resolved,
    List.forall₂_map_right_iff]
  exact forall₂_iff_of_forall₂ (mapM_eq_ok hparts) fun segment part hpart =>
    segmentKept_iff (r := r.withRequestLocation (.path (percentDecode path))) hr hpart

/-- A resolver that hands out a secret in the path of a template. -/
def pathResolver (template secret : Bytes) : SecretResolver :=
  (SecretResolver.ofPlaceholders (PlaceholderMap.empty.issue (utf8Bytes "KEY") ⟨secret, 0⟩).1
    (keyIssued_prefixed secret)).withPlacements
    ((∅ : TextMap CredentialPlacement).insert (utf8Bytes "KEY") (.pathTemplate template))

theorem pathResolver_textSecrets {template : Bytes} (hsecret : isUtf8 secret = true) :
    (pathResolver template secret).TextSecrets := fun _ _ h => (keyIssued_getElem? h).2 ▸ hsecret

/-- A path with a placeholder for a segment. -/
def botPath : Bytes := utf8Bytes "/bot/openshell:resolve:env:KEY"

theorem pathKept_iff_botPath :
    ∃ out, rewriteUriPath botPath
      (pathResolver (utf8Bytes "/bot/\x7bcredential\x7d") (utf8Bytes "abc")) 0 =
        .ok (some out) ∧
      (PathKept (pathResolver (utf8Bytes "/bot/\x7bcredential\x7d") (utf8Bytes "abc"))
        0 botPath out.1 ↔
        ∀ segment ∈ botPath.splitOn 0x2F, containsRawReservedMarker (percentDecode segment) = true →
          ¬ DotsOnly
            ((pathResolver (utf8Bytes "/bot/\x7bcredential\x7d")
              (utf8Bytes "abc")).withRequestLocation
            (.path (percentDecode botPath))) 0 (percentDecode segment)) := by
  have hok :
      (rewriteUriPath botPath
        (pathResolver (utf8Bytes "/bot/\x7bcredential\x7d") (utf8Bytes "abc")) 0) =
      .ok (some (utf8Bytes "/bot/abc", utf8Bytes "/bot/[CREDENTIAL]")) := by decide
  exact ⟨_, hok, pathKept_iff (pathResolver_textSecrets (by decide)) hok⟩

/-- A dot before a placeholder whose secret is a dot. -/
def dotPath : Bytes := utf8Bytes "/.openshell:resolve:env:KEY"

theorem not_pathKept_dotPath :
    ∃ redacted, rewriteUriPath dotPath (pathResolver (utf8Bytes "/.\x7bcredential\x7d") [dot]) 0 =
        .ok (some (utf8Bytes "/..", redacted)) ∧
      ¬ PathKept (pathResolver (utf8Bytes "/.\x7bcredential\x7d") [dot]) 0 dotPath
        (utf8Bytes "/..") := by
  refine ⟨utf8Bytes "/.[CREDENTIAL]", by decide, fun h => ?_⟩
  have hsegments : dotPath.splitOn 0x2F = [[], utf8Bytes ".openshell:resolve:env:KEY"] := by decide
  have hsegments' : (utf8Bytes "/..").splitOn 0x2F = [[], [dot, dot]] := by decide
  unfold PathKept at h
  rw [hsegments, hsegments'] at h
  have hkept := (List.forall₂_cons.mp (List.forall₂_cons.mp h).2).1
  rw [SegmentKept, if_pos (by decide)] at hkept
  exact hkept.2.2.2 rfl

end OpenShell.Secrets
