import OpenShell.L7.EncodedSlash

/-!
# One path for policy and wire

`canonicalizeRequestTarget_canonical` collects what the proxy may rely on after
a target was accepted: the path has its canonical form, `%2F` in it means
exactly a surviving encoded slash of the request, and canonicalizing the path
once more changes nothing. The last is what lets policy evaluation and the
upstream request be handed the same bytes.

Two facts about the URI parser are assumed (`HttpUriSpec`): a text that starts
with `/` has no scheme, and the path of a parsed URI is a stretch of the text or
`/`.
-/

namespace OpenShell.L7

/-- What is assumed of the `http` crate's URI parser. -/
structure HttpUriSpec (parseUri : Bytes → Option HttpUri) : Prop where
  origin_form : ∀ {s u}, s.head? = some slash → parseUri s = some u → u.scheme = none
  path_bytes : ∀ {s u}, parseUri s = some u → ∀ b ∈ u.path, b = slash ∨ b ∈ s

/-! ## The steps before decoding -/

set_option maxRecDepth 8000 in
theorem sweepTarget_eq_ok :
    ∀ {target : Bytes}, sweepTarget target = .ok () ↔ ∀ b ∈ target, 0x20 ≤ b ∧ b ≤ 0x7E
  | [] => by simp [sweepTarget]
  | b :: rest => by
    have hbyte : ∀ b : UInt8, (0x20 ≤ b ∧ b ≤ 0x7E) ↔
        ¬((b == 0 || b == 0x0A || b == 0x0D || b == 0x09 || b == 0x7F) = true) ∧ ¬ b < 0x20 ∧
          ¬ 0x80 ≤ b := by
      apply forall_byte
      decide
    rw [List.forall_mem_cons, hbyte, ← sweepTarget_eq_ok, sweepTarget]
    split
    next h1 => simp [h1]
    next h1 =>
      split
      next h2 => simp [h2]
      next h2 =>
        split
        next h3 => simp [h3]
        next h3 => exact (and_iff_right ⟨h1, h2, h3⟩).symm

variable {target : Bytes} {b : UInt8}

theorem mem_splitQuery (h : b ∈ (splitQuery target).1) :
    b ∈ target := by
  unfold splitQuery at h
  split at h
  next p q hs => exact (splitOnce_eq_some hs).1 ▸ List.mem_append_left _ h
  next => exact h

section

variable {parseUri : Bytes → Option HttpUri} (huri : HttpUriSpec parseUri)

include huri

variable {s : Bytes}

/-- An origin-form target is its own raw path. -/
theorem rawPath_of_slash (h : s.head? = some slash) : rawPath parseUri s = s := by
  have hne : s ≠ [] := by rintro rfl; cases h
  have hnone : (parseUri s).filter (·.scheme.isSome) = none := by
    rw [Option.filter_eq_none_iff]
    intro u hu
    rw [huri.origin_form h hu]
    decide
  simp [rawPath, hnone, hne]

theorem mem_rawPath (h : b ∈ rawPath parseUri s) : b = slash ∨ b ∈ s := by
  have hpick : ∀ raw : Bytes, b ∈ (if raw.isEmpty then [slash] else raw) → b = slash ∨ b ∈ raw := by
    intro raw hb
    split at hb
    next => exact Or.inl (List.mem_singleton.mp hb)
    next => exact Or.inr hb
  unfold rawPath at h
  cases hu : (parseUri s).filter (·.scheme.isSome) with
  | none =>
    rw [hu] at h
    exact hpick s h
  | some u =>
    rw [hu] at h
    rcases hpick _ h with h | h
    · exact Or.inl h
    · by_cases hp : u.path = []
      · exact Or.inl (by simpa [Option.filter, hp] using h)
      · have hmem : b ∈ u.path := by simpa [Option.filter, hp] using h
        exact huri.path_bytes (Option.filter_eq_some_iff.mp hu).1 b hmem

end

variable {parseUri : Bytes → Option HttpUri} {opts : CanonicalizeOptions}

/-- **What acceptance means**, step by step. -/
theorem canonicalizeRequestTarget_eq_ok {c : CanonicalPath} {q : Option Bytes} :
    canonicalizeRequestTarget parseUri target opts = .ok (c, q) ↔
      (∀ b ∈ target, 0x20 ≤ b ∧ b ≤ 0x7E) ∧ hash ∉ target ∧
      (rawPath parseUri (splitQuery target).1).head? = some slash ∧
      (rawPath parseUri (splitQuery target).1).length ≤ maxPathLen ∧
      ∃ segs, canonicalSegments opts (rawPath parseUri (splitQuery target).1) = .ok segs ∧
        c = ⟨buildCanonicalPath segs opts,
          buildCanonicalPath segs opts != rawPath parseUri (splitQuery target).1⟩ ∧
        q = (splitQuery target).2 := by
  constructor
  · intro h
    obtain ⟨_, hsweep, h⟩ := bind_eq_ok h
    obtain ⟨hhash, h⟩ := rejectIf_bind.mp h
    obtain ⟨hroot, h⟩ := rejectIf_bind.mp h
    obtain ⟨hlen, h⟩ := rejectIf_bind.mp h
    obtain ⟨segs, hsegs, h⟩ := bind_eq_ok h
    obtain ⟨hc, hq⟩ := ok_pair_inj h
    exact ⟨sweepTarget_eq_ok.mp hsweep, by simpa using hhash, not_not.mp hroot,
      Nat.not_lt.mp hlen, segs, hsegs, hc.symm, hq.symm⟩
  · rintro ⟨hsweep, hhash, hroot, hlen, segs, hsegs, rfl, rfl⟩
    unfold canonicalizeRequestTarget
    rw [sweepTarget_eq_ok.mpr hsweep]
    refine rejectIf_bind.mpr ⟨by simpa using hhash, rejectIf_bind.mpr ⟨not_not.mpr hroot,
      rejectIf_bind.mpr ⟨Nat.not_lt.mpr hlen, ?_⟩⟩⟩
    show (do
      let resolved ← canonicalSegments opts (rawPath parseUri (splitQuery target).1)
      _) = _
    rw [hsegs]
    rfl

/-! ## The canonical path -/

/-- An accepted target's raw path holds no control byte. -/
theorem rawPath_bytes (huri : HttpUriSpec parseUri) (h : ∀ b ∈ target, 0x20 ≤ b ∧ b ≤ 0x7E) :
    ∀ b ∈ rawPath parseUri (splitQuery target).1, 0x20 ≤ b ∧ b ≠ 0x7F := by
  intro b hb
  rcases mem_rawPath huri hb with rfl | hb
  · decide
  · obtain ⟨hlo, hhi⟩ := h b (mem_splitQuery hb)
    refine ⟨hlo, ?_⟩
    rintro rfl
    exact absurd hhi (by decide)

/-- Canonical segments, written out, are accepted as they stand. -/
theorem canonicalizeRequestTarget_build (huri : HttpUriSpec parseUri) {segs : List Bytes}
    (h : CanonicalSegments opts segs)
    (hlen : (buildCanonicalPath segs opts).length ≤ maxPathLen) :
    canonicalizeRequestTarget parseUri (buildCanonicalPath segs opts) opts
      = .ok (⟨buildCanonicalPath segs opts, false⟩, none) := by
  have hbyte : ∀ b ∈ buildCanonicalPath segs opts, PathByte b := fun _ => pathByte_of_mem_build h
  have hsplit : splitQuery (buildCanonicalPath segs opts) =
      (buildCanonicalPath segs opts, none) := by
    rw [splitQuery, splitOnce_of_notMem fun hq => (hbyte question hq).2.2.1 rfl]
  have hraw : rawPath parseUri (buildCanonicalPath segs opts) = buildCanonicalPath segs opts :=
    rawPath_of_slash huri rfl
  rw [canonicalizeRequestTarget_eq_ok, hsplit, hraw]
  refine ⟨fun b hb => ?_, fun hh => (hbyte hash hh).2.2.2 rfl, rfl, hlen, segs,
    canonicalSegments_build h, by rw [bne_self_eq_false], rfl⟩
  exact ⟨UInt8.le_trans (by decide) (hbyte b hb).1, (hbyte b hb).2.1⟩

/-- **Canonicalization is a canonical form.** The path of an accepted target has
the canonical form, contains `%2F` exactly for a surviving encoded slash (hence
never where encoded slashes are refused), and is canonicalized to itself. -/
theorem canonicalizeRequestTarget_canonical {parseUri : Bytes → Option HttpUri}
    (huri : HttpUriSpec parseUri) {target : Bytes} {opts : CanonicalizeOptions}
    {c : CanonicalPath} {q : Option Bytes}
    (h : canonicalizeRequestTarget parseUri target opts = .ok (c, q)) :
    CanonicalForm opts c.path ∧
      (encodedSlash <:+: c.path ↔
        SurvivingEncodedSlash opts (rawPath parseUri (splitQuery target).1)) ∧
      (opts.allowEncodedSlash = false → ¬ encodedSlash <:+: c.path) ∧
      (c.path.length ≤ maxPathLen →
        canonicalizeRequestTarget parseUri c.path opts = .ok (⟨c.path, false⟩, none)) := by
  obtain ⟨hsweep, -, -, -, segs, hsegs, rfl, -⟩ := canonicalizeRequestTarget_eq_ok.mp h
  have hcan := canonicalSegments_spec (rawPath_bytes huri hsweep) hsegs
  have hslash : encodedSlash <:+: buildCanonicalPath segs opts ↔
      ∃ seg ∈ segs, encodedSlashSentinel ∈ seg := by
    rw [buildCanonicalPath_eq hcan, encodedSlash_infix_cons (by decide),
      encodedSlash_infix_intercalate hcan.bytes]
  refine ⟨canonicalForm_build hcan, ?_, ?_, canonicalizeRequestTarget_build huri hcan⟩
  · rw [hslash]
    exact canonicalSegments_sentinel hsegs
  · intro hallow hin
    obtain ⟨seg, hseg, hmem⟩ := hslash.mp hin
    rcases hcan.bytes seg hseg _ hmem with ⟨-, ha⟩ | ⟨hlo, -⟩
    · rw [hallow] at ha
      cases ha
    · exact absurd hlo (by decide)

/-- A URI parser that recognises no absolute form. -/
def originFormOnly : Bytes → Option HttpUri := fun s =>
  if s.head? = some slash then some ⟨none, s⟩ else none

theorem originFormOnly_spec : HttpUriSpec originFormOnly where
  origin_form := by
    intro s u hs hu
    rw [originFormOnly, if_pos hs] at hu
    rw [← Option.some.inj hu]
  path_bytes := by
    intro s u hu b hb
    by_cases hs : s.head? = some slash
    · rw [originFormOnly, if_pos hs] at hu
      rw [← Option.some.inj hu] at hb
      exact Or.inr hb
    · rw [originFormOnly, if_neg hs] at hu
      cases hu

/-- `/x/../a%2fb%7E;v=1//c?q` reads as `/a%2Fb~/c` where encoded slashes are
allowed. -/
theorem canonicalizeRequestTarget_canonical_instance :
    CanonicalForm ⟨true, true⟩ [slash, 0x61, percent, 0x32, 0x46, 0x62, 0x7E, slash, 0x63] ∧
      encodedSlash <:+: [slash, 0x61, percent, 0x32, 0x46, 0x62, 0x7E, slash, 0x63] := by
  have h : canonicalizeRequestTarget originFormOnly
      [slash, 0x78, slash, dot, dot, slash, 0x61, percent, 0x32, 0x66, 0x62, percent, 0x37, 0x45,
        semicolon, 0x76, 0x3D, 0x31, slash, slash, 0x63, question, 0x71] ⟨true, true⟩
      = .ok (⟨[slash, 0x61, percent, 0x32, 0x46, 0x62, 0x7E, slash, 0x63], true⟩, some [0x71]) := by
    decide
  exact ⟨(canonicalizeRequestTarget_canonical originFormOnly_spec h).1, by decide⟩

end OpenShell.L7
