import Mathlib.Data.List.TakeWhile
import OpenShell.L7.Path
import OpenShell.Util.Split

/-!
# The canonical form of a request path

`canonicalizeRequestTarget` promises one path for policy and wire. The argument
goes through the segments: `CanonicalSegments` says what the pipeline leaves
behind after decoding, stripping and dot resolution, `canonicalSegments_spec`
that the pipeline establishes it, and `canonicalSegments_build` that writing
such segments out and running the pipeline again gives them back. Everything
said about the canonical path is read off the segments through `encodeSegment`,
which is injective because an escape and a literal byte never look alike.
-/

namespace OpenShell.L7

/-! ## Bytes under encoding -/

/-- A byte that may stand in a decoded segment: the sentinel where encoded
slashes are allowed, else any byte that is neither a control nor a slash. -/
def SegByte (allow : Bool) (b : UInt8) : Prop :=
  (b = encodedSlashSentinel ∧ allow = true) ∨ (0x20 ≤ b ∧ b ≠ 0x7F ∧ b ≠ slash)

/-- Bytes the canonical path is written in: printable, and none of the three
that would end the path. -/
def PathByte (b : UInt8) : Prop :=
  0x21 ≤ b ∧ b ≤ 0x7E ∧ b ≠ question ∧ b ≠ hash

instance (b : UInt8) : Decidable (PathByte b) := by unfold PathByte; infer_instance

set_option maxRecDepth 8000 in
theorem encodeByte_pathByte (b : UInt8) :
    ∀ c ∈ encodeByte b, PathByte c ∧ c ≠ slash := by
  have hall : ∀ b, (encodeByte b).all (fun c => decide (PathByte c ∧ c ≠ slash)) = true := by
    apply forall_byte
    decide
  intro c hc
  exact of_decide_eq_true (List.all_eq_true.mp (hall b) c hc)

set_option maxRecDepth 8000 in
theorem encodeByte_semicolon (b : UInt8) : semicolon ∈ encodeByte b → b = semicolon := by
  revert b
  apply forall_byte
  decide

variable {allow : Bool} {b : UInt8}

/-- A literal byte decodes to itself. -/
theorem decode_literal (hs : b ≠ encodedSlashSentinel)
    (hp : b ≠ percent) (rest : Bytes) :
    percentDecodeWithSentinel allow (b :: rest)
      = (b :: ·) <$> percentDecodeWithSentinel allow rest := by
  rw [percentDecodeWithSentinel.eq_def]
  dsimp only
  rw [if_neg (by simpa using hs), if_neg (by simpa using hp)]

/-- A well-formed escape contributes `escapedByte` of its value. -/
theorem decode_escape {h l hi lo : UInt8} (hh : decodeHex h = some hi)
    (hl : decodeHex l = some lo) (rest : Bytes) :
    percentDecodeWithSentinel allow (percent :: h :: l :: rest)
      = (do let out ← escapedByte allow ((hi <<< 4) ||| lo)
            (out :: ·) <$> percentDecodeWithSentinel allow rest) := by
  rw [percentDecodeWithSentinel, if_neg (by decide), if_pos (by decide)]
  simp only [hh, hl]

set_option maxRecDepth 8000 in
/-- The two digits written for a byte read back as that byte. -/
theorem decodeHex_upperHexNibble (b : UInt8) :
    decodeHex (upperHexNibble (b >>> 4)) = some (b >>> 4) ∧
      decodeHex (upperHexNibble (b &&& 0x0F)) = some (b &&& 0x0F) ∧
      ((b >>> 4) <<< 4) ||| (b &&& 0x0F) = b := by
  revert b
  apply forall_byte
  decide

set_option maxRecDepth 8000 in
theorem isPcharUnreserved_plain (b : UInt8) :
    isPcharUnreserved b = true → b ≠ encodedSlashSentinel ∧ b ≠ percent := by
  revert b
  apply forall_byte
  decide

set_option maxRecDepth 8000 in
/-- An escaped byte that is neither a control nor a slash stands for itself. -/
theorem escapedByte_plain (allow : Bool) (b : UInt8) :
    0x20 ≤ b → b ≠ 0x7F → b ≠ slash → escapedByte allow b = .ok b := by
  revert b
  cases allow <;> (apply forall_byte; decide)

/-- Writing a segment byte out and decoding it gives it back. -/
theorem decode_encodeByte (hb : SegByte allow b) (rest : Bytes) :
    percentDecodeWithSentinel allow (encodeByte b ++ rest)
      = (b :: ·) <$> percentDecodeWithSentinel allow rest := by
  rcases hb with ⟨rfl, rfl⟩ | ⟨hlo, hdel, hsl⟩
  · rfl
  · have hsen : b ≠ encodedSlashSentinel := by
      rintro rfl
      exact absurd hlo (by decide)
    rw [encodeByte, if_neg (by simpa using hsen)]
    by_cases hp : isPcharUnreserved b = true
    · rw [if_pos hp]
      exact decode_literal hsen (isPcharUnreserved_plain b hp).2 rest
    · obtain ⟨hhi, hlo', hval⟩ := decodeHex_upperHexNibble b
      rw [if_neg hp, List.cons_append, List.cons_append, List.cons_append, List.nil_append,
        decode_escape hhi hlo', hval, escapedByte_plain allow b hlo hdel hsl]
      rfl

/-- Writing a segment out and decoding it gives it back. -/
theorem decode_encodeSegment :
    ∀ {seg : Bytes}, (∀ b ∈ seg, SegByte allow b) → ∀ rest : Bytes,
      percentDecodeWithSentinel allow (encodeSegment seg ++ rest)
        = (seg ++ ·) <$> percentDecodeWithSentinel allow rest
  | [], _, rest => by simp [encodeSegment]
  | b :: seg, hseg, rest => by
    have hb := hseg b List.mem_cons_self
    have ih := decode_encodeSegment (List.forall_mem_cons.mp hseg).2 rest
    have hsplit : encodeSegment (b :: seg) = encodeByte b ++ encodeSegment seg := by
      simp [encodeSegment]
    rw [hsplit, List.append_assoc, decode_encodeByte hb, ih]
    cases percentDecodeWithSentinel allow rest <;> rfl

/-! ## What the pipeline leaves behind -/

/-- The segments of a canonical path: at least one, none empty but the last,
made of segment bytes, free of parameters where these are stripped, and with no
dot segment anywhere, not even between encoded slashes. -/
structure CanonicalSegments (opts : CanonicalizeOptions) (segs : List Bytes) : Prop where
  ne_nil : segs ≠ []
  inner : ∀ seg ∈ segs.dropLast, seg ≠ []
  bytes : ∀ seg ∈ segs, ∀ b ∈ seg, SegByte opts.allowEncodedSlash b
  params : opts.stripPathParameters = true → ∀ seg ∈ segs, semicolon ∉ seg
  dots : ∀ seg ∈ segs, hasResidualDot seg = false

variable {opts : CanonicalizeOptions} {segs : List Bytes}

theorem CanonicalSegments.slash_notMem (h : CanonicalSegments opts segs) :
    ∀ seg ∈ segs, slash ∉ seg := by
  intro seg hseg hmem
  rcases h.bytes seg hseg slash hmem with ⟨he, -⟩ | ⟨-, -, hne⟩
  · exact absurd he (by decide)
  · exact hne rfl

/-- An escape never contributes a slash, and contributes the sentinel only where
encoded slashes are allowed. -/
theorem escapedByte_segByte (allow : Bool) (b : UInt8) :
    ∀ c, escapedByte allow b = .ok c → SegByte allow c := by
  intro c h
  unfold escapedByte at h
  split at h
  next =>
    obtain ⟨ha, h⟩ := else_of_ite h nofun
    exact Or.inl ⟨(Except.ok.inj h).symm, by simpa using ha⟩
  next hsl =>
    obtain ⟨hctl, h⟩ := else_of_ite h nofun
    split at h
    next => cases h
    next hctl' =>
      cases h
      refine Or.inr ⟨?_, by simp at hctl; exact hctl.1.2, by simpa using hsl⟩
      simp only [Bool.or_eq_true, beq_iff_eq, not_or, Bool.and_eq_true,
        decide_eq_true_eq, bne_iff_ne, ne_eq, not_and, not_not] at hctl hctl'
      by_contra hlt
      exact hctl'.2 (hctl.2 (UInt8.not_le.mp hlt))

/-- A decoded raw path holds slashes and segment bytes only, provided no control
byte was written literally. -/
theorem decode_bytes :
    ∀ (raw : Bytes) {out : Bytes}, (∀ b ∈ raw, 0x20 ≤ b ∧ b ≠ 0x7F) →
      percentDecodeWithSentinel allow raw = .ok out → ∀ b ∈ out, b = slash ∨ SegByte allow b := by
  intro raw
  fun_induction percentDecodeWithSentinel allow raw with
  | case1 =>
    intro out _ h b hb
    cases h
    exact absurd hb List.not_mem_nil
  | case3 b hsen hpct h l rest' hi lo hhi hlo ih =>
    intro out hraw hok x hx
    obtain ⟨c, hc, hok⟩ := bind_eq_ok hok
    obtain ⟨tail, htail, rfl⟩ := map_eq_ok hok
    rcases List.mem_cons.mp hx with rfl | hx
    · exact Or.inr (escapedByte_segByte allow _ _ hc)
    · exact ih (fun y hy => hraw y (by simp [hy])) htail x hx
  | case6 c rest hsen hpct ih =>
    intro out hraw hok b hb
    obtain ⟨tail, htail, rfl⟩ := map_eq_ok hok
    rcases List.mem_cons.mp hb with rfl | hb
    · have hb := hraw b List.mem_cons_self
      by_cases hsl : b = slash
      · exact Or.inl hsl
      · exact Or.inr (Or.inr ⟨hb.1, hb.2, hsl⟩)
    · exact ih (List.forall_mem_cons.mp hraw).2 htail b hb
  | case2 | case4 | case5 => intro out _ h; cases h

variable {seg : Bytes}

/-- What one turn of the loop can do to the stack. -/
theorem resolveSegment_cases {last : Bool} {stack out : List Bytes}
    (h : resolveSegment last stack seg = .ok out) :
    (last = false ∧ (out = stack ∨ out = stack.dropLast)) ∨
      (last = false ∧ seg ≠ [] ∧ out = stack ++ [seg]) ∨
      (last = true ∧ ∃ kept x, (kept = stack ∨ kept = stack.dropLast) ∧ (x = [] ∨ x = seg) ∧
        out = kept ++ [x]) := by
  unfold resolveSegment at h
  cases last with
  | false =>
    split at h
    next =>
      obtain ⟨-, h⟩ := else_of_ite h nofun
      exact Or.inl ⟨rfl, Or.inr (Except.ok.inj h).symm⟩
    next =>
      split at h
      next => exact Or.inl ⟨rfl, Or.inl (Except.ok.inj h).symm⟩
      next =>
        split at h
        next => exact Or.inl ⟨rfl, Or.inl (Except.ok.inj h).symm⟩
        next hne => exact Or.inr (Or.inl ⟨rfl, by simpa using hne, (Except.ok.inj h).symm⟩)
  | true =>
    refine Or.inr (Or.inr ⟨rfl, ?_⟩)
    split at h
    next =>
      obtain ⟨-, h⟩ := else_of_ite h nofun
      exact ⟨stack.dropLast, [], Or.inr rfl, Or.inl rfl, (Except.ok.inj h).symm⟩
    next =>
      split at h
      next => exact ⟨stack, [], Or.inl rfl, Or.inl rfl, (Except.ok.inj h).symm⟩
      next =>
        split at h
        next hne => simp at hne
        next => exact ⟨stack, seg, Or.inl rfl, Or.inr rfl, (Except.ok.inj h).symm⟩

/-- The loop invariant: while the stack holds no empty segment, the result has
one at most in last place, and every segment of it was on the stack, was read,
or is the empty one a trailing dot segment leaves. -/
theorem resolveDotSegments_spec :
    ∀ (segs : List Bytes) {stack out : List Bytes}, segs ≠ [] → (∀ s ∈ stack, s ≠ []) →
      resolveDotSegments stack segs = .ok out →
      out ≠ [] ∧ (∀ s ∈ out.dropLast, s ≠ []) ∧
        ∀ s ∈ out, s ∈ stack ∨ s ∈ segs ∨ s = [] := by
  intro segs
  induction segs with
  | nil => intro stack out hne; exact absurd rfl hne
  | cons seg rest ih =>
    intro stack out _ hstack h
    obtain ⟨stack', hstep, hrest⟩ := bind_eq_ok h
    cases rest with
    | nil =>
      cases hrest
      rcases resolveSegment_cases hstep with ⟨hl, _⟩ | ⟨hl, _⟩ | ⟨_, kept, x, hk, hx, rfl⟩
      · cases hl
      · cases hl
      · have hkept : ∀ s ∈ kept, s ∈ stack := by
          rcases hk with rfl | rfl
          · exact fun s hs => hs
          · exact fun s hs => List.dropLast_subset _ hs
        refine ⟨by simp, ?_, ?_⟩
        · rw [List.dropLast_concat]
          exact fun s hs => hstack s (hkept s hs)
        · refine List.forall_mem_append.mpr
            ⟨fun s hs => Or.inl (hkept s hs), List.forall_mem_singleton.mpr ?_⟩
          rcases hx with rfl | rfl
          · exact Or.inr (Or.inr rfl)
          · exact Or.inr (Or.inl List.mem_cons_self)
    | cons seg' rest' =>
      have hstep' : (∀ s ∈ stack', s ≠ []) ∧ ∀ s ∈ stack', s ∈ stack ∨ s = seg := by
        rcases resolveSegment_cases hstep with ⟨_, rfl | rfl⟩ | ⟨_, hne, rfl⟩ | ⟨hl, _⟩
        · exact ⟨hstack, fun s hs => Or.inl hs⟩
        · exact ⟨fun s hs => hstack s (List.dropLast_subset _ hs),
            fun s hs => Or.inl (List.dropLast_subset _ hs)⟩
        · exact ⟨List.forall_mem_append.mpr ⟨hstack, List.forall_mem_singleton.mpr hne⟩,
            List.forall_mem_append.mpr
            ⟨fun s hs => Or.inl hs, List.forall_mem_singleton.mpr (Or.inr rfl)⟩⟩
        · cases hl
      obtain ⟨h1, h2, h3⟩ := ih (by simp) hstep'.1 hrest
      refine ⟨h1, h2, fun s hs => ?_⟩
      rcases h3 s hs with hs | hs | hs
      · rcases hstep'.2 s hs with hs | rfl
        · exact Or.inl hs
        · exact Or.inr (Or.inl List.mem_cons_self)
      · exact Or.inr (Or.inl (List.mem_cons_of_mem _ hs))
      · exact Or.inr (Or.inr hs)

theorem semicolon_notMem_strip (seg : Bytes) : semicolon ∉ stripPathParameters seg := by
  intro h
  have := List.mem_takeWhile_imp h
  simp at this

theorem stripPathParameters_of_notMem (h : semicolon ∉ seg) :
    stripPathParameters seg = seg := by
  unfold stripPathParameters
  rw [List.takeWhile_eq_self_iff]
  intro b hb
  have : b ≠ semicolon := fun e => h (e ▸ hb)
  simpa using this

/-- **The pipeline's postcondition.** On a raw path with no literal control byte,
an accepted path has canonical segments. -/
theorem canonicalSegments_spec {raw : Bytes}
    (hraw : ∀ b ∈ raw, 0x20 ≤ b ∧ b ≠ 0x7F) (h : canonicalSegments opts raw = .ok segs) :
    CanonicalSegments opts segs := by
  obtain ⟨decoded, hdec, h⟩ := bind_eq_ok h
  obtain ⟨resolved, hres, h⟩ := bind_eq_ok h
  obtain ⟨hdots, h⟩ := rejectIf_bind.mp h
  obtain rfl := Except.ok.inj h
  -- segment bytes of the split, before and after stripping
  have hsplit : ∀ seg ∈ splitPathSegments decoded, ∀ b ∈ seg,
      SegByte opts.allowEncodedSlash b := by
    intro seg hseg b hb
    obtain ⟨hmem, hne⟩ := mem_splitOn hseg hb
    rcases decode_bytes raw hraw hdec b (List.mem_of_mem_tail hmem) with hsl | hsb
    · exact absurd hsl hne
    · exact hsb
  have hread : ∀ seg ∈ (if opts.stripPathParameters = true
      then (splitPathSegments decoded).map stripPathParameters else splitPathSegments decoded),
      (∀ b ∈ seg, SegByte opts.allowEncodedSlash b) ∧
        (opts.stripPathParameters = true → semicolon ∉ seg) := by
    intro seg hseg
    split at hseg
    next hstrip =>
      obtain ⟨s, hs, rfl⟩ := List.mem_map.mp hseg
      exact ⟨fun b hb => hsplit s hs b (List.takeWhile_subset _ hb),
        fun _ => semicolon_notMem_strip s⟩
    next hstrip => exact ⟨hsplit seg hseg, fun h => absurd h hstrip⟩
  have hne : (if opts.stripPathParameters = true
      then (splitPathSegments decoded).map stripPathParameters
      else splitPathSegments decoded) ≠ [] := by
    have := List.splitOn_ne_nil slash decoded.tail
    split
    · simp [splitPathSegments, this]
    · exact this
  obtain ⟨h1, h2, h3⟩ := resolveDotSegments_spec _ hne (by simp) hres
  have h3' : ∀ seg ∈ resolved, (∀ b ∈ seg, SegByte opts.allowEncodedSlash b) ∧
      (opts.stripPathParameters = true → semicolon ∉ seg) := by
    intro seg hseg
    rcases h3 seg hseg with hs | hs | rfl
    · exact absurd hs List.not_mem_nil
    · exact hread seg hs
    · exact ⟨by simp, fun _ => List.not_mem_nil⟩
  refine ⟨h1, h2, fun seg hs => (h3' seg hs).1, fun hp seg hs => (h3' seg hs).2 hp, ?_⟩
  intro seg hs
  simp only [List.any_eq_true, not_exists, not_and, Bool.not_eq_true] at hdots
  exact hdots seg hs

/-! ## Writing canonical segments out and reading them back -/

/-- Stripping once more changes nothing: the path is the encoded segments. -/
theorem buildCanonicalPath_eq (h : CanonicalSegments opts segs) :
    buildCanonicalPath segs opts = slash :: [slash].intercalate (segs.map encodeSegment) := by
  unfold buildCanonicalPath
  congr 2
  apply List.map_congr_left
  intro seg hseg
  split
  next hp => rw [stripPathParameters_of_notMem (h.params hp seg hseg)]
  next => rfl

/-- Decoding the joined encoded segments gives the joined segments. -/
theorem decode_intercalate :
    ∀ {segs : List Bytes}, (∀ seg ∈ segs, ∀ b ∈ seg, SegByte allow b) →
      percentDecodeWithSentinel allow ([slash].intercalate (segs.map encodeSegment))
        = .ok ([slash].intercalate segs)
  | [], _ => rfl
  | [seg], h => by
    have hd := decode_encodeSegment (h seg List.mem_cons_self) []
    rw [List.append_nil] at hd
    rw [List.map_singleton, List.intercalate_singleton, List.intercalate_singleton, hd]
    show Except.ok (seg ++ []) = _
    rw [List.append_nil]
  | seg :: seg' :: rest, h => by
    have ih := decode_intercalate (List.forall_mem_cons.mp h).2
    have hd := decode_encodeSegment (h seg List.mem_cons_self)
    rw [List.map_cons, intercalate_cons_cons _ (by simp), hd,
      decode_literal (by decide) (by decide), ih, intercalate_cons_cons seg (by simp)]
    rfl

/-- A list of segments the loop has nothing to do on. -/
theorem resolveDotSegments_self :
    ∀ (segs : List Bytes) (stack : List Bytes), (∀ s ∈ segs, s ≠ [dot, dot] ∧ s ≠ [dot]) →
      (∀ s ∈ segs.dropLast, s ≠ []) → resolveDotSegments stack segs = .ok (stack ++ segs) := by
  intro segs
  induction segs with
  | nil => intro stack _ _; rw [resolveDotSegments, List.append_nil]
  | cons seg rest ih =>
    intro stack hdots hinner
    obtain ⟨hdd, hd⟩ := hdots seg List.mem_cons_self
    have hstep : resolveSegment rest.isEmpty stack seg = .ok (stack ++ [seg]) := by
      unfold resolveSegment
      rw [if_neg (by simpa using hdd), if_neg (by simpa using hd)]
      cases rest with
      | nil => simp
      | cons s' rest' =>
        have hne : seg ≠ [] :=
          hinner seg (by rw [List.dropLast_cons_cons]; exact List.mem_cons_self)
        simp [hne]
    have hinner' : ∀ s ∈ rest.dropLast, s ≠ [] := by
      intro s hs
      cases rest with
      | nil => exact absurd hs List.not_mem_nil
      | cons s' rest' =>
        exact hinner s (by rw [List.dropLast_cons_cons]; exact List.mem_cons_of_mem _ hs)
    have hrest := ih (stack ++ [seg]) (List.forall_mem_cons.mp hdots).2 hinner'
    rw [resolveDotSegments, hstep]
    show resolveDotSegments (stack ++ [seg]) rest = _
    rw [hrest, List.append_assoc, List.singleton_append]

theorem ne_dots_of_hasResidualDot (h : hasResidualDot seg = false) :
    seg ≠ [dot, dot] ∧ seg ≠ [dot] := by
  constructor
  · rintro rfl
    exact absurd h (by decide)
  · rintro rfl
    exact absurd h (by decide)

/-- **Round trip.** Canonical segments, written out and canonicalized again, are
found unchanged. -/
theorem canonicalSegments_build (h : CanonicalSegments opts segs) :
    canonicalSegments opts (buildCanonicalPath segs opts) = .ok segs := by
  have hdec : percentDecodeWithSentinel opts.allowEncodedSlash (buildCanonicalPath segs opts)
      = .ok (slash :: [slash].intercalate segs) := by
    rw [buildCanonicalPath_eq h, decode_literal (by decide) (by decide), decode_intercalate h.bytes]
    rfl
  have hsplit : splitPathSegments (slash :: [slash].intercalate segs) = segs := by
    rw [splitPathSegments, List.tail_cons, List.splitOn_intercalate slash h.slash_notMem h.ne_nil]
  have hstrip : (if opts.stripPathParameters = true then segs.map stripPathParameters else segs)
      = segs := by
    split
    next hp =>
      rw [List.map_congr_left fun seg hs => stripPathParameters_of_notMem (h.params hp seg hs)]
      exact List.map_id' segs
    next => rfl
  have hres : resolveDotSegments [] segs = .ok segs :=
    resolveDotSegments_self segs [] (fun s hs => ne_dots_of_hasResidualDot (h.dots s hs)) h.inner
  have hany : segs.any hasResidualDot = false := by
    rw [List.any_eq_false]
    intro seg hs
    rw [h.dots seg hs]
    decide
  unfold canonicalSegments
  rw [hdec]
  show (do
    let resolved ← resolveDotSegments [] (if opts.stripPathParameters = true
      then (splitPathSegments (slash :: [slash].intercalate segs)).map stripPathParameters
      else splitPathSegments (slash :: [slash].intercalate segs))
    rejectIf (resolved.any hasResidualDot = true) .residualDotSegment
    return resolved) = _
  rw [hsplit, hstrip, hres]
  exact rejectIf_bind.mpr ⟨by rw [hany]; decide, rfl⟩

end OpenShell.L7
