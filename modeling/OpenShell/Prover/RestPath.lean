import OpenShell.L7.PathTarget

/-!
# The prover's canonical REST paths

The containment prover only reports a counterexample request whose path the
proxy could really see, and recognises such paths with a scan of its own
(`is_canonical_rest_path`). Here the scan is proved to accept exactly the fixed
points of the proxy's canonicalizer under its default options
(`isCanonicalRestPath_iff`).

Both sides are compared through `writePath`: a path is recognised when it is
the one way of writing some string of segment bytes and separators.
-/

namespace OpenShell.Prover

open OpenShell.L7

/-- A byte the prover accepts unescaped: pchar without `;`. -/
def isLiteralCanonicalPchar (byte : UInt8) : Bool :=
  isAsciiAlphanumeric byte ||
    -- - . _ ~ ! $ & ' ( ) * + , = : @
    [0x2D, 0x2E, 0x5F, 0x7E, 0x21, 0x24, 0x26, 0x27, 0x28, 0x29, 0x2A, 0x2B, 0x2C, 0x3D, 0x3A,
      0x40].contains byte

/-- An escaped byte that has no place in a canonical path, or needs no escape. -/
def escapeRefused (decoded : UInt8) : Bool :=
  decoded == slash || decoded == semicolon || isAsciiControl decoded ||
    isLiteralCanonicalPchar decoded

/-- The scan over literal bytes and escapes. -/
def scanRestPath : Bytes → Bool
  | [] => true
  | b :: rest =>
    if b != percent then
      if b != slash && !isLiteralCanonicalPchar b then false else scanRestPath rest
    else
      match rest with
      | h :: l :: rest' =>
        if !isAsciiHexdigit h || !isAsciiHexdigit l || isAsciiLowercase h || isAsciiLowercase l then
          false
        else
          match hexDigit h, hexDigit l with
          | some hi, some lo =>
            if escapeRefused (hi * 16 + lo) then false else scanRestPath rest'
          | _, _ => false
      | _ => false

def isCanonicalRestPath (path : Bytes) : Bool :=
  if path.isEmpty || path.length > 4 * 1024 || path.head? != some slash ||
      containsPair slash slash path || path.contains semicolon || path.contains question ||
      path.contains hash then false
  else if path.any (fun byte => !(0x21 ≤ byte && byte ≤ 0x7E)) ||
      (path.splitOn slash).any (fun segment => segment == [dot] || segment == [dot, dot]) then false
  else scanRestPath path

/-! ## The scan reads what the canonicalizer writes -/

/-- A byte a canonical path can stand for under the default options: a separator
or a segment byte that is no parameter mark. -/
def RestByte (b : UInt8) : Prop :=
  b = slash ∨ (SegByte false b ∧ b ≠ semicolon)

/-- The way a separator or a segment byte is written. -/
def writeByte (b : UInt8) : Bytes := if b == slash then [slash] else encodeByte b

def writePath (bytes : Bytes) : Bytes := bytes.flatMap writeByte

variable (b : UInt8)

theorem writePath_cons (bytes : Bytes) :
    writePath (b :: bytes) = writeByte b ++ writePath bytes := by
  simp [writePath]

set_option maxRecDepth 8000 in
/-- A literal byte the scan lets pass is one the canonicalizer writes as it
stands. -/
theorem scan_literal :
    b ≠ percent → (b != slash && !isLiteralCanonicalPchar b) = false →
      (b = slash ∨ (0x20 ≤ b ∧ b ≠ 0x7F ∧ b ≠ slash) ∧ b ≠ semicolon) ∧ writeByte b = [b] := by
  revert b
  apply forall_byte
  decide

set_option maxRecDepth 8000 in
/-- An escape the scan lets pass stands for a byte the canonicalizer escapes. -/
theorem scan_escape :
    escapeRefused b = false → ((0x20 ≤ b ∧ b ≠ 0x7F ∧ b ≠ slash) ∧ b ≠ semicolon) ∧
      writeByte b = [percent, upperHexNibble (b >>> 4), upperHexNibble (b &&& 0x0F)] := by
  revert b
  apply forall_byte
  decide

set_option maxRecDepth 8000 in
/-- An upper-case digit is the digit written for its value. -/
theorem eq_upperHexNibble (h : UInt8) :
    isAsciiLowercase h = false → ∀ d ∈ hexDigit h, h = upperHexNibble d ∧ d < 16 := by
  have hall : ∀ h, isAsciiLowercase h = false →
      (hexDigit h).all (fun d => h == upperHexNibble d && d < 16) = true := by
    apply forall_byte
    decide
  intro hlow d hd
  have hd' := hall h hlow
  rw [Option.mem_def.mp hd] at hd'
  simpa using hd'

theorem nibbles (hi lo : UInt8) (hhi : hi < 16) (hlo : lo < 16) :
    (hi * 16 + lo) >>> 4 = hi ∧ (hi * 16 + lo) &&& 0x0F = lo := by
  have h1 : hi.toNat < 16 := hhi
  have h2 : lo.toNat < 16 := hlo
  have hval : (hi * 16 + lo).toNat = hi.toNat * 16 + lo.toNat := by
    rw [UInt8.toNat_add, UInt8.toNat_mul]
    simp only [UInt8.toNat_ofNat]
    omega
  constructor
  · apply UInt8.toNat_inj.mp
    rw [UInt8.toNat_shiftRight, hval, Nat.shiftRight_eq_div_pow]
    show (hi.toNat * 16 + lo.toNat) / 16 = hi.toNat
    omega
  · apply UInt8.toNat_inj.mp
    rw [UInt8.toNat_and, hval]
    show _ &&& (2 ^ 4 - 1) = _
    rw [Nat.and_two_pow_sub_one_eq_mod]
    omega

set_option maxRecDepth 8000 in
/-- The digits written for an escaped byte pass the scan. -/
theorem scan_written :
    isPcharUnreserved b = false → 0x20 ≤ b → b ≠ 0x7F → b ≠ slash →
      (!isAsciiHexdigit (upperHexNibble (b >>> 4)) ||
        !isAsciiHexdigit (upperHexNibble (b &&& 0x0F)) ||
        isAsciiLowercase (upperHexNibble (b >>> 4)) ||
        isAsciiLowercase (upperHexNibble (b &&& 0x0F))) = false ∧
      hexDigit (upperHexNibble (b >>> 4)) = some (b >>> 4) ∧
      hexDigit (upperHexNibble (b &&& 0x0F)) = some (b &&& 0x0F) ∧
      (b >>> 4) * 16 + (b &&& 0x0F) = b ∧ escapeRefused b = false := by
  revert b
  apply forall_byte
  decide

set_option maxRecDepth 8000 in
theorem literal_written :
    b ≠ semicolon → isPcharUnreserved b = true → isLiteralCanonicalPchar b = true := by
  revert b
  apply forall_byte
  decide

theorem scanRestPath_literal {b : UInt8} (hp : b ≠ percent)
    (hb : (b != slash && !isLiteralCanonicalPchar b) = false) (rest : Bytes) :
    scanRestPath (b :: rest) = scanRestPath rest := by
  rw [scanRestPath.eq_def]
  dsimp only
  rw [if_pos (by simpa using hp), if_neg (by rw [hb]; decide)]

/-- The scan passes over every written byte. -/
theorem scanRestPath_writeByte {b : UInt8} (hb : RestByte b) (rest : Bytes) :
    scanRestPath (writeByte b ++ rest) = scanRestPath rest := by
  rcases hb with rfl | ⟨hseg, hsemi⟩
  · exact scanRestPath_literal (by decide) (by decide) rest
  have hsl : b ≠ slash := by
    rcases hseg with ⟨-, hf⟩ | ⟨-, -, hne⟩
    · cases hf
    · exact hne
  rw [writeByte, if_neg (by simpa using hsl)]
  rcases hseg with ⟨-, hf⟩ | ⟨hlo, hdel, -⟩
  · cases hf
  have hsen : b ≠ encodedSlashSentinel := by
    rintro rfl
    exact absurd hlo (by decide)
  rw [encodeByte, if_neg (by simpa using hsen)]
  by_cases hpc : isPcharUnreserved b = true
  · rw [if_pos hpc]
    exact scanRestPath_literal (isPcharUnreserved_plain b hpc).2
      (by rw [literal_written b hsemi hpc]; simp) rest
  · obtain ⟨hdigits, hhi, hlo', hval, hpass⟩ :=
      scan_written b (by simpa using hpc) hlo hdel hsl
    rw [if_neg hpc, List.cons_append, List.cons_append, List.cons_append, List.nil_append,
      scanRestPath, if_neg (by decide), if_neg (by rw [hdigits]; decide)]
    simp only [hhi, hlo', hval]
    rw [if_neg (by rw [hpass]; decide)]

theorem scanRestPath_writePath :
    ∀ {bytes : Bytes}, (∀ b ∈ bytes, RestByte b) → scanRestPath (writePath bytes) = true
  | [], _ => rfl
  | b :: bytes, h => by
    rw [writePath_cons, scanRestPath_writeByte (h b List.mem_cons_self)]
    exact scanRestPath_writePath (List.forall_mem_cons.mp h).2

variable {path : Bytes}

/-- A path the scan passes over is the writing of some bytes. -/
theorem exists_writePath (h : scanRestPath path = true) :
    ∃ bytes, path = writePath bytes ∧ ∀ b ∈ bytes, RestByte b := by
  revert h
  fun_induction scanRestPath path with
  | case1 => exact fun _ => ⟨[], rfl, fun b hb => absurd hb List.not_mem_nil⟩
  | case3 b rest hp hb ih =>
    intro h
    obtain ⟨bytes, rfl, hbytes⟩ := ih h
    obtain ⟨hrest, hwrite⟩ := scan_literal b (by simpa using hp) (by simpa using hb)
    have hb' : RestByte b := by
      rcases hrest with hsl | ⟨hseg, hsemi⟩
      · exact Or.inl hsl
      · exact Or.inr ⟨Or.inr hseg, hsemi⟩
    exact ⟨b :: bytes, by rw [writePath_cons, hwrite]; rfl, List.forall_mem_cons.mpr ⟨hb', hbytes⟩⟩
  | case6 b hp h l rest' hdig hi lo hlo hhi hpass ih =>
    intro hok
    obtain ⟨bytes, rfl, hbytes⟩ := ih hok
    simp only [Bool.or_eq_true, not_or, Bool.not_eq_true, Bool.not_eq_false'] at hdig
    obtain ⟨hh, hhi16⟩ := eq_upperHexNibble h hdig.1.2 hi hhi
    obtain ⟨hl, hlo16⟩ := eq_upperHexNibble l hdig.2 lo hlo
    obtain ⟨hn1, hn2⟩ := nibbles hi lo hhi16 hlo16
    obtain ⟨⟨hseg, hsemi⟩, hwrite⟩ := scan_escape (hi * 16 + lo) (by simpa using hpass)
    have hpct : b = percent := by simpa using hp
    refine ⟨(hi * 16 + lo) :: bytes, ?_,
      List.forall_mem_cons.mpr ⟨Or.inr ⟨Or.inr hseg, hsemi⟩, hbytes⟩⟩
    rw [writePath_cons, hwrite, hn1, hn2, ← hh, ← hl, hpct]
    rfl
  | case2 | case4 | case5 | case7 | case8 => intro h; cases h

/-! ## Recognised paths are written canonical segments -/

/-- The options the proxy uses unless an endpoint opts into encoded slashes. -/
abbrev defaultOptions : CanonicalizeOptions := {}

theorem writePath_of_notMem {seg : Bytes} (h : slash ∉ seg) :
    writePath seg = encodeSegment seg := by
  unfold writePath encodeSegment
  rw [List.flatMap_congr]
  intro b hb
  have hne : b ≠ slash := fun e => h (e ▸ hb)
  rw [writeByte, if_neg (by simpa using hne)]

theorem writePath_intercalate :
    ∀ {segs : List Bytes}, (∀ seg ∈ segs, slash ∉ seg) →
      writePath ([slash].intercalate segs) = [slash].intercalate (segs.map encodeSegment)
  | [], _ => rfl
  | [seg], h => by
    rw [List.map_singleton, List.intercalate_singleton, List.intercalate_singleton,
      writePath_of_notMem (h seg List.mem_cons_self)]
  | seg :: seg' :: rest, h => by
    have ih := writePath_intercalate (List.forall_mem_cons.mp h).2
    have hseg := writePath_of_notMem (h seg List.mem_cons_self)
    rw [intercalate_cons_cons seg (by simp), List.map_cons,
      intercalate_cons_cons (encodeSegment seg) (by simp), ← ih, ← hseg]
    simp [writePath, writeByte]

/-- A doubled slash is an empty segment that is not the last. -/
theorem containsPair_intercalate :
    ∀ {texts : List Bytes}, (∀ text ∈ texts, slash ∉ text) →
      (containsPair slash slash (slash :: [slash].intercalate texts) = false ↔
        ∀ text ∈ texts.dropLast, text ≠ [])
  | [], _ => by simp [List.intercalate, containsPair]
  | [text], h => by
    have htext := containsPair_append (y := slash) [] (h text List.mem_cons_self)
    rw [List.append_nil] at htext
    rw [List.intercalate_singleton]
    cases text with
    | nil => simp [containsPair]
    | cons a rest =>
      have ha : a ≠ slash := fun e => h _ List.mem_cons_self (e ▸ List.mem_cons_self)
      rw [containsPair, htext]
      simp [ha, containsPair]
  | text :: text' :: rest, h => by
    have ih := containsPair_intercalate (List.forall_mem_cons.mp h).2
    have htext := h text List.mem_cons_self
    rw [intercalate_cons_cons _ (by simp), List.dropLast_cons_cons, List.forall_mem_cons, ← ih]
    cases text with
    | nil => simp [containsPair]
    | cons a text =>
      have ha : a ≠ slash := fun e => htext (e ▸ List.mem_cons_self)
      rw [List.cons_append, containsPair, ← List.cons_append, containsPair_append _ htext]
      simp [ha]

section

variable {segs : List Bytes}

/-- The written form of canonical segments is the canonical path. -/
theorem writePath_segments (h : CanonicalSegments defaultOptions segs) :
    buildCanonicalPath segs defaultOptions = writePath (slash :: [slash].intercalate segs) := by
  rw [buildCanonicalPath_eq h, writePath_cons, writePath_intercalate h.slash_notMem]
  rfl

/-- Every canonical path within the length bound is recognised. -/
theorem isCanonicalRestPath_build (h : CanonicalSegments defaultOptions segs)
    (hlen : (buildCanonicalPath segs defaultOptions).length ≤ maxPathLen) :
    isCanonicalRestPath (buildCanonicalPath segs defaultOptions) = true := by
  have hform := canonicalForm_build h
  have hbyte : ∀ b ∈ buildCanonicalPath segs defaultOptions, b ≠ question ∧ b ≠ hash := fun _ hc =>
    (pathByte_of_mem_build h hc).2.2
  have hpair : containsPair slash slash (buildCanonicalPath segs defaultOptions) = false := by
    rw [buildCanonicalPath_eq h, containsPair_intercalate slash_notMem_texts, ← List.map_dropLast]
    intro text ht he
    obtain ⟨seg, hseg, rfl⟩ := List.mem_map.mp ht
    exact h.inner seg hseg (eq_nil_of_encodeSegment he)
  have hscan : scanRestPath (buildCanonicalPath segs defaultOptions) = true := by
    rw [writePath_segments h]
    apply scanRestPath_writePath
    intro b hb
    rcases List.mem_cons.mp hb with rfl | hb
    · exact Or.inl rfl
    rcases mem_intercalate hb with rfl | ⟨seg, hseg, hb⟩
    · exact Or.inl rfl
    · exact Or.inr ⟨h.bytes seg hseg b hb, fun e => h.params rfl seg hseg (e ▸ hb)⟩
  have hsplit : (buildCanonicalPath segs defaultOptions).splitOn slash
      = [] :: splitPathSegments (buildCanonicalPath segs defaultOptions) := by
    rw [buildCanonicalPath_eq h, List.splitOn_cons_eq_if_modifyHead, if_pos (by decide)]
    rfl
  have hdots : ((buildCanonicalPath segs defaultOptions).splitOn slash).any
      (fun segment => segment == [dot] || segment == [dot, dot]) = false := by
    rw [hsplit, List.any_eq_false, List.forall_mem_cons]
    refine ⟨by decide, fun seg hseg => ?_⟩
    simp [hform.segments seg hseg]
  unfold isCanonicalRestPath
  rw [if_neg, if_neg, hscan]
  · rw [hdots, Bool.or_false]
    simp only [List.any_eq_true, not_exists, not_and, Bool.not_eq_true, Bool.not_eq_false',
      Bool.and_eq_true, decide_eq_true_eq]
    exact hform.bytes
  · have hsemi := hform.params rfl
    have hq : question ∉ buildCanonicalPath segs defaultOptions := fun hm => (hbyte _ hm).1 rfl
    have hh : hash ∉ buildCanonicalPath segs defaultOptions := fun hm => (hbyte _ hm).2 rfl
    have hne : buildCanonicalPath segs defaultOptions ≠ [] := by simp [buildCanonicalPath]
    have hlen' : ¬ (buildCanonicalPath segs defaultOptions).length > 4 * 1024 :=
      Nat.not_lt.mpr hlen
    simp only [List.contains_eq_mem, hsemi, hq, hh, hpair, hform.rooted, hlen', List.isEmpty_iff,
      hne, bne_self_eq_false, decide_false, Bool.or_false, not_false_iff]

end

set_option maxRecDepth 8000 in
/-- A written path that starts with `/` was written for one. -/
theorem eq_slash_cons {bytes : Bytes} (h : (writePath bytes).head? = some slash) :
    ∃ rest, bytes = slash :: rest := by
  cases bytes with
  | nil => cases h
  | cons b rest =>
    refine ⟨rest, ?_⟩
    have hhead : ∀ b : UInt8, (writeByte b).head? = some slash → b = slash := by
      apply forall_byte
      decide
    have hne : ∀ b : UInt8, writeByte b ≠ [] := by
      apply forall_byte
      decide
    rw [writePath_cons, List.head?_append_of_ne_nil _ (hne b)] at h
    rw [hhead b h]

/-- Segments of segment bytes whose text shows neither a doubled slash nor a dot
segment are canonical. -/
theorem canonicalSegments_of_text {segs : List Bytes} (hne : segs ≠ [])
    (hbytes : ∀ seg ∈ segs, ∀ b ∈ seg, SegByte false b ∧ b ≠ semicolon)
    (hpair : containsPair slash slash (slash :: [slash].intercalate (segs.map encodeSegment))
      = false)
    (hdots : ∀ seg ∈ segs, encodeSegment seg ≠ [dot] ∧ encodeSegment seg ≠ [dot, dot]) :
    CanonicalSegments defaultOptions segs where
  ne_nil := hne
  inner := by
    rw [containsPair_intercalate slash_notMem_texts, ← List.map_dropLast] at hpair
    rintro seg hseg rfl
    exact hpair _ (List.mem_map_of_mem hseg) rfl
  bytes := fun seg hseg b hb => (hbytes seg hseg b hb).1
  params := fun _ seg hseg hmem => (hbytes seg hseg _ hmem).2 rfl
  dots := by
    intro seg hseg
    have hsen : encodedSlashSentinel ∉ seg := by
      intro hmem
      rcases (hbytes seg hseg _ hmem).1 with ⟨-, hf⟩ | ⟨hlo, -⟩
      · cases hf
      · exact absurd hlo (by decide)
    have hone : seg.splitOn encodedSlashSentinel = [seg] := by
      have hjoin : ([encodedSlashSentinel].intercalate [seg]).splitOn
          encodedSlashSentinel = [seg] :=
        List.splitOn_intercalate encodedSlashSentinel (by simpa using hsen) (by simp)
      rwa [List.intercalate_singleton] at hjoin
    have hd : seg ≠ [dot] := fun e => (hdots seg hseg).1 (by rw [e]; rfl)
    have hdd : seg ≠ [dot, dot] := fun e => (hdots seg hseg).2 (by rw [e]; rfl)
    simp [hasResidualDot, hone, hd, hdd]

/-- The tests a recognised path has passed, and the scan of it. -/
theorem shape_of_isCanonicalRestPath (h : isCanonicalRestPath path = true) :
    (path.length ≤ 4 * 1024 ∧ path.head? = some slash ∧ containsPair slash slash path = false) ∧
      (semicolon ∉ path ∧ question ∉ path ∧ hash ∉ path) ∧ (∀ b ∈ path, b < 0x80) ∧
      (∀ segment ∈ path.splitOn slash, segment ≠ [dot] ∧ segment ≠ [dot, dot]) ∧
        scanRestPath path = true := by
  unfold isCanonicalRestPath at h
  obtain ⟨hshape, h⟩ := else_of_ite h nofun
  obtain ⟨hbytes, h⟩ := else_of_ite h nofun
  simp only [Bool.or_eq_true, not_or, decide_eq_true_eq, gt_iff_lt, not_lt, bne_iff_ne, ne_eq,
    not_not, Bool.not_eq_true, List.any_eq_false, List.contains_eq_mem,
    beq_iff_eq] at hshape hbytes
  obtain ⟨⟨⟨⟨⟨⟨-, hlen⟩, hroot⟩, hpair⟩, hsemi⟩, hquestion⟩, hhash⟩ := hshape
  refine ⟨⟨hlen, hroot, hpair⟩, ⟨hsemi, hquestion, hhash⟩, fun b hb => ?_, hbytes.2, h⟩
  have hrange : (decide (0x21 ≤ b) && decide (b ≤ 0x7E)) = true := by
    simpa using hbytes.1 b hb
  have hle : b ≤ 0x7E := of_decide_eq_true (Bool.and_eq_true_iff.mp hrange).2
  exact UInt8.lt_of_le_of_lt hle (by decide)

/-- Every recognised path is the text of canonical segments. -/
theorem exists_segments (h : isCanonicalRestPath path = true) :
    path.length ≤ maxPathLen ∧
      ∃ segs, CanonicalSegments defaultOptions segs ∧
        path = buildCanonicalPath segs defaultOptions := by
  obtain ⟨⟨hlen, hroot, hpair⟩, -, -, hdots, hscan⟩ := shape_of_isCanonicalRestPath h
  refine ⟨hlen, ?_⟩
  -- the leading slash is written for a slash, and the rest splits at the others
  obtain ⟨bytes, rfl, hrest⟩ := exists_writePath hscan
  obtain ⟨rest, rfl⟩ := eq_slash_cons hroot
  have hbyte : ∀ seg ∈ rest.splitOn slash, ∀ b ∈ seg, SegByte false b ∧ b ≠ semicolon := by
    intro seg hseg b hb
    obtain ⟨hmem, hne⟩ := mem_splitOn hseg hb
    rcases hrest b (List.mem_cons_of_mem _ hmem) with hsl | hok
    · exact absurd hsl hne
    · exact hok
  have htext : writePath (slash :: rest)
      = slash :: [slash].intercalate ((rest.splitOn slash).map encodeSegment) := by
    rw [← writePath_intercalate fun _ => notMem_of_mem_splitOn, List.intercalate_splitOn,
      writePath_cons]
    rfl
  have hsplit : (writePath (slash :: rest)).splitOn slash
      = [] :: (rest.splitOn slash).map encodeSegment := by
    rw [htext, List.splitOn_cons_eq_if_modifyHead, if_pos (by decide),
      List.splitOn_intercalate slash slash_notMem_texts (by simp)]
  have hcan : CanonicalSegments defaultOptions (rest.splitOn slash) := by
    refine canonicalSegments_of_text (List.splitOn_ne_nil _ _) hbyte (htext ▸ hpair) ?_
    rw [hsplit] at hdots
    exact fun seg hseg =>
      hdots (encodeSegment seg) (List.mem_cons_of_mem _ (List.mem_map_of_mem hseg))
  exact ⟨_, hcan, by rw [buildCanonicalPath_eq hcan, htext]⟩

theorem isCanonicalRestPath_iff_segments :
    isCanonicalRestPath path = true ↔ path.length ≤ maxPathLen ∧
      ∃ segs, CanonicalSegments defaultOptions segs ∧
        path = buildCanonicalPath segs defaultOptions := by
  constructor
  · exact exists_segments
  · rintro ⟨hlen, segs, hsegs, rfl⟩
    exact isCanonicalRestPath_build hsegs hlen

/-- **The prover's notion is the proxy's.** A path is recognised exactly when
the proxy canonicalizes it to itself, with no rewrite and no query. -/
theorem isCanonicalRestPath_iff {parseUri : Bytes → Option HttpUri}
    (huri : HttpUriSpec parseUri) (path : Bytes) :
    isCanonicalRestPath path = true ↔
      canonicalizeRequestTarget parseUri path defaultOptions = .ok (⟨path, false⟩, none) := by
  rw [isCanonicalRestPath_iff_segments]
  constructor
  · rintro ⟨hlen, segs, hsegs, rfl⟩
    exact canonicalizeRequestTarget_build huri hsegs hlen
  · intro h
    obtain ⟨hsweep, -, -, hlen, segs, hsegs, hc, hq⟩ := canonicalizeRequestTarget_eq_ok.mp h
    have hcan := canonicalSegments_spec (rawPath_bytes huri hsweep) hsegs
    obtain ⟨hpath, hrw⟩ := CanonicalPath.mk.inj hc
    have hraw : buildCanonicalPath segs defaultOptions = rawPath parseUri (splitQuery path).1 := by
      simpa using hrw.symm
    refine ⟨?_, segs, hcan, hpath⟩
    rw [hpath, hraw]
    exact hlen

/-- `/v1/a%20b` is recognised, so the proxy leaves it alone. -/
theorem isCanonicalRestPath_iff_instance :
    canonicalizeRequestTarget originFormOnly
      [slash, 0x76, 0x31, slash, 0x61, percent, 0x32, 0x30, 0x62] defaultOptions
      = .ok (⟨[slash, 0x76, 0x31, slash, 0x61, percent, 0x32, 0x30, 0x62], false⟩, none) :=
  (isCanonicalRestPath_iff originFormOnly_spec _).mp (by decide)

end OpenShell.Prover
