import OpenShell.L7.PathCanonical

/-!
# What a canonical path looks like

`CanonicalForm` states, on the text alone, what the rest of the proxy relies on
when it compares an already canonicalized path byte for byte: no empty inner
segment, no dot segment even between encoded slashes, printable bytes, and every
escape upper-case and necessary. The text of canonical segments has this form
(`canonicalForm_build`), because `encodeByte` writes each byte in one way only.
-/

namespace OpenShell.L7

/-! ## The form -/

/-- `%2F`, the text of a surviving encoded slash. -/
abbrev encodedSlash : Bytes := [percent, 0x32, 0x46]

/-- The parts of a segment between `%2F`s. -/
def splitEncodedSlash : Bytes → List Bytes
  | [] => [[]]
  | b :: rest =>
    match rest with
    | x :: y :: rest' =>
      if [b, x, y] == encodedSlash then [] :: splitEncodedSlash rest'
      else (splitEncodedSlash (x :: y :: rest')).modifyHead (b :: ·)
    | rest => (splitEncodedSlash rest).modifyHead (b :: ·)

/-- Every `%` starts an escape of two upper-case digits, and the escape is
needed: its byte may not stand literally. -/
def escapesCanonical : Bytes → Bool
  | [] => true
  | b :: rest =>
    if b == percent then
      match rest with
      | h :: l :: rest' =>
        (match decodeHex h, decodeHex l with
          | some hi, some lo =>
            !isAsciiLowercase h && !isAsciiLowercase l && !isPcharUnreserved ((hi <<< 4) ||| lo)
          | _, _ => false) && escapesCanonical rest'
      | _ => false
    else escapesCanonical rest

/-- The canonical form of a request path. -/
structure CanonicalForm (opts : CanonicalizeOptions) (path : Bytes) : Prop where
  rooted : path.head? = some slash
  inner : ∀ seg ∈ (splitPathSegments path).dropLast, seg ≠ []
  segments : ∀ seg ∈ splitPathSegments path, seg ≠ [dot] ∧ seg ≠ [dot, dot]
  parts : ∀ seg ∈ splitPathSegments path, ∀ part ∈ splitEncodedSlash seg,
    part ≠ [dot] ∧ part ≠ [dot, dot]
  bytes : ∀ b ∈ path, 0x21 ≤ b ∧ b ≤ 0x7E
  escapes : escapesCanonical path = true
  params : opts.stripPathParameters = true → semicolon ∉ path

/-! ## The text of one byte -/

variable {allow : Bool} {b : UInt8}

/-- The three ways a segment byte is written. -/
theorem encodeByte_cases (hb : SegByte allow b) :
    (b = encodedSlashSentinel ∧ encodeByte b = encodedSlash) ∨
      (b ≠ encodedSlashSentinel ∧ b ≠ percent ∧ encodeByte b = [b]) ∨
      (b ≠ encodedSlashSentinel ∧ b ≠ slash ∧ isPcharUnreserved b = false ∧
        encodeByte b = [percent, upperHexNibble (b >>> 4), upperHexNibble (b &&& 0x0F)]) := by
  by_cases hsen : b = encodedSlashSentinel
  · subst hsen
    exact Or.inl ⟨rfl, rfl⟩
  have hsl : b ≠ slash := by
    rcases hb with ⟨he, _⟩ | ⟨_, _, hne⟩
    · exact absurd he hsen
    · exact hne
  by_cases hp : isPcharUnreserved b = true
  · refine Or.inr (Or.inl ⟨hsen, (isPcharUnreserved_plain b hp).2, ?_⟩)
    rw [encodeByte, if_neg (by simpa using hsen), if_pos hp]
  · refine Or.inr (Or.inr ⟨hsen, hsl, by simpa using hp, ?_⟩)
    rw [encodeByte, if_neg (by simpa using hsen), if_neg hp]

set_option maxRecDepth 8000 in
/-- The digits of an escape: upper-case, not a `%`, and those of `/` only for
`/`. -/
theorem upperHexNibble_digits (b : UInt8) :
    isAsciiLowercase (upperHexNibble (b >>> 4)) = false ∧
      isAsciiLowercase (upperHexNibble (b &&& 0x0F)) = false ∧
      upperHexNibble (b >>> 4) ≠ percent ∧ upperHexNibble (b &&& 0x0F) ≠ percent ∧
      (upperHexNibble (b >>> 4) = 0x32 → upperHexNibble (b &&& 0x0F) = 0x46 → b = slash) := by
  revert b
  apply forall_byte
  decide

theorem escapesCanonical_cons (h : b ≠ percent) (rest : Bytes) :
    escapesCanonical (b :: rest) = escapesCanonical rest := by
  rw [escapesCanonical.eq_def]
  dsimp only
  rw [if_neg (by simpa using h)]

/-- Each byte is written with a necessary upper-case escape, or with none. -/
theorem escapesCanonical_encodeByte (hb : SegByte allow b)
    (rest : Bytes) : escapesCanonical (encodeByte b ++ rest) = escapesCanonical rest := by
  rcases encodeByte_cases hb with ⟨-, he⟩ | ⟨-, hp, he⟩ | ⟨-, -, hpc, he⟩
  · rw [he]
    rfl
  · rw [he]
    exact escapesCanonical_cons hp rest
  · obtain ⟨hhi, hlo, hval⟩ := decodeHex_upperHexNibble b
    obtain ⟨hl1, hl2, -⟩ := upperHexNibble_digits b
    rw [he, List.cons_append, List.cons_append, List.cons_append, List.nil_append,
      escapesCanonical, if_pos (by decide), hhi, hlo]
    simp only [hl1, hl2, hval, hpc, Bool.not_false, Bool.and_true, Bool.true_and]

theorem splitEncodedSlash_cons (h : b ≠ percent) (rest : Bytes) :
    splitEncodedSlash (b :: rest) = (splitEncodedSlash rest).modifyHead (b :: ·) := by
  rw [splitEncodedSlash.eq_def]
  dsimp only
  split
  next x y rest' =>
    rw [if_neg]
    intro he
    simp only [beq_iff_eq, List.cons.injEq] at he
    exact h he.1
  next => rfl

/-- Only the sentinel is written as a separator. -/
theorem splitEncodedSlash_encodeByte (hb : SegByte allow b)
    (rest : Bytes) :
    splitEncodedSlash (encodeByte b ++ rest)
      = if b = encodedSlashSentinel then [] :: splitEncodedSlash rest
        else (splitEncodedSlash rest).modifyHead (encodeByte b ++ ·) := by
  rcases encodeByte_cases hb with ⟨rfl, he⟩ | ⟨hsen, hp, he⟩ | ⟨hsen, hsl, -, he⟩
  · rw [he, if_pos rfl]
    rfl
  · rw [he, if_neg hsen]
    exact splitEncodedSlash_cons hp rest
  · obtain ⟨-, -, hp1, hp2, hval⟩ := upperHexNibble_digits b
    rw [he, if_neg hsen, List.cons_append, List.cons_append, List.cons_append, List.nil_append,
      splitEncodedSlash, if_neg, splitEncodedSlash_cons hp1, splitEncodedSlash_cons hp2]
    · cases splitEncodedSlash rest <;> rfl
    · intro h
      simp only [beq_iff_eq, List.cons.injEq, and_true, true_and] at h
      exact hsl (hval h.1 h.2)

theorem encodedSlash_infix_cons {rest : Bytes} (h : b ≠ percent) :
    encodedSlash <:+: b :: rest ↔ encodedSlash <:+: rest := by
  rw [List.infix_cons_iff, or_iff_right]
  intro hpre
  exact h (List.cons_prefix_cons.mp hpre).1.symm

/-- The text of `%2F` starts nowhere but at a written sentinel. -/
theorem encodedSlash_infix_encodeByte (hb : SegByte allow b)
    (rest : Bytes) :
    encodedSlash <:+: encodeByte b ++ rest ↔
      b = encodedSlashSentinel ∨ encodedSlash <:+: rest := by
  rcases encodeByte_cases hb with ⟨rfl, he⟩ | ⟨hsen, hp, he⟩ | ⟨hsen, hsl, -, he⟩
  · rw [he]
    simp only [true_or, iff_true]
    exact List.infix_append [] encodedSlash rest
  · rw [he, or_iff_right hsen]
    exact encodedSlash_infix_cons hp
  · obtain ⟨-, -, hp1, hp2, hval⟩ := upperHexNibble_digits b
    rw [he, or_iff_right hsen, List.cons_append, List.cons_append, List.cons_append,
      List.nil_append, List.infix_cons_iff, encodedSlash_infix_cons hp1,
      encodedSlash_infix_cons hp2, or_iff_right]
    intro hpre
    obtain ⟨-, hpre⟩ := List.cons_prefix_cons.mp hpre
    obtain ⟨h1, hpre⟩ := List.cons_prefix_cons.mp hpre
    obtain ⟨h2, -⟩ := List.cons_prefix_cons.mp hpre
    exact hsl (hval h1.symm h2.symm)

/-! ## The text of segments -/

theorem encodeSegment_cons (b : UInt8) (seg : Bytes) :
    encodeSegment (b :: seg) = encodeByte b ++ encodeSegment seg := by
  simp [encodeSegment]

section
variable {P : Bytes → Prop} {Q : UInt8 → Prop}
  (hbyte : ∀ {b}, SegByte allow b → ∀ rest, P (encodeByte b ++ rest) ↔ Q b ∨ P rest)
include hbyte

/-- What looks at the bytes of a text one by one sees those of the segment. -/
theorem encodeSegment_iff (rest : Bytes) :
    ∀ {seg : Bytes}, (∀ b ∈ seg, SegByte allow b) →
      (P (encodeSegment seg ++ rest) ↔ (∃ b ∈ seg, Q b) ∨ P rest)
  | [], _ => by simp [encodeSegment]
  | b :: seg, h => by
    obtain ⟨hb, hseg⟩ := List.forall_mem_cons.mp h
    rw [encodeSegment_cons, List.append_assoc, hbyte hb, encodeSegment_iff rest hseg,
      List.exists_mem_cons_iff, or_assoc]

theorem intercalate_encodeSegment_iff (hslash : ∀ rest, P (slash :: rest) ↔ P rest) :
    ∀ {segs : List Bytes}, (∀ seg ∈ segs, ∀ b ∈ seg, SegByte allow b) →
      (P ([slash].intercalate (segs.map encodeSegment)) ↔ (∃ seg ∈ segs, ∃ b ∈ seg, Q b) ∨ P [])
  | [], _ => by simp [List.intercalate]
  | [seg], h => by
    have hs := encodeSegment_iff hbyte [] (List.forall_mem_singleton.mp h)
    rw [List.append_nil] at hs
    rw [List.map_singleton, List.intercalate_singleton, hs]
    simp
  | seg :: seg' :: rest, h => by
    obtain ⟨hseg, hrest⟩ := List.forall_mem_cons.mp h
    rw [List.map_cons, intercalate_cons_cons _ (by simp), encodeSegment_iff hbyte _ hseg, hslash,
      intercalate_encodeSegment_iff hslash hrest, ← or_assoc, List.exists_mem_cons_iff _ seg]

end

/-- The parts of a written segment are the written parts of the segment. -/
theorem splitEncodedSlash_encodeSegment :
    ∀ {seg : Bytes}, (∀ b ∈ seg, SegByte allow b) →
      splitEncodedSlash (encodeSegment seg) = (seg.splitOn encodedSlashSentinel).map encodeSegment
  | [], _ => rfl
  | b :: seg, h => by
    have ih := splitEncodedSlash_encodeSegment (List.forall_mem_cons.mp h).2
    rw [encodeSegment_cons, splitEncodedSlash_encodeByte (h b List.mem_cons_self), ih,
      List.splitOn_cons_eq_if_modifyHead]
    by_cases hb : b = encodedSlashSentinel
    · rw [if_pos hb, if_pos (by simpa using hb)]
      rfl
    · rw [if_neg hb, if_neg (by simpa using hb)]
      cases hs : seg.splitOn encodedSlashSentinel with
      | nil => rfl
      | cons part parts => simp [encodeSegment_cons]

variable {segs : List Bytes}

theorem slash_notMem_texts :
    ∀ text ∈ segs.map encodeSegment, slash ∉ text := by
  intro text ht hmem
  obtain ⟨seg, -, rfl⟩ := List.mem_map.mp ht
  obtain ⟨b, -, hb⟩ := List.mem_flatMap.mp hmem
  exact (encodeByte_pathByte b slash hb).2 rfl

variable {seg : Bytes}

theorem eq_nil_of_encodeSegment (h : encodeSegment seg = []) : seg = [] := by
  cases seg with
  | nil => rfl
  | cons b seg =>
    have hne : encodeByte b ≠ [] := by
      unfold encodeByte
      split
      · simp
      · split <;> simp
    rw [encodeSegment_cons, List.append_eq_nil_iff] at h
    exact absurd h.1 hne

/-- Written segments differ where the segments do, so a segment written as a
literal text is that text. -/
theorem eq_of_encodeSegment {text : Bytes} (h : ∀ b ∈ seg, SegByte allow b)
    (ht : percentDecodeWithSentinel allow text = .ok text) (he : encodeSegment seg = text) :
    seg = text := by
  have hd := decode_encodeSegment h []
  rw [List.append_nil, he, ht] at hd
  have : text = seg ++ [] := Except.ok.inj hd
  rw [this, List.append_nil]

/-! ## The text of the path -/

theorem escapesCanonical_intercalate (h : ∀ seg ∈ segs, ∀ b ∈ seg, SegByte allow b) :
    escapesCanonical ([slash].intercalate (segs.map encodeSegment)) = true := by
  refine (intercalate_encodeSegment_iff (P := (escapesCanonical · = true)) (Q := fun _ => False)
    (fun hb rest => ?_) (fun rest => ?_) h).mpr (Or.inr rfl)
  · rw [escapesCanonical_encodeByte hb, false_or]
  · rw [escapesCanonical_cons (by decide)]

theorem encodedSlash_infix_intercalate (h : ∀ seg ∈ segs, ∀ b ∈ seg, SegByte allow b) :
    encodedSlash <:+: [slash].intercalate (segs.map encodeSegment) ↔
      ∃ seg ∈ segs, encodedSlashSentinel ∈ seg := by
  refine (intercalate_encodeSegment_iff (P := (encodedSlash <:+: ·)) encodedSlash_infix_encodeByte
    (fun _ => encodedSlash_infix_cons (by decide)) h).trans ?_
  rw [or_iff_left (by decide)]
  simp only [exists_eq_right]

section

variable {opts : CanonicalizeOptions} {segs : List Bytes} (h : CanonicalSegments opts segs)
include h

/-- The path splits back into the written segments. -/
theorem splitPathSegments_build :
    splitPathSegments (buildCanonicalPath segs opts) = segs.map encodeSegment := by
  rw [buildCanonicalPath_eq h, splitPathSegments, List.tail_cons,
    List.splitOn_intercalate slash slash_notMem_texts (by simpa using h.ne_nil)]

/-- Every byte of the path is the leading slash, a separator, or written for a
byte of a segment. -/
theorem mem_buildCanonicalPath {c : UInt8}
    (hc : c ∈ buildCanonicalPath segs opts) :
    c = slash ∨ ∃ seg ∈ segs, ∃ b ∈ seg, c ∈ encodeByte b := by
  rw [buildCanonicalPath_eq h] at hc
  rcases List.mem_cons.mp hc with rfl | hc
  · exact Or.inl rfl
  rcases mem_intercalate hc with rfl | ⟨text, ht, hc⟩
  · exact Or.inl rfl
  · obtain ⟨seg, hseg, rfl⟩ := List.mem_map.mp ht
    exact Or.inr ⟨seg, hseg, List.mem_flatMap.mp hc⟩

theorem pathByte_of_mem_build {c : UInt8} (hc : c ∈ buildCanonicalPath segs opts) : PathByte c := by
  rcases mem_buildCanonicalPath h hc with rfl | ⟨_, _, b, _, hb⟩
  · decide
  · exact (encodeByte_pathByte b c hb).1

/-- No written part of a canonical segment is a dot segment. -/
theorem parts_encodeSegment (hseg : seg ∈ segs)
    {part : Bytes} (hp : part ∈ splitEncodedSlash (encodeSegment seg)) :
    part ≠ [dot] ∧ part ≠ [dot, dot] := by
  rw [splitEncodedSlash_encodeSegment (h.bytes seg hseg)] at hp
  obtain ⟨part, hpart, rfl⟩ := List.mem_map.mp hp
  have hbytes : ∀ b ∈ part, SegByte opts.allowEncodedSlash b :=
    fun b hb => h.bytes seg hseg b (mem_splitOn hpart hb).1
  have hdots := h.dots seg hseg
  simp only [hasResidualDot, List.any_eq_false, Bool.or_eq_true, beq_iff_eq, not_or] at hdots
  obtain ⟨hdd, hd⟩ := hdots part hpart
  exact ⟨fun he => hd (eq_of_encodeSegment hbytes rfl he),
    fun he => hdd (eq_of_encodeSegment hbytes rfl he)⟩

/-- **The text of canonical segments is in canonical form.** -/
theorem canonicalForm_build :
    CanonicalForm opts (buildCanonicalPath segs opts) where
  rooted := rfl
  inner := by
    rw [splitPathSegments_build h, ← List.map_dropLast]
    intro text ht he
    obtain ⟨seg, hseg, rfl⟩ := List.mem_map.mp ht
    exact h.inner seg hseg (eq_nil_of_encodeSegment he)
  segments := by
    rw [splitPathSegments_build h]
    intro text ht
    obtain ⟨seg, hseg, rfl⟩ := List.mem_map.mp ht
    constructor
    · intro he
      exact (parts_encodeSegment h hseg (by rw [he]; exact List.mem_singleton.mpr rfl)).1 rfl
    · intro he
      exact (parts_encodeSegment h hseg (by rw [he]; exact List.mem_singleton.mpr rfl)).2 rfl
  parts := by
    rw [splitPathSegments_build h]
    intro text ht part hp
    obtain ⟨seg, hseg, rfl⟩ := List.mem_map.mp ht
    exact parts_encodeSegment h hseg hp
  bytes c hc := by
    have hbyte := pathByte_of_mem_build h hc
    exact ⟨hbyte.1, hbyte.2.1⟩
  escapes := by
    rw [buildCanonicalPath_eq h, escapesCanonical_cons (by decide)]
    exact escapesCanonical_intercalate h.bytes
  params := by
    intro hp hc
    rcases mem_buildCanonicalPath h hc with he | ⟨seg, hseg, b, hbs, hb⟩
    · exact absurd he (by decide)
    · exact h.params hp seg hseg (encodeByte_semicolon b hb ▸ hbs)

end

end OpenShell.L7
