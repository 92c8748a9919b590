import OpenShell.Util.Search
import OpenShell.Util.Bytes

/-!
# Reading bytes as text

UTF-8 validation and lossy decoding, as the standard library does both: a byte
string falls into chunks, each a whole character or the longest start of one.
ASCII is never part of a longer chunk, so an ASCII byte always cuts a text in
two (`isUtf8_append_ascii`, `fromUtf8Lossy_append_ascii`) and an ASCII needle
is found in the decoded text exactly where it is in the bytes
(`containsSub_fromUtf8Lossy`).
-/

namespace OpenShell

/-- The ranges of the bytes that follow a lead byte, one for each byte; `none`
for a byte that cannot start a character. -/
def tailRanges (lead : UInt8) : Option (List (UInt8 × UInt8)) :=
  if lead < 0x80 then some []
  else if 0xC2 ≤ lead && lead ≤ 0xDF then some [(0x80, 0xBF)]
  else if lead == 0xE0 then some [(0xA0, 0xBF), (0x80, 0xBF)]
  else if lead == 0xED then some [(0x80, 0x9F), (0x80, 0xBF)]
  else if 0xE1 ≤ lead && lead ≤ 0xEF then some [(0x80, 0xBF), (0x80, 0xBF)]
  else if lead == 0xF0 then some [(0x90, 0xBF), (0x80, 0xBF), (0x80, 0xBF)]
  else if 0xF1 ≤ lead && lead ≤ 0xF3 then some [(0x80, 0xBF), (0x80, 0xBF), (0x80, 0xBF)]
  else if lead == 0xF4 then some [(0x80, 0x8F), (0x80, 0xBF), (0x80, 0xBF)]
  else none

/-- How many leading bytes lie in their ranges. -/
def matchRanges : List (UInt8 × UInt8) → Bytes → Nat
  | range :: ranges, b :: bytes =>
    if range.1 ≤ b && b ≤ range.2 then matchRanges ranges bytes + 1 else 0
  | _, _ => 0

/-- The chunk that starts with a lead byte: the number of bytes it takes after
it, and whether it is a whole character. -/
def firstChunk (lead : UInt8) (rest : Bytes) : Nat × Bool :=
  match tailRanges lead with
  | none => (0, false)
  | some ranges => (matchRanges ranges rest, matchRanges ranges rest == ranges.length)

/-- `str::from_utf8(..).is_ok()`, on at most `fuel` chunks. -/
def wholeChunks : Nat → Bytes → Bool
  | _, [] => true
  | 0, _ => false
  | fuel + 1, lead :: rest =>
    (firstChunk lead rest).2 && wholeChunks fuel (rest.drop (firstChunk lead rest).1)

def isUtf8 (bytes : Bytes) : Bool := wholeChunks bytes.length bytes

/-- A chunk as `String::from_utf8_lossy` writes it: itself, or U+FFFD. -/
def lossyChunk (lead : UInt8) (rest : Bytes) : Bytes :=
  if (firstChunk lead rest).2 then lead :: rest.take (firstChunk lead rest).1 else
    [0xEF, 0xBF, 0xBD]

def lossyChunks : Nat → Bytes → Bytes
  | _, [] => []
  | 0, _ => []
  | fuel + 1, lead :: rest =>
    lossyChunk lead rest ++ lossyChunks fuel (rest.drop (firstChunk lead rest).1)

/-- `String::from_utf8_lossy`. -/
def fromUtf8Lossy (bytes : Bytes) : Bytes := lossyChunks bytes.length bytes

/-- `str::is_char_boundary`. -/
def isCharBoundary (text : Bytes) (i : Nat) : Bool :=
  i == 0 || i == text.length || text[i]?.any fun b => !(0x80 ≤ b && b < 0xC0)

/-! ## Chunks -/

set_option maxRecDepth 8000 in
/-- The bytes of a character after its first are continuation bytes. -/
theorem tailRanges_spec (lead : UInt8) :
    ∀ ranges ∈ tailRanges lead, ∀ range ∈ ranges, 0x80 ≤ range.1 ∧ range.2 < 0xC0 := by
  have hall : ∀ lead, ((tailRanges lead).all fun ranges =>
      ranges.all fun range => decide (0x80 ≤ range.1 ∧ range.2 < 0xC0)) = true :=
    forall_byte (by decide)
  intro ranges hranges range hrange
  have hlead := hall lead
  rw [Option.mem_def.mp hranges] at hlead
  exact of_decide_eq_true (List.all_eq_true.mp hlead range hrange)

theorem matchRanges_le_length :
    ∀ (ranges : List (UInt8 × UInt8)) (bytes : Bytes), matchRanges ranges bytes ≤ bytes.length
  | [], [] | [], _ :: _ | _ :: _, [] => Nat.zero_le _
  | _ :: ranges, _ :: bytes => by
    rw [matchRanges]
    split
    · exact Nat.succ_le_succ (matchRanges_le_length ranges bytes)
    · exact Nat.zero_le _

theorem firstChunk_le_length (lead : UInt8) (rest : Bytes) :
    (firstChunk lead rest).1 ≤ rest.length := by
  unfold firstChunk
  split
  · exact Nat.zero_le _
  · exact matchRanges_le_length _ _

theorem length_drop_firstChunk_le (lead : UInt8) (rest : Bytes) :
    (rest.drop (firstChunk lead rest).1).length ≤ rest.length :=
  List.length_drop ▸ Nat.sub_le _ _

variable {lead : UInt8}

theorem firstChunk_ascii (h : lead < 0x80) (rest : Bytes) :
    firstChunk lead rest = (0, true) := by
  have hranges : tailRanges lead = some [] := if_pos h
  cases rest <;> simp [firstChunk, hranges, matchRanges]

variable {c : UInt8}

theorem matchRanges_append_ascii (hc : c < 0x80) (after : Bytes) :
    ∀ {ranges : List (UInt8 × UInt8)} (rest : Bytes), (∀ range ∈ ranges, 0x80 ≤ range.1) →
      matchRanges ranges (rest ++ c :: after) = matchRanges ranges rest
  | [], [], _ | [], _ :: _, _ => rfl
  | range :: _, [], h => by
    have hlow : ¬ range.1 ≤ c := fun hle =>
      absurd (UInt8.lt_of_le_of_lt (UInt8.le_trans (h range List.mem_cons_self) hle) hc) (by decide)
    simp [matchRanges, hlow]
  | range :: ranges, b :: rest, h => by
    have ih := matchRanges_append_ascii hc after rest (List.forall_mem_cons.mp h).2
    simp only [List.cons_append, matchRanges, ih]

/-- A chunk ends before the next ASCII byte. -/
theorem firstChunk_append_ascii (hc : c < 0x80) (lead : UInt8) (rest after : Bytes) :
    firstChunk lead (rest ++ c :: after) = firstChunk lead rest := by
  unfold firstChunk
  split
  next => rfl
  next ranges hranges =>
    rw [matchRanges_append_ascii hc after rest fun range hrange =>
      (tailRanges_spec lead ranges hranges range hrange).1]

theorem matchRanges_append (after : Bytes) :
    ∀ {ranges : List (UInt8 × UInt8)} {rest : Bytes}, matchRanges ranges rest = ranges.length →
      matchRanges ranges (rest ++ after) = ranges.length
  | [], _, _ => by simp [matchRanges]
  | _ :: _, [], h => by simp [matchRanges] at h
  | range :: ranges, b :: rest, h => by
    rw [matchRanges] at h
    split at h
    next hb =>
      rw [List.cons_append, matchRanges, if_pos hb, matchRanges_append after (Nat.succ.inj h)]
      rfl
    next => simp at h

variable {rest : Bytes}

/-- A whole character is read the same whatever follows it. -/
theorem firstChunk_append (h : (firstChunk lead rest).2 = true)
    (after : Bytes) : firstChunk lead (rest ++ after) = firstChunk lead rest := by
  unfold firstChunk at *
  split at h
  next => cases h
  next ranges _ =>
    have hlen : matchRanges ranges rest = ranges.length := by simpa using h
    rw [matchRanges_append after hlen, hlen]

variable {b : UInt8}

/-- A chunk goes on with continuation bytes. -/
theorem continuation_of_mem_chunk (h : b ∈ rest.take (firstChunk lead rest).1) :
    0x80 ≤ b ∧ b < 0xC0 := by
  unfold firstChunk at h
  split at h
  next => simp at h
  next ranges hranges =>
    have hrange := tailRanges_spec lead ranges hranges
    clear hranges
    induction rest generalizing ranges with
    | nil => simp at h
    | cons c rest ih =>
      cases ranges with
      | nil => simp [matchRanges] at h
      | cons range ranges =>
        simp only [matchRanges] at h
        split at h
        next hc =>
          rw [List.take_succ_cons] at h
          rcases List.mem_cons.mp h with rfl | h
          · simp only [Bool.and_eq_true, decide_eq_true_eq] at hc
            obtain ⟨hlow, hhigh⟩ := hrange range List.mem_cons_self
            exact ⟨UInt8.le_trans hlow hc.1, UInt8.lt_of_le_of_lt hc.2 hhigh⟩
          · exact ih ranges h (List.forall_mem_cons.mp hrange).2
        next => simp at h

theorem not_ascii_of_mem_chunk (h : b ∈ rest.take (firstChunk lead rest).1) : 0x80 ≤ b :=
  (continuation_of_mem_chunk h).1

/-- Induction over the chunks of a byte string. -/
@[elab_as_elim]
theorem chunks_induction {motive : Bytes → Prop} (bytes : Bytes) (nil : motive [])
    (chunk : ∀ lead rest, motive (rest.drop (firstChunk lead rest).1) → motive (lead :: rest)) :
    motive bytes := by
  induction hn : bytes.length using Nat.strong_induction_on generalizing bytes with
  | _ n ih =>
    cases bytes with
    | nil => exact nil
    | cons lead rest =>
      have hlt : (rest.drop (firstChunk lead rest).1).length < n :=
        hn ▸ Nat.lt_succ_of_le (length_drop_firstChunk_le lead rest)
      exact chunk lead rest (ih _ hlt _ rfl)

/-! ## Valid text -/

variable {fuel fuel' : Nat} {bytes : Bytes}

/-- A function that takes the chunks one by one does not depend on the fuel that is left over. -/
theorem chunks_fuel {β : Type} {f : Nat → Bytes → β} {g : UInt8 → Bytes → β → β}
    (hnil : ∀ fuel, f fuel [] = f 0 []) (hcons : ∀ fuel lead rest,
      f (fuel + 1) (lead :: rest) = g lead rest (f fuel (rest.drop (firstChunk lead rest).1)))
    (h : bytes.length ≤ fuel) (h' : bytes.length ≤ fuel') : f fuel bytes = f fuel' bytes := by
  induction bytes using chunks_induction generalizing fuel fuel' with
  | nil => rw [hnil, hnil fuel']
  | chunk lead rest ih =>
    cases fuel with
    | zero => cases h
    | succ fuel =>
      cases fuel' with
      | zero => cases h'
      | succ fuel' =>
        have hle := length_drop_firstChunk_le lead rest
        have hrest : rest.length ≤ fuel := Nat.le_of_succ_le_succ h
        have hrest' : rest.length ≤ fuel' := Nat.le_of_succ_le_succ h'
        rw [hcons, hcons, ih (Nat.le_trans hle hrest) (Nat.le_trans hle hrest')]

theorem wholeChunks_fuel (h : bytes.length ≤ fuel) (h' : bytes.length ≤ fuel') :
    wholeChunks fuel bytes = wholeChunks fuel' bytes :=
  chunks_fuel (fun fuel => by cases fuel <;> rfl) (fun _ _ _ => rfl) h h'

theorem isUtf8_cons (lead : UInt8) (rest : Bytes) :
    isUtf8 (lead :: rest) =
      ((firstChunk lead rest).2 && isUtf8 (rest.drop (firstChunk lead rest).1)) := by
  have hfuel := length_drop_firstChunk_le lead rest
  rw [isUtf8, List.length_cons, wholeChunks, isUtf8, wholeChunks_fuel hfuel (Nat.le_refl _)]

/-- An ASCII byte splits a text into two texts. -/
theorem isUtf8_append_ascii (hc : c < 0x80) (after : Bytes) (before : Bytes) :
    isUtf8 (before ++ c :: after) = (isUtf8 before && isUtf8 after) := by
  induction before using chunks_induction with
  | nil => rw [List.nil_append, isUtf8_cons, firstChunk_ascii hc]; rfl
  | chunk lead rest ih =>
    rw [List.cons_append, isUtf8_cons, isUtf8_cons, firstChunk_append_ascii hc,
      List.drop_append_of_le_length (firstChunk_le_length lead rest), ih, Bool.and_assoc]

/-- A text starts another text that goes on with a text. -/
theorem isUtf8_append {before : Bytes} (h : isUtf8 before = true) (after : Bytes) :
    isUtf8 (before ++ after) = isUtf8 after := by
  induction before using chunks_induction with
  | nil => rfl
  | chunk lead rest ih =>
    rw [isUtf8_cons, Bool.and_eq_true] at h
    rw [List.cons_append, isUtf8_cons, firstChunk_append h.1, h.1,
      List.drop_append_of_le_length (firstChunk_le_length lead rest), ih h.2, Bool.true_and]

variable {text : Bytes}

theorem isUtf8_of_ascii (h : ∀ b ∈ text, b < 0x80) : isUtf8 text = true := by
  induction text with
  | nil => rfl
  | cons b text ih =>
    have hsplit := isUtf8_append_ascii (h b List.mem_cons_self) text []
    rw [List.nil_append] at hsplit
    rw [hsplit, ih (List.forall_mem_cons.mp h).2]
    rfl

set_option maxRecDepth 8000 in
theorem tailRanges_continuation :
    ∀ lead : UInt8, (0x80 ≤ lead && lead < 0xC0) = true → tailRanges lead = none :=
  forall_byte (by decide)

variable {i : Nat}

/-- A text may be cut where what follows is a text. -/
theorem isCharBoundary_of_isUtf8_drop (hi : i ≤ text.length)
    (h : isUtf8 (text.drop i) = true) : isCharBoundary text i = true := by
  rcases Nat.lt_or_eq_of_le hi with hlt | rfl
  · rw [List.drop_eq_getElem_cons hlt, isUtf8_cons, Bool.and_eq_true] at h
    have hlead : (0x80 ≤ text[i] && text[i] < 0xC0) = false := by
      rw [← Bool.not_eq_true]
      intro hcont
      simp only [firstChunk, tailRanges_continuation _ hcont] at h
      exact absurd h.1 Bool.false_ne_true
    simp only [isCharBoundary, List.getElem?_eq_getElem hlt, Option.any_some, hlead, Bool.not_false,
      Bool.or_true]
  · simp [isCharBoundary]

theorem isCharBoundary_of_ascii (h : text[i]? = some b)
    (hb : b < 0x80) : isCharBoundary text i = true := by
  have hlow : ¬ 0x80 ≤ b := UInt8.not_le.mpr hb
  simp [isCharBoundary, h, hlow]

/-! ## Lossy decoding -/

theorem lossyChunks_fuel (h : bytes.length ≤ fuel) (h' : bytes.length ≤ fuel') :
    lossyChunks fuel bytes = lossyChunks fuel' bytes :=
  chunks_fuel (fun fuel => by cases fuel <;> rfl) (fun _ _ _ => rfl) h h'

theorem fromUtf8Lossy_cons (lead : UInt8) (rest : Bytes) :
    fromUtf8Lossy (lead :: rest) =
      lossyChunk lead rest ++ fromUtf8Lossy (rest.drop (firstChunk lead rest).1) := by
  have hfuel := length_drop_firstChunk_le lead rest
  rw [fromUtf8Lossy, List.length_cons, lossyChunks, fromUtf8Lossy,
    lossyChunks_fuel hfuel (Nat.le_refl _)]

theorem fromUtf8Lossy_cons_ascii (hc : c < 0x80) (rest : Bytes) :
    fromUtf8Lossy (c :: rest) = c :: fromUtf8Lossy rest := by
  rw [fromUtf8Lossy_cons, lossyChunk, firstChunk_ascii hc]
  rfl

/-- Valid text decodes to itself. -/
theorem fromUtf8Lossy_of_isUtf8 (h : isUtf8 text = true) : fromUtf8Lossy text = text := by
  induction text using chunks_induction with
  | nil => rfl
  | chunk lead rest ih =>
    rw [isUtf8_cons, Bool.and_eq_true] at h
    rw [fromUtf8Lossy_cons, ih h.2, lossyChunk, if_pos h.1, List.cons_append, List.take_append_drop]

theorem matchRanges_take : ∀ (ranges : List (UInt8 × UInt8)) (bytes : Bytes),
    matchRanges ranges (bytes.take (matchRanges ranges bytes)) = matchRanges ranges bytes
  | [], [] | [], _ :: _ | _ :: _, [] => by simp [matchRanges]
  | range :: ranges, b :: bytes => by
    simp only [matchRanges]
    split
    next hb => rw [List.take_succ_cons, matchRanges, if_pos hb, matchRanges_take ranges bytes]
    next => rfl

/-- A chunk alone is the chunk it was. -/
theorem firstChunk_take (lead : UInt8) (rest : Bytes) :
    firstChunk lead (rest.take (firstChunk lead rest).1) = firstChunk lead rest := by
  unfold firstChunk
  split
  next => rfl
  next ranges _ => rw [matchRanges_take]

/-- A decoded text is valid. -/
theorem isUtf8_fromUtf8Lossy (bytes : Bytes) : isUtf8 (fromUtf8Lossy bytes) = true := by
  induction bytes using chunks_induction with
  | nil => rfl
  | chunk lead rest ih =>
    have hchunk : isUtf8 (lossyChunk lead rest) = true := by
      unfold lossyChunk
      split
      next hwhole =>
        rw [isUtf8_cons, firstChunk_take, hwhole, List.drop_take_self]
        rfl
      next => decide
    rw [fromUtf8Lossy_cons, isUtf8_append hchunk, ih]

/-! ## Cutting a text -/

theorem isCharBoundary_drop {n : Nat} (hn : n ≤ i) (h : isCharBoundary text i = true) :
    isCharBoundary (text.drop n) (i - n) = true := by
  simp only [isCharBoundary, Bool.or_eq_true, beq_iff_eq, List.length_drop, List.getElem?_drop,
    Nat.add_sub_cancel' hn] at h ⊢
  rcases h with (rfl | rfl) | h
  · exact Or.inl (Or.inl (Nat.zero_sub n))
  · exact Or.inl (Or.inr rfl)
  · exact Or.inr h

/-- Both halves of a text cut between two characters are texts. -/
theorem isUtf8_cut (htext : isUtf8 text = true) (hi : isCharBoundary text i = true) :
    isUtf8 (text.take i) = true ∧ isUtf8 (text.drop i) = true := by
  induction text using chunks_induction generalizing i with
  | nil => simp [isUtf8, wholeChunks]
  | chunk lead rest ih =>
    rw [isUtf8_cons, Bool.and_eq_true] at htext
    cases i with
    | zero => exact ⟨rfl, by rw [List.drop_zero, isUtf8_cons, htext.1, htext.2]; rfl⟩
    | succ k =>
      by_cases hk : k < (firstChunk lead rest).1
      · -- the cut would be inside the first character
        have hlen : k < rest.length := Nat.lt_of_lt_of_le hk (firstChunk_le_length lead rest)
        have hmem : rest[k] ∈ rest.take (firstChunk lead rest).1 :=
          List.mem_take_iff_getElem.mpr ⟨k, by omega, rfl⟩
        obtain ⟨hlow, hhigh⟩ := continuation_of_mem_chunk hmem
        simp [isCharBoundary, hlen, hlow, hhigh] at hi
        omega
      · have hle := Nat.not_lt.mp hk
        have hchunk : isUtf8 (lead :: rest.take (firstChunk lead rest).1) = true := by
          rw [isUtf8_cons, firstChunk_take, htext.1, List.drop_take_self]
          rfl
        have hrest := isCharBoundary_drop (n := (firstChunk lead rest).1 + 1) (by omega) hi
        rw [List.drop_succ_cons, Nat.add_sub_add_right] at hrest
        obtain ⟨htake, hdrop⟩ := ih htext.2 hrest
        constructor
        · have hsplit : rest.take k = rest.take (firstChunk lead rest).1 ++
              (rest.drop (firstChunk lead rest).1).take (k - (firstChunk lead rest).1) := by
            rw [← List.take_add, Nat.add_sub_cancel' hle]
          rw [List.take_succ_cons, hsplit, ← List.cons_append, isUtf8_append hchunk, htake]
        · rwa [List.drop_drop, Nat.add_sub_cancel' hle] at hdrop

/-! ## ASCII needles -/

theorem lossyChunk_ne_nil (lead : UInt8) (rest : Bytes) : lossyChunk lead rest ≠ [] := by
  unfold lossyChunk
  split <;> exact List.cons_ne_nil _ _

theorem not_ascii_of_mem_lossyChunk (hlead : 0x80 ≤ lead)
    (h : b ∈ lossyChunk lead rest) : 0x80 ≤ b := by
  unfold lossyChunk at h
  split at h
  next =>
    rcases List.mem_cons.mp h with rfl | h
    · exact hlead
    · exact not_ascii_of_mem_chunk h
  next => exact forall_mem_byte (by decide) b h

section Needle
variable {needle : Bytes} (hascii : ∀ b ∈ needle, b < 0x80)
include hascii

/-- A non-empty ASCII needle does not start in a run of other bytes. -/
theorem not_prefix_of_not_ascii (hne : needle ≠ []) (hb : 0x80 ≤ b) (rest : Bytes) :
    ¬ needle <+: b :: rest := by
  obtain ⟨c, needle, rfl⟩ := List.exists_cons_of_ne_nil hne
  intro h
  obtain rfl := (List.cons_prefix_cons.mp h).1
  exact absurd (hascii c List.mem_cons_self) (UInt8.not_lt.mpr hb)

theorem prefix_fromUtf8Lossy (bytes : Bytes) : needle <+: fromUtf8Lossy bytes ↔
    needle <+: bytes := by
  induction needle generalizing bytes with
  | nil => exact iff_of_true List.nil_prefix List.nil_prefix
  | cons c needle ih =>
    cases bytes with
    | nil => rfl
    | cons lead rest =>
      by_cases hlead : lead < 0x80
      · rw [fromUtf8Lossy_cons_ascii hlead, List.cons_prefix_cons, List.cons_prefix_cons,
          ih (List.forall_mem_cons.mp hascii).2]
      · have hhigh : 0x80 ≤ lead := UInt8.not_lt.mp hlead
        obtain ⟨b, chunk, hchunk⟩ := List.exists_cons_of_ne_nil (lossyChunk_ne_nil lead rest)
        have hb : 0x80 ≤ b := not_ascii_of_mem_lossyChunk hhigh (hchunk ▸ List.mem_cons_self)
        rw [fromUtf8Lossy_cons, hchunk, List.cons_append]
        exact iff_of_false (not_prefix_of_not_ascii hascii (List.cons_ne_nil _ _) hb _)
          (not_prefix_of_not_ascii hascii (List.cons_ne_nil _ _) hhigh _)

theorem containsSub_append_of_not_ascii (hne : needle ≠ []) {block : Bytes}
    (hblock : ∀ b ∈ block, 0x80 ≤ b) (rest : Bytes) :
    containsSub needle (block ++ rest) = containsSub needle rest := by
  induction block with
  | nil => rfl
  | cons b block ih =>
    have hb := not_prefix_of_not_ascii hascii hne (hblock b List.mem_cons_self) (block ++ rest)
    rw [List.cons_append, Bool.eq_iff_iff, containsSub_cons, or_iff_right hb,
      ih (List.forall_mem_cons.mp hblock).2]

/-- Lossy decoding neither hides nor makes an occurrence of an ASCII needle. -/
theorem containsSub_fromUtf8Lossy (hne : needle ≠ []) (bytes : Bytes) :
    containsSub needle (fromUtf8Lossy bytes) = containsSub needle bytes := by
  induction bytes using chunks_induction with
  | nil => rfl
  | chunk lead rest ih =>
    by_cases hlead : lead < 0x80
    · rw [firstChunk_ascii hlead, List.drop_zero] at ih
      have hprefix := prefix_fromUtf8Lossy hascii (lead :: rest)
      rw [fromUtf8Lossy_cons_ascii hlead] at hprefix ⊢
      rw [Bool.eq_iff_iff, containsSub_cons, containsSub_cons, ih, hprefix]
    · have hhigh : 0x80 ≤ lead := UInt8.not_lt.mp hlead
      have hblock : ∀ b ∈ lead :: rest.take (firstChunk lead rest).1, 0x80 ≤ b :=
        List.forall_mem_cons.mpr ⟨hhigh, fun _ => not_ascii_of_mem_chunk⟩
      have hrest := containsSub_append_of_not_ascii hascii hne hblock
        (rest.drop (firstChunk lead rest).1)
      rw [List.cons_append, List.take_append_drop] at hrest
      rw [fromUtf8Lossy_cons, containsSub_append_of_not_ascii hascii hne
        (fun b hb => not_ascii_of_mem_lossyChunk hhigh hb), ih, hrest]

end Needle

end OpenShell
