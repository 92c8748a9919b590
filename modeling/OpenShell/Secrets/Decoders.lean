import OpenShell.L7.Query
import OpenShell.Secrets.Body

/-!
# One text, several decoders

A reserved marker may be percent-encoded, so every guard decodes before it looks.
The body guard and the form decoder agree with the standard decoding. The decoder
of the header and target scans does not: after a malformed escape it goes on three
bytes later and not one, so a malformed percent sign may swallow the percent sign
of an escape. It sees a marker of the standard decoding exactly when no escape of
the marker is swallowed.
-/

namespace OpenShell.Secrets

/-! ## The standard decoding -/

/-- From left to right, a percent sign and two hex digits become one byte; any other
byte is kept, and decoding goes on at the next one. -/
def standardDecode : Bytes → Bytes
  | [] => []
  | [b] => [b]
  | [b, c] => [b, c]
  | b :: high :: low :: rest =>
    if b == 0x25 then
      match hexPair high low with
      | some value => value :: standardDecode rest
      | none => b :: standardDecode (high :: low :: rest)
    else b :: standardDecode (high :: low :: rest)

/-- The standard decoding, with a mark on each byte: false for one whose escape
starts inside the two bytes that an earlier malformed percent sign claims. The
first argument is the number of bytes still claimed. -/
def tracedDecode : Nat → Bytes → List (UInt8 × Bool)
  | _, [] => []
  | _, [b] => [(b, true)]
  | _, [b, c] => [(b, true), (c, true)]
  | claimed, b :: high :: low :: rest =>
    if b == 0x25 then
      match hexPair high low with
      | some value => (value, claimed == 0) :: tracedDecode 0 rest
      | none => (b, true) :: tracedDecode (if claimed = 0 then 2 else claimed - 1)
          (high :: low :: rest)
    else (b, true) :: tracedDecode (claimed - 1) (high :: low :: rest)

/-- A marker of the standard decoding none of whose escapes is swallowed. -/
def VisibleMarker (s : Bytes) : Prop :=
  containsSub (placeholderPrefix.map (·, true)) (tracedDecode 0 s) = true ∨
    containsSub (providerAliasMarker.map (·, true)) (tracedDecode 0 s) = true

theorem tracedDecode_map_fst (claimed : Nat) (s : Bytes) :
    (tracedDecode claimed s).map Prod.fst = standardDecode s := by
  fun_induction tracedDecode claimed s with
  | case1 | case2 | case3 => rfl
  | case4 claimed b high low rest hb _ hpair ih
  | case5 claimed b high low rest hb hpair ih => simp [standardDecode, hb, hpair, ih]
  | case6 claimed b high low rest hb ih => simp [standardDecode, hb, ih]

theorem decodeUnits_eof_map_fst (s : Bytes) :
    (decodeUnits true s).map Prod.fst = standardDecode s := by
  fun_induction standardDecode s with
  | case1 | case2 | case3 => simp [decodeUnits]
  | case4 b high low rest hb _ hpair ih
  | case5 b high low rest hb hpair ih => simp [decodeUnits, hb, hpair, ih]
  | case6 b high low rest hb ih => simp [decodeUnits, hb, ih]

variable {s : Bytes}

/-- Without a plus sign, the form decoder is the standard decoding. -/
theorem formUrlDecodeBytes_eq (h : 0x2B ∉ s) : L7.formUrlDecodeBytes s = standardDecode s := by
  fun_induction standardDecode s with
  | case1 => rfl
  | case2 b =>
    have hb : b ≠ 0x2B := fun e => h (by simp [e])
    simp [L7.formUrlDecodeBytes, hb]
  | case3 b c =>
    have hb : b ≠ 0x2B := fun e => h (by simp [e])
    have hc : c ≠ 0x2B := fun e => h (by simp [e])
    simp [L7.formUrlDecodeBytes, hb, hc]
  | case4 b high low rest hb value hpair ih =>
    have hplus : b ≠ 0x2B := fun e => h (by simp [e])
    have hrest : 0x2B ∉ rest := fun hm => h (by simp [hm])
    simp [L7.formUrlDecodeBytes, hplus, hb, hpair, ih hrest]
  | case5 b high low rest hb hpair ih =>
    have hplus : b ≠ 0x2B := fun e => h (by simp [e])
    have hrest : 0x2B ∉ high :: low :: rest := fun hm => h (List.mem_cons_of_mem _ hm)
    simp [L7.formUrlDecodeBytes, hplus, hb, hpair, ih hrest]
  | case6 b high low rest hb ih =>
    have hplus : b ≠ 0x2B := fun e => h (by simp [e])
    have hrest : 0x2B ∉ high :: low :: rest := fun hm => h (List.mem_cons_of_mem _ hm)
    simp [L7.formUrlDecodeBytes, hplus, hb, ih hrest]

/-! ## The skipping decoder -/

/-- The skipping decoder with some bytes still claimed. -/
def claimedDecode (claimed : Nat) (s : Bytes) : Bytes :=
  s.take claimed ++ percentDecodeBytes (s.drop claimed)

variable {high low : UInt8}

set_option maxRecDepth 8000 in
/-- A percent sign that starts no escape is kept and claims two bytes, unless a plus
sign and a digit follow, which are read as one small number. -/
theorem percentDecodeBytes_malformed (rest : Bytes) (h : hexPair high low = none) :
    percentDecodeBytes (0x25 :: high :: low :: rest) = 0x25 :: claimedDecode 2
      (high :: low :: rest) ∨ ∃ value < 0x10, high = 0x2B ∧ (hexDigit low).isSome = true ∧
        percentDecodeBytes (0x25 :: high :: low :: rest) = value :: percentDecodeBytes rest := by
  rw [percentDecodeBytes, if_pos (beq_self_eq_true _)]
  unfold fromHexPair
  by_cases hplus : high = 0x2B
  · rw [if_pos (by simpa using hplus)]
    cases hlow : hexDigit low with
    | none => exact Or.inl rfl
    | some value =>
      refine Or.inr ⟨value, ?_, hplus, rfl, rfl⟩
      have hsmall : ∀ b, ((hexDigit b).all fun v => decide (v < 0x10)) = true :=
        forall_byte (by decide)
      have hlow' := hsmall low
      rw [hlow] at hlow'
      exact of_decide_eq_true hlow'
  · rw [if_neg (by simpa using hplus), h]
    exact Or.inl rfl

variable {value : UInt8}

theorem hexDigit_of_hexPair (h : hexPair high low = some value) :
    (hexDigit high).isSome = true ∧ (hexDigit low).isSome = true := by
  obtain ⟨hi, hhi, h⟩ := Option.bind_eq_some_iff.mp h
  obtain ⟨lo, hlo, -⟩ := Option.bind_eq_some_iff.mp h
  exact ⟨hhi ▸ rfl, hlo ▸ rfl⟩

theorem percentDecodeBytes_escape (rest : Bytes) (h : hexPair high low = some value) :
    percentDecodeBytes (0x25 :: high :: low :: rest) = value :: percentDecodeBytes rest := by
  have hplus : high ≠ 0x2B := by
    rintro rfl
    exact absurd (hexDigit_of_hexPair h).1 (by decide)
  rw [percentDecodeBytes, if_pos (beq_self_eq_true _), fromHexPair,
    if_neg (by simpa using hplus), h]

variable {claimed : Nat}

set_option maxRecDepth 8000 in
/-- An escape that is swallowed is kept as it is written. -/
theorem claimedDecode_escape (hpos : 0 < claimed) (hle : claimed ≤ 2)
    (rest : Bytes) (h : hexPair high low = some value) :
    claimedDecode claimed (0x25 :: high :: low :: rest) = 0x25 :: high :: low ::
      percentDecodeBytes rest := by
  have hnot : ∀ b, (hexDigit b).isSome = true → b ≠ 0x25 := forall_byte (by decide)
  obtain ⟨hhigh, hlow⟩ := hexDigit_of_hexPair h
  rcases Nat.lt_or_eq_of_le hle with hlt | rfl
  · obtain rfl : claimed = 1 := by omega
    show 0x25 :: percentDecodeBytes (high :: low :: rest) = _
    rw [percentDecodeBytes_cons_of_ne (hnot high hhigh),
      percentDecodeBytes_cons_of_ne (hnot low hlow)]
  · show 0x25 :: high :: percentDecodeBytes (low :: rest) = _
    rw [percentDecodeBytes_cons_of_ne (hnot low hlow)]

/-! ## Both decodings, side by side -/

variable {l w : Bytes}

theorem map_true_prefix_iff : w.map (·, true) <+: l.map (·, true) ↔ w <+: l :=
  List.prefix_map_iff_of_injective fun _ _ h => (Prod.mk.inj h).1

theorem containsSub_map_true :
    containsSub (w.map (·, true)) (l.map (·, true)) = true ↔ containsSub w l = true := by
  simp only [containsSub_iff, ← List.map_drop, map_true_prefix_iff]

variable {b : UInt8}

/-- A needle of marker characters does not start with a byte below them. -/
theorem not_prefix_cons_of_lt (hchars : ∀ b ∈ w, 0x2C ≤ b) (hne : w ≠ [])
    (hb : b < 0x2C) (rest : Bytes) : ¬ w <+: b :: rest := by
  obtain ⟨c, w, rfl⟩ := List.exists_cons_of_ne_nil hne
  intro h
  obtain rfl := (List.cons_prefix_cons.mp h).1
  exact absurd hb (UInt8.not_lt.mpr (hchars c List.mem_cons_self))

theorem not_marked_prefix_cons_of_lt (hchars : ∀ b ∈ w, 0x2C ≤ b) (hne : w ≠ [])
    (hb : b < 0x2C) (seen : Bool) (rest : List (UInt8 × Bool)) :
    ¬ w.map (·, true) <+: (b, seen) :: rest := by
  intro h
  refine not_prefix_cons_of_lt hchars hne hb (rest.map Prod.fst) ?_
  simpa [Function.comp_def] using h.map Prod.fst

theorem not_marked_prefix_hidden (hne : w ≠ []) (b : UInt8) (rest : List (UInt8 × Bool)) :
    ¬ w.map (·, true) <+: (b, false) :: rest := by
  obtain ⟨c, w, rfl⟩ := List.exists_cons_of_ne_nil hne
  intro h
  exact absurd (Prod.mk.inj (List.cons_prefix_cons.mp h).1).2 nofun

theorem claimedDecode_zero (s : Bytes) : claimedDecode 0 s = percentDecodeBytes s := rfl

/-- A text too short for an escape is its own decoding, in both ways. -/
theorem claimedDecode_short (claimed : Nat) (h : s.length ≤ 2) : claimedDecode claimed s = s := by
  match claimed, s, h with
  | 0, [], _ | 0, [_], _ | 0, [_, _], _ | 1, [_, _], _ => rfl
  | _ + 1, [], _ | _ + 1, [_], _ | _ + 2, [_, _], _ => simp [claimedDecode, percentDecodeBytes]

theorem claimedDecode_cons_of_ne (h : b ≠ 0x25) (claimed : Nat) (s : Bytes) :
    claimedDecode claimed (b :: s) = b :: claimedDecode (claimed - 1) s := by
  match claimed with
  | 0 => exact percentDecodeBytes_cons_of_ne h s
  | _ + 1 => rfl

/-- What the skipping decoder shows of a needle is what the traced decoding shows of
it without swallowed escapes: at the start of the text. -/
theorem prefix_claimedDecode_iff (hclaimed : claimed ≤ 2) :
    ∀ {w : Bytes}, (∀ b ∈ w, 0x2C ≤ b) →
      (w <+: claimedDecode claimed s ↔ w.map (·, true) <+: tracedDecode claimed s) := by
  fun_induction tracedDecode claimed s with
  | case1 | case2 | case3 =>
    intro w _
    rw [claimedDecode_short _ (by simp)]
    exact map_true_prefix_iff.symm
  | case4 claimed b high low rest hb value hpair ih =>
    intro w hchars
    obtain rfl : b = 0x25 := by simpa using hb
    cases w with
    | nil => exact iff_of_true List.nil_prefix List.nil_prefix
    | cons c w =>
      rcases Nat.eq_zero_or_pos claimed with rfl | hpos
      · rw [claimedDecode_zero, percentDecodeBytes_escape rest hpair, List.map_cons,
          List.cons_prefix_cons, List.cons_prefix_cons,
          ← ih (by omega) (List.forall_mem_cons.mp hchars).2]
        simp [claimedDecode]
      · rw [claimedDecode_escape hpos hclaimed rest hpair]
        have hhidden : (claimed == 0) = false := by simpa using Nat.ne_of_gt hpos
        rw [hhidden]
        exact iff_of_false (not_prefix_cons_of_lt hchars (List.cons_ne_nil _ _) (by decide) _)
          (not_marked_prefix_hidden (List.cons_ne_nil _ _) _ _)
  | case5 claimed b high low rest hb hpair ih =>
    intro w hchars
    obtain rfl : b = 0x25 := by simpa using hb
    cases w with
    | nil => exact iff_of_true List.nil_prefix List.nil_prefix
    | cons c w =>
      have hne : c :: w ≠ [] := List.cons_ne_nil _ _
      refine iff_of_false ?_ (not_marked_prefix_cons_of_lt hchars hne (by decide) _ _)
      match claimed with
      | 0 =>
        rcases percentDecodeBytes_malformed rest hpair with h | ⟨value, hsmall, -, -, h⟩
        · rw [claimedDecode_zero, h]
          exact not_prefix_cons_of_lt hchars hne (by decide) _
        · rw [claimedDecode_zero, h]
          exact not_prefix_cons_of_lt hchars hne (UInt8.lt_trans hsmall (by decide)) _
      | claimed + 1 => exact not_prefix_cons_of_lt hchars hne (by decide) _
  | case6 claimed b high low rest hb ih =>
    intro w hchars
    have hb : b ≠ 0x25 := by simpa using hb
    cases w with
    | nil => exact iff_of_true List.nil_prefix List.nil_prefix
    | cons c w =>
      rw [claimedDecode_cons_of_ne hb, List.map_cons, List.cons_prefix_cons, List.cons_prefix_cons,
        ih (by omega) (List.forall_mem_cons.mp hchars).2]
      simp

section Needle
variable {w : Bytes} (hchars : ∀ b ∈ w, 0x2C ≤ b)
  (hhead : ∃ b rest, w = b :: rest ∧ hexDigit b = none)
include hchars hhead

theorem needle_ne_nil : w ≠ [] := by
  obtain ⟨b, rest, rfl, -⟩ := hhead
  exact List.cons_ne_nil _ _

omit hchars in
theorem not_prefix_cons_of_hex (hb : (hexDigit b).isSome = true) (rest : Bytes) :
    ¬ w <+: b :: rest := by
  obtain ⟨c, w, rfl, hc⟩ := hhead
  intro h
  obtain rfl := (List.cons_prefix_cons.mp h).1
  rw [hc] at hb
  cases hb

/-- The same anywhere in the text. -/
theorem containsSub_claimedDecode_iff (hclaimed : claimed ≤ 2) :
    containsSub w (claimedDecode claimed s) = true ↔
      containsSub (w.map (·, true)) (tracedDecode claimed s) = true := by
  have hne := needle_ne_nil hchars hhead
  fun_induction tracedDecode claimed s with
  | case1 | case2 | case3 =>
    rw [claimedDecode_short _ (by simp)]
    exact containsSub_map_true.symm
  | case4 claimed b high low rest hb value hpair ih =>
    obtain rfl : b = 0x25 := by simpa using hb
    have hrest : containsSub w (percentDecodeBytes rest) = true ↔
      containsSub (w.map (·, true)) (tracedDecode 0 rest) = true := ih (by omega)
    obtain ⟨hhigh, hlow⟩ := hexDigit_of_hexPair hpair
    rcases Nat.eq_zero_or_pos claimed with rfl | hpos
    · have h := prefix_claimedDecode_iff (s := 0x25 :: high :: low :: rest) hclaimed hchars
      have hdecode : claimedDecode 0 (0x25 :: high :: low :: rest) =
          value :: percentDecodeBytes rest :=
        percentDecodeBytes_escape rest hpair
      have htraced : tracedDecode 0 (0x25 :: high :: low :: rest) =
          (value, true) :: tracedDecode 0 rest := by
        simp [tracedDecode, hpair]
      rw [hdecode, htraced] at h
      rw [hdecode, containsSub_cons, hrest, h]
      exact containsSub_cons.symm
    · have hhidden : (claimed == 0) = false := by simpa using Nat.ne_of_gt hpos
      rw [claimedDecode_escape hpos hclaimed rest hpair, hhidden, containsSub_cons,
        containsSub_cons, containsSub_cons, containsSub_cons, hrest,
        or_iff_right (not_prefix_cons_of_lt hchars hne (by decide) _),
        or_iff_right (not_prefix_cons_of_hex hhead hhigh _),
        or_iff_right (not_prefix_cons_of_hex hhead hlow _),
        or_iff_right (not_marked_prefix_hidden hne _ _)]
  | case5 claimed b high low rest hb hpair ih =>
    obtain rfl : b = 0x25 := by simpa using hb
    rw [containsSub_cons, or_iff_right (not_marked_prefix_cons_of_lt hchars hne (by decide) _ _)]
    match claimed with
    | 0 =>
      have hrest : containsSub w (claimedDecode 2 (high :: low :: rest)) = true ↔
        containsSub (w.map (·, true)) (tracedDecode 2 (high :: low :: rest)) = true :=
          ih (by decide)
      refine Iff.trans ?_ hrest
      rw [claimedDecode_zero]
      rcases percentDecodeBytes_malformed rest hpair with h | ⟨value, hsmall, rfl, hlow, h⟩
      · rw [h, containsSub_cons, or_iff_right (not_prefix_cons_of_lt hchars hne (by decide) _)]
      · -- the number that is read, and the three bytes it is read from, are no marker characters
        have hvalue := not_prefix_cons_of_lt hchars hne (UInt8.lt_trans hsmall (by decide))
          (percentDecodeBytes rest)
        have hclaim : claimedDecode 2 (0x2B :: low :: rest) =
            0x2B :: low :: percentDecodeBytes rest := rfl
        rw [h, hclaim, containsSub_cons, containsSub_cons, containsSub_cons, or_iff_right hvalue,
          or_iff_right (not_prefix_cons_of_lt hchars hne (by decide) _),
          or_iff_right (not_prefix_cons_of_hex hhead hlow _)]
    | claimed + 1 =>
      have hrest : containsSub w (claimedDecode claimed (high :: low :: rest)) = true ↔
        containsSub (w.map (·, true)) (tracedDecode claimed (high :: low :: rest)) = true :=
          ih (by simp; omega)
      change containsSub w (0x25 :: claimedDecode claimed (high :: low :: rest)) = true ↔ _
      rw [containsSub_cons, or_iff_right (not_prefix_cons_of_lt hchars hne (by decide) _)]
      exact hrest
  | case6 claimed b high low rest hb ih =>
    have hb : b ≠ 0x25 := by simpa using hb
    have h := prefix_claimedDecode_iff (s := b :: high :: low :: rest) hclaimed hchars
    rw [claimedDecode_cons_of_ne hb] at h ⊢
    have htraced : tracedDecode claimed (b :: high :: low :: rest) =
        (b, true) :: tracedDecode (claimed - 1) (high :: low :: rest) := by
      simp [tracedDecode, hb]
    rw [htraced] at h
    have hrest : containsSub w (claimedDecode (claimed - 1) (high :: low :: rest)) = true ↔
      containsSub (w.map (·, true)) (tracedDecode (claimed - 1) (high :: low :: rest)) = true :=
        ih (by omega)
    rw [containsSub_cons, containsSub_cons, hrest, h]

end Needle

/-! ## The detector -/

/-- The detector sees the markers that are written out, and those of the standard
decoding that have no swallowed escape. -/
theorem containsReservedCredentialMarker_eq (s : Bytes) :
    containsReservedCredentialMarker s = true ↔ containsRawReservedMarker s = true ∨
      VisibleMarker s := by
  have hcanonical := containsSub_claimedDecode_iff (w := placeholderPrefix) (s := s)
    (forall_mem_byte (by decide))
    ⟨_, _, rfl, by decide⟩ (Nat.zero_le 2)
  have halias := containsSub_claimedDecode_iff (w := providerAliasMarker) (s := s)
    (forall_mem_byte (by decide))
    ⟨_, _, rfl, by decide⟩ (Nat.zero_le 2)
  rw [containsReservedCredentialMarker, Bool.or_eq_true, percentDecode,
    containsRawReservedMarker_fromUtf8Lossy]
  refine or_congr_right ?_
  rw [containsRawReservedMarker, Bool.or_eq_true, VisibleMarker, ← hcanonical, ← halias]
  rfl

theorem containsSub_of_marked {l : List (UInt8 × Bool)}
    (h : containsSub (w.map (·, true)) l = true) : containsSub w (l.map Prod.fst) = true := by
  obtain ⟨i, hi⟩ := containsSub_iff.mp h
  refine containsSub_iff.mpr ⟨i, ?_⟩
  simpa [Function.comp_def] using hi.map Prod.fst

/-- A marker that is visible is one of the standard decoding. -/
theorem VisibleMarker.standard (h : VisibleMarker s) :
    containsRawReservedMarker (standardDecode s) = true := by
  rw [containsRawReservedMarker, Bool.or_eq_true, ← tracedDecode_map_fst 0]
  exact h.imp containsSub_of_marked containsSub_of_marked

/-- The detector agrees with the standard decoding exactly where a marker of the
standard decoding is also written out, or has no swallowed escape; the body guard
and, on text without a plus sign, the form decoder always do. -/
theorem containsReservedCredentialMarker_iff_standard (s : Bytes) :
    ((containsReservedCredentialMarker s = true ↔
        containsRawReservedMarker s = true ∨ containsRawReservedMarker (standardDecode s) = true) ↔
      (containsRawReservedMarker (standardDecode s) = true →
        containsRawReservedMarker s = true ∨ VisibleMarker s)) ∧
    (decodeUnits true s).map Prod.fst = standardDecode s ∧
    (0x2B ∉ s → L7.formUrlDecodeBytes s = standardDecode s) := by
  refine ⟨?_, decodeUnits_eof_map_fst s, formUrlDecodeBytes_eq⟩
  rw [containsReservedCredentialMarker_eq]
  constructor
  · exact fun h hstandard => h.mpr (Or.inr hstandard)
  · intro h
    exact ⟨Or.imp_right VisibleMarker.standard, fun hmarker => hmarker.elim Or.inl h⟩

/-- The first percent sign claims the second one, and the letter it spells is lost. -/
theorem not_containsReservedCredentialMarker_swallowed :
    containsReservedCredentialMarker (utf8Bytes "%%6fpenshell:resolve:env:KEY") = false ∧
      containsRawReservedMarker
        (standardDecode (utf8Bytes "%%6fpenshell:resolve:env:KEY")) = true := by
  decide

end OpenShell.Secrets
