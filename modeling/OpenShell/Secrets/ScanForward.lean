import OpenShell.Secrets.Rewrite

/-!
# Scanning forward

Every placeholder scan takes its text apart at `nextStart`: the next canonical
lead-in, or the start of the word around the next alias marker. The word is found
by walking back, so its start may lie behind the position the scan has come to
(`nextStart_lt_iff`): a token is then followed by alias characters that run up to
an alias marker. That is the one way in which a scan panics.
-/

namespace OpenShell.Secrets

open Scanner

/-! ## Where the next token starts -/

/-- The first alias marker at or behind a position. -/
def FirstAlias (text : Bytes) (pos marker : Nat) : Prop :=
  pos ≤ marker ∧ providerAliasMarker <+: text.drop marker ∧
    ∀ j, pos ≤ j → j < marker → ¬ providerAliasMarker <+: text.drop j

/-- From the byte before a position, alias characters run up to the next alias
marker. -/
def RunsBack (text : Bytes) (pos : Nat) : Prop :=
  ∃ marker, FirstAlias text pos marker ∧ 0 < pos ∧
    ∀ i, pos ≤ i + 1 → i < marker → text[i]?.any isAliasTokenChar = true

variable {needle text : Bytes} {pos : Nat}

/-- A search from a position finds positions of the whole text. -/
theorem findSub_drop {off : Nat}
    (h : findSub needle (text.drop pos) = some off) :
    needle <+: text.drop (pos + off) ∧ ∀ j, pos ≤ j → j < pos + off → ¬ needle <+: text.drop j := by
  obtain ⟨hat, hfirst⟩ := findSub_eq_some.mp h
  rw [List.drop_drop] at hat
  refine ⟨hat, fun j hj hlt => ?_⟩
  have := hfirst (j - pos) (by omega)
  rwa [List.drop_drop, Nat.add_sub_cancel' hj] at this

variable {i : Nat}

theorem exists_findSub_drop (hi : pos ≤ i)
    (h : needle <+: text.drop i) :
    ∃ off, pos + off ≤ i ∧ findSub needle (text.drop pos) = some off := by
  cases hfind : findSub needle (text.drop pos) with
  | none =>
    have := findSub_eq_none.mp hfind (i - pos)
    rw [List.drop_drop, Nat.add_sub_cancel' hi] at this
    exact absurd h this
  | some off =>
    refine ⟨off, Nat.not_lt.mp fun hlt => ?_, rfl⟩
    exact (findSub_drop hfind).2 i hi hlt h

theorem aliasStartForMarker_le (text : Bytes) : ∀ marker, aliasStartForMarker text marker ≤ marker
  | 0 => Nat.le_refl 0
  | marker + 1 => by
    rw [aliasStartForMarker]
    split
    · exact Nat.le_succ_of_le (aliasStartForMarker_le text marker)
    · exact Nat.le_refl _

/-- The walk goes back to a position exactly when all bytes from there on are alias
characters. -/
theorem aliasStartForMarker_le_iff :
    ∀ {marker : Nat}, pos ≤ marker →
      (aliasStartForMarker text marker ≤ pos ↔
        ∀ i, pos ≤ i → i < marker → text[i]?.any isAliasTokenChar = true)
  | 0, _ => by
    refine iff_of_true (Nat.zero_le _) fun i _ hi => absurd hi (Nat.not_lt_zero i)
  | marker + 1, hpos => by
    rcases Nat.lt_or_eq_of_le hpos with hlt | rfl
    · have hle := Nat.le_of_lt_succ hlt
      rw [aliasStartForMarker]
      split
      next hchar =>
        rw [aliasStartForMarker_le_iff hle]
        constructor
        · intro h i hi hm
          rcases Nat.lt_or_eq_of_le (Nat.le_of_lt_succ hm) with hm | rfl
          · exact h i hi hm
          · exact hchar
        · exact fun h i hi hm => h i hi (Nat.lt_succ_of_lt hm)
      next hchar =>
        refine iff_of_false (Nat.not_le.mpr hlt) fun h => hchar (h marker hle (Nat.lt_succ_self _))
    · exact iff_of_true (aliasStartForMarker_le ..) fun i hi hm => absurd hm (Nat.not_lt.mpr hi)

theorem earlier_eq_some {a b : Option Nat} {n : Nat} (h : earlier a b = some n) :
    a = some n ∨ b = some n := by
  cases a with
  | none => exact Or.inr h
  | some a =>
    cases b with
    | none => exact Or.inl h
    | some b =>
      cases h
      rcases Nat.le_total a b with hab | hba
      · exact Or.inl (by rw [Nat.min_eq_left hab])
      · exact Or.inr (by rw [Nat.min_eq_right hba])

theorem earlier_le_left {a : Nat} (b : Option Nat) : ∃ n ≤ a, earlier (some a) b = some n := by
  cases b with
  | none => exact ⟨a, Nat.le_refl a, rfl⟩
  | some b => exact ⟨min a b, Nat.min_le_left .., rfl⟩

theorem earlier_le_right (a : Option Nat) {b : Nat} : ∃ n ≤ b, earlier a (some b) = some n := by
  cases a with
  | none => exact ⟨b, Nat.le_refl b, rfl⟩
  | some a => exact ⟨min a b, Nat.min_le_right .., rfl⟩

variable {start : Nat}

/-- The next start is a canonical lead-in, or the start of the word around the next
alias marker. -/
theorem nextStart_cases (h : nextStart text pos = some start) :
    (pos ≤ start ∧ placeholderPrefix <+: text.drop start) ∨
      ∃ marker, FirstAlias text pos marker ∧ start = aliasStartForMarker text marker := by
  rcases earlier_eq_some h with h | h
  · obtain ⟨off, hfind, rfl⟩ := Option.map_eq_some_iff.mp h
    exact Or.inl ⟨Nat.le_add_right .., (findSub_drop hfind).1⟩
  · obtain ⟨off, hfind, rfl⟩ := Option.map_eq_some_iff.mp h
    exact Or.inr ⟨pos + off, ⟨Nat.le_add_right .., findSub_drop hfind⟩, rfl⟩

/-- A marker at or behind a position is not before the next start. -/
theorem nextStart_le (hi : pos ≤ i) (h : MarkerAt text i) :
    ∃ start ≤ i, nextStart text pos = some start := by
  rcases h with h | h
  · obtain ⟨off, hle, hfind⟩ := exists_findSub_drop hi h
    rw [nextStart, hfind]
    obtain ⟨n, hn, heq⟩ := earlier_le_left (a := pos + off) _
    exact ⟨n, Nat.le_trans hn hle, heq⟩
  · obtain ⟨off, hle, hfind⟩ := exists_findSub_drop hi h
    rw [nextStart, hfind]
    obtain ⟨n, hn, heq⟩ := earlier_le_right _ (b := aliasStartForMarker text (pos + off))
    exact ⟨n, Nat.le_trans hn (Nat.le_trans (aliasStartForMarker_le ..) hle), heq⟩

/-- The next token starts behind the position exactly when the text runs back. -/
theorem nextStart_lt_iff :
    (∃ start < pos, nextStart text pos = some start) ↔ RunsBack text pos := by
  constructor
  · rintro ⟨start, hlt, hnext⟩
    rcases nextStart_cases hnext with ⟨hle, -⟩ | ⟨marker, hfirst, rfl⟩
    · exact absurd hlt (Nat.not_lt.mpr hle)
    · refine ⟨marker, hfirst, Nat.zero_lt_of_lt hlt, fun i hi hm => ?_⟩
      have hle : aliasStartForMarker text marker ≤ pos - 1 := by omega
      have hpos : pos - 1 ≤ marker := Nat.le_trans (Nat.sub_le ..) hfirst.1
      exact (aliasStartForMarker_le_iff hpos).mp hle i (by omega) hm
  · rintro ⟨marker, hfirst, hpos, hchars⟩
    have hle : aliasStartForMarker text marker ≤ pos - 1 :=
      (aliasStartForMarker_le_iff (Nat.le_trans (Nat.sub_le ..) hfirst.1)).mpr fun i hi hm =>
        hchars i (by omega) hm
    obtain ⟨off, hoff, hfind⟩ := exists_findSub_drop hfirst.1 hfirst.2.1
    -- the search finds this very marker, the first one
    have hmarker : pos + off = marker := by
      refine Nat.le_antisymm hoff (Nat.not_lt.mp fun hlt => ?_)
      exact hfirst.2.2 _ (Nat.le_add_right ..) hlt (findSub_drop hfind).1
    rw [nextStart, hfind]
    obtain ⟨n, hn, heq⟩ := earlier_le_right _ (b := aliasStartForMarker text (pos + off))
    refine ⟨n, ?_, heq⟩
    rw [hmarker] at hn
    omega

/-! ## Tokens end inside the text -/

/-- A token read from a start: it is not empty, and it is the text up to its end. -/
structure TokenRead (text : Bytes) (start stop : Nat) (token : Bytes) : Prop where
  lt : start < stop
  le : stop ≤ text.length
  eq : token = (text.drop start).take (stop - start)

theorem getElem?_takeWhile {p : UInt8 → Bool} {l : Bytes} (hi : i < (l.takeWhile p).length) :
    l[i]?.any p = true := by
  have hget := List.prefix_iff_getElem?.mp (List.takeWhile_prefix p (l := l)) i hi
  rw [hget, Option.any_some]
  exact List.all_eq_true.mp List.all_takeWhile _ (List.getElem_mem hi)

theorem le_envKeyEnd (text : Bytes) (keyStart : Nat) : keyStart ≤ envKeyEnd text keyStart :=
  Nat.le_add_right ..

variable {keyStart : Nat}

theorem envKeyEnd_le (h : keyStart ≤ text.length) :
    envKeyEnd text keyStart ≤ text.length := by
  have hle := (List.takeWhile_prefix isEnvKeyChar (l := text.drop keyStart)).length_le
  rw [List.length_drop] at hle
  rw [envKeyEnd]
  omega

theorem isEnvKeyChar_of_lt_envKeyEnd (hi : keyStart ≤ i)
    (h : i < envKeyEnd text keyStart) : text[i]?.any isEnvKeyChar = true := by
  have hlt : i - keyStart < ((text.drop keyStart).takeWhile isEnvKeyChar).length := by
    rw [envKeyEnd] at h
    omega
  have := getElem?_takeWhile hlt
  rwa [List.getElem?_drop, Nat.add_sub_cancel' hi] at this

variable {token : Bytes} {stop : Nat}

theorem canonicalTokenAt_eq_some (h : canonicalTokenAt text start = some (stop, token)) :
    TokenRead text start stop token ∧ text[stop - 1]?.any isEnvKeyChar = true ∧
      placeholderPrefix <+: text.drop start := by
  unfold canonicalTokenAt at h
  obtain ⟨hlead, h⟩ := then_of_ite h nofun
  have hlead := List.isPrefixOf_iff_prefix.mp hlead
  dsimp only at h
  obtain ⟨hkey, ⟨⟩⟩ := then_of_ite h nofun
  have hlen := add_length_le_of_prefix_drop placeholderPrefix_ne_nil hlead
  have hlast : text[envKeyEnd text (start + placeholderPrefix.length) - 1]?.any
      isEnvKeyChar = true :=
    isEnvKeyChar_of_lt_envKeyEnd (Nat.le_sub_one_of_lt hkey) (by omega)
  exact ⟨⟨by omega, envKeyEnd_le hlen, rfl⟩, hlast, hlead⟩

theorem aliasTokenAt_eq_some (h : aliasTokenAt text start = some (stop, token)) :
    TokenRead text start stop token ∧ text[stop - 1]?.any isEnvKeyChar = true ∧
      aliasAfterOk text stop = true ∧
      ∃ marker, FirstAlias text start marker ∧ stop = envKeyEnd text
        (marker + providerAliasMarker.length) := by
  unfold aliasTokenAt at h
  cases hfind : findSub providerAliasMarker (text.drop start) with
  | none =>
    rw [hfind] at h
    cases h
  | some rel =>
    simp only [hfind, Option.bind_eq_bind, Option.bind_some] at h
    obtain ⟨hat, hfirst⟩ := findSub_drop hfind
    have hlen := add_length_le_of_prefix_drop providerAliasMarker_ne_nil hat
    obtain ⟨-, h⟩ := else_of_ite h (Option.some_ne_none _).symm
    obtain ⟨hkey, h⟩ := else_of_ite h (Option.some_ne_none _).symm
    obtain ⟨hok, ⟨⟩⟩ := then_of_ite h (Option.some_ne_none _).symm
    have hle := le_envKeyEnd text (start + rel + providerAliasMarker.length)
    have hkey : envKeyEnd text (start + rel + providerAliasMarker.length) ≠
        start + rel + providerAliasMarker.length := by simpa using hkey
    have hlt := Nat.lt_of_le_of_ne hle (Ne.symm hkey)
    have hlast := isEnvKeyChar_of_lt_envKeyEnd (Nat.le_sub_one_of_lt hlt)
      (Nat.sub_one_lt (Nat.ne_of_gt (Nat.zero_lt_of_lt hlt)))
    exact ⟨⟨by omega, envKeyEnd_le hlen, rfl⟩, hlast,
      (Bool.and_eq_true_iff.mp hok).2, start + rel, ⟨Nat.le_add_right .., hat, hfirst⟩, rfl⟩

theorem orElse_eq_some {α : Type} {a b : Option α} {x : α} (h : (a <|> b) = some x) :
    a = some x ∨ b = some x := by
  rw [Option.orElse_eq_orElse, Option.orElse_eq_or, Option.or_eq_some_iff] at h
  exact h.imp_right And.right

theorem tokenInSegment_read (h : tokenInSegment text start = some (stop, token)) :
    TokenRead text start stop token ∧ text[stop - 1]?.any isEnvKeyChar = true := by
  rcases orElse_eq_some h with h | h
  · obtain ⟨hread, hlast, -⟩ := canonicalTokenAt_eq_some h
    exact ⟨hread, hlast⟩
  · obtain ⟨hread, hlast, -⟩ := aliasTokenAt_eq_some h
    exact ⟨hread, hlast⟩

/-! ## Cutting at a token -/

variable {b : UInt8}

/-- A text is a text from an ASCII byte on, with it and without it. -/
theorem isUtf8_drop_of_ascii (h : isUtf8 text = true)
    (hi : text[i]? = some b) (hb : b < 0x80) :
    isUtf8 (text.drop i) = true ∧ isUtf8 (text.drop (i + 1)) = true := by
  obtain ⟨hlt, hget⟩ := List.getElem?_eq_some_iff.mp hi
  have hdrop : text.drop i = b :: text.drop (i + 1) := by rw [List.drop_eq_getElem_cons hlt, hget]
  rw [← List.take_append_drop i text, hdrop, isUtf8_append_ascii hb, Bool.and_eq_true] at h
  refine ⟨?_, h.2⟩
  have hcons := isUtf8_append_ascii hb (text.drop (i + 1)) []
  rw [hdrop, ← List.nil_append (b :: _), hcons, h.2]
  rfl

/-- A token ends where its text may be cut. -/
theorem TokenRead.boundary (h : TokenRead text start stop token)
    (hutf8 : isUtf8 text = true) (hlast : text[stop - 1]?.any isEnvKeyChar = true) :
    isCharBoundary text stop = true := by
  obtain ⟨b, hb, hkey⟩ := (Option.any_eq_true _ _).mp hlast
  have hcut : isCharBoundary text (stop - 1 + 1) = true := isCharBoundary_of_isUtf8_drop
    (List.getElem?_eq_some_iff.mp hb).1
    (isUtf8_drop_of_ascii hutf8 hb (isEnvKeyChar_ascii b hkey)).2
  rwa [Nat.sub_add_cancel (Nat.zero_lt_of_lt h.lt)] at hcut

/-- A token starts with an ASCII byte. -/
theorem nextStart_ascii (h : nextStart text pos = some start) :
    ∃ b, text[start]? = some b ∧ b < 0x80 := by
  rcases nextStart_cases h with ⟨-, hlead⟩ | ⟨marker, hfirst, rfl⟩
  · have hget := getElem?_of_prefix_drop hlead (k := 0) (by decide)
    exact ⟨_, hget, by decide⟩
  · rcases Nat.lt_or_eq_of_le (aliasStartForMarker_le text marker) with hlt | heq
    · have hchar := (aliasStartForMarker_le_iff (Nat.le_of_lt hlt)).mp (Nat.le_refl _) _
        (Nat.le_refl _) hlt
      obtain ⟨b, hb, halias⟩ := (Option.any_eq_true _ _).mp hchar
      exact ⟨b, hb, isAliasTokenChar_ascii b halias⟩
    · have hget := getElem?_of_prefix_drop hfirst.2.1 (k := 0) (by decide)
      rw [heq]
      exact ⟨_, hget, by decide⟩

theorem nextStart_spec (h : nextStart text pos = some start) :
    start < text.length ∧ isCharBoundary text start = true := by
  obtain ⟨b, hb, hascii⟩ := nextStart_ascii h
  exact ⟨(List.getElem?_eq_some_iff.mp hb).1, isCharBoundary_of_ascii hb hascii⟩

variable {r : SecretResolver}

namespace SecretResolver

/-- The texts of a resolver that are sliced or cut at are UTF-8: its placeholders
and the path it resolves for. -/
structure IsText (r : SecretResolver) : Prop where
  keys : ∀ placeholder, placeholder ∈ r.byPlaceholder → isUtf8 placeholder = true
  path : ∀ actual, r.requestLocation = some (.path actual) → isUtf8 actual = true

theorem longest_mem {l : List Bytes} {p : Bytes} (h : longest l = some p) : p ∈ l := by
  cases l with
  | nil => cases h
  | cons first rest =>
    cases h
    refine List.foldlRecOn rest _ (motive := (· ∈ first :: rest)) List.mem_cons_self
      fun p hp q hq => ?_
    split
    · exact List.mem_cons_of_mem _ hq
    · exact hp

theorem longestKnownTokenMatch_eq_some
    (h : r.longestKnownTokenMatch text start = some (stop, token)) :
    token ∈ r.byPlaceholder ∧ token <+: text.drop start ∧ stop = start + token.length := by
  obtain ⟨p, hp, heq⟩ := Option.map_eq_some_iff.mp h
  cases heq
  obtain ⟨hmem, hok⟩ := List.mem_filter.mp (longest_mem hp)
  rw [Bool.and_eq_true] at hok
  exact ⟨Std.ExtTreeMap.mem_keys.mp hmem, List.isPrefixOf_iff_prefix.mp hok.1, rfl⟩

/-- A known placeholder found in a text is the text up to its end. -/
theorem longestKnownTokenMatch_read
    (h : r.longestKnownTokenMatch text start = some (stop, token)) :
    TokenRead text start stop token := by
  obtain ⟨hmem, hat, rfl⟩ := longestKnownTokenMatch_eq_some h
  have hne : token ≠ [] := by
    rintro rfl
    exact placeholderPrefix_ne_nil (List.prefix_nil.mp (r.canonical _ hmem))
  have hlen := add_length_le_of_prefix_drop hne hat
  have hpos := List.length_pos_iff.mpr hne
  exact ⟨by omega, hlen, by rw [Nat.add_sub_cancel_left]; exact List.prefix_iff_eq_take.mp hat⟩

/-- Whichever way a token is recognized: it is known, or it ends with the character
of a key. -/
theorem credentialTokenAt_read (h : r.credentialTokenAt text start = some (stop, token)) :
    TokenRead text start stop token ∧
      (token ∈ r.byPlaceholder ∨ text[stop - 1]?.any isEnvKeyChar = true) := by
  rcases orElse_eq_some h with hknown | h
  · exact ⟨longestKnownTokenMatch_read hknown, Or.inl (longestKnownTokenMatch_eq_some hknown).1⟩
  · exact (tokenInSegment_read h).imp_right Or.inr

theorem tokenInText_read (h : r.tokenInText text start = some (stop, token)) :
    TokenRead text start stop token ∧
      (token ∈ r.byPlaceholder ∨ text[stop - 1]?.any isEnvKeyChar = true) := by
  unfold tokenInText at h
  split at h
  · exact credentialTokenAt_read h
  · obtain ⟨hread, hlast, -⟩ := aliasTokenAt_eq_some h
    exact ⟨hread, Or.inr hlast⟩

section Cut
variable (hutf8 : isUtf8 text = true) (hr : r.IsText) (hnext : nextStart text pos = some start)
include hutf8 hr hnext

/-- The text may be cut where a token that was read ends. -/
theorem boundary_of_read (hread : TokenRead text start stop token)
    (hlast : token ∈ r.byPlaceholder ∨ text[stop - 1]?.any isEnvKeyChar = true) :
    isCharBoundary text stop = true := by
  rcases hlast with hmem | hlast
  · obtain ⟨b, hb, hascii⟩ := nextStart_ascii hnext
    refine isCharBoundary_of_isUtf8_drop hread.le ?_
    have hdrop := (isUtf8_drop_of_ascii hutf8 hb hascii).1
    rw [← List.take_append_drop (stop - start) (text.drop start), ← hread.eq,
      isUtf8_append (hr.keys _ hmem),
      List.drop_drop, Nat.add_sub_cancel' (Nat.le_of_lt hread.lt)] at hdrop
    exact hdrop
  · exact hread.boundary hutf8 hlast

end Cut

end SecretResolver

theorem tokenInSegment_eq_some (hutf8 : isUtf8 text = true)
    (h : tokenInSegment text start = some (stop, token)) :
    TokenRead text start stop token ∧ isCharBoundary text stop = true := by
  obtain ⟨hread, hlast⟩ := tokenInSegment_read h
  exact ⟨hread, hread.boundary hutf8 hlast⟩

/-! ## The three scans -/

theorem not_runsBack_of_no_marker (h : ¬ containsRawReservedMarker text = true) (e : Nat) :
    ¬ RunsBack text e := by
  rintro ⟨marker, hfirst, -⟩
  exact h (containsRawReservedMarker_iff.mpr ⟨marker, Or.inr hfirst.2.1⟩)

/-- A scan for placeholders whose tokens can all be read goes forward from a
position exactly when the text does not run back there. -/
theorem forwardAt_iff {β ε : Type} {s : Scanner β ε} (hnext : s.next = nextStart s.text)
    (hread : ∀ start, Returns (s.token start)) {e : Nat} : s.ForwardAt e ↔ ¬ RunsBack s.text e := by
  constructor
  · intro h hback
    obtain ⟨marker, hfirst, -, -⟩ := id hback
    have hlen := MarkerAt.add_le (Or.inr hfirst.2.1 : MarkerAt s.text marker)
    have hlt : e < s.text.length := by
      have hpos : 0 < markerLength := by decide
      have hle := hfirst.1
      omega
    obtain ⟨start, hstart, hsome⟩ := nextStart_lt_iff.mpr hback
    exact absurd (h start hlt (hnext ▸ hsome)).1 (Nat.not_le.mpr hstart)
  · intro h start _ hsome
    refine ⟨Nat.not_lt.mp fun hlt => h (nextStart_lt_iff.mp ⟨start, hlt, hnext ▸ hsome⟩),
      hread start⟩

/-- A placeholder scan whose tokens can all be read returns exactly when no word runs
back into a token. -/
theorem scan_returns_iff {β ε σ : Type} {s : Scanner β ε} (hs : s.Lawful)
    (hnext : s.next = nextStart s.text)
    (hread : ∀ start, Returns (s.token start)) (literal : σ → Bytes → σ)
    (accept : σ → β → σ) (st : σ) :
    Returns (s.loop literal accept s.text.length 0 st) ↔
      ∀ e, s.Reaches 0 e → ¬ RunsBack s.text e := by
  rw [loop_returns_iff hs literal accept s.text.length 0 st (Nat.le_add_left ..) rfl]
  exact forall₂_congr fun e _ => forwardAt_iff hnext hread

variable {segment : Bytes}

namespace SecretResolver

variable {r : SecretResolver} {now : Int} {ε : Type}

theorem slotScanner_lawful (hr : r.IsText) (key : Bytes) {actual : Bytes}
    (hutf8 : isUtf8 actual = true) :
    (r.slotScanner key actual).Lawful where
  next_spec := nextStart_spec
  token_spec := by
    intro pos start stop value hnext hread
    change r.slotToken key actual start = _ at hread
    unfold slotToken at hread
    split at hread
    next => cases hread
    next stop' token htoken =>
      cases hread
      obtain ⟨hspec, hlast⟩ := credentialTokenAt_read htoken
      exact ⟨hspec.lt, hspec.le, boundary_of_read hutf8 hr hnext hspec hlast⟩

theorem slotToken_returns (key actual : Bytes) (start : Nat) :
    Returns (r.slotToken key actual start) := by
  unfold slotToken
  split
  · exact returns_failed ()
  · exact returns_ok _

/-- No token of the path's own scan is followed by a word that runs back into it. -/
def PathClear (r : SecretResolver) (key actual : Bytes) : Prop :=
  ∀ e, (r.slotScanner key actual).Reaches 0 e → ¬ RunsBack actual e

theorem pathPermits_returns_iff (hr : r.IsText) {key expected actual : Bytes}
    (hutf8 : isUtf8 actual = true) :
    Returns (ε := ε) (r.pathPermits key expected actual) ↔ r.PathClear key actual := by
  have hloop :=
    scan_returns_iff (slotScanner_lawful hr key hutf8) rfl (slotToken_returns key actual)
    (fun st text => (st.1 ++ text, st.2)) (fun st slot => (st.1 ++ slot.1, st.2 + slot.2))
    (([] : Bytes), 0)
  refine Iff.trans ?_ hloop
  change _ ↔ Returns ((r.slotScanner key actual).loop _ _ actual.length 0 _)
  unfold pathPermits
  split
  next h => rw [h]; exact iff_of_true (returns_ok _) (returns_ok _)
  next h => rw [h]; exact iff_of_true (returns_ok _) (returns_failed _)
  next h => rw [h]; exact iff_of_false (fun h => h.1 rfl) fun h => h.1 rfl
  next h => rw [h]; exact iff_of_false (fun h => h.2 rfl) fun h => h.2 rfl

/-- The placement check of a placeholder scans the request path, when its key has a
path template, and nothing else; it returns exactly when that scan does. -/
theorem placementPermits_returns_iff (hr : r.IsText) {placeholder : Bytes} :
    Returns (ε := ε) (r.placementPermits placeholder) ↔
      ∀ key expected actual, r.policyRedactionOnly = false →
      placeholderEnvKey placeholder = some key →
        r.placements[key]? = some (.pathTemplate expected) →
        r.requestLocation = some (.path actual) → r.PathClear key actual := by
  unfold placementPermits
  by_cases hredact : r.policyRedactionOnly = true
  · rw [if_pos hredact]
    exact iff_of_true (returns_ok _) fun _ _ _ h => absurd (hredact.symm.trans h) nofun
  rw [if_neg hredact]
  cases hkey : placeholderEnvKey placeholder with
  | none => exact iff_of_true (returns_ok _) fun _ _ _ _ h => absurd h nofun
  | some key =>
    dsimp only
    split
    next hnone =>
      refine iff_of_true (returns_ok _) fun _ _ _ _ _ _ h => ?_
      rw [h] at hnone
      cases hnone
    next =>
      split
      next hbody =>
        refine iff_of_true (returns_ok _) fun _ _ _ _ _ _ h => ?_
        rw [h] at hbody
        simp at hbody
      next =>
        split
        next hplacement =>
          refine iff_of_true (returns_ok _) fun key' _ _ _ h h' _ => ?_
          cases h
          exact absurd (hplacement.symm.trans h') nofun
        next hplacement hlocation =>
          exact iff_of_true (returns_ok _) fun _ _ _ _ _ _ h =>
            absurd (hlocation.symm.trans h) nofun
        next hplacement hlocation =>
          exact iff_of_true (returns_ok _) fun _ _ _ _ _ _ h =>
            absurd (hlocation.symm.trans h) nofun
        next expected actual hplacement hlocation =>
          rw [pathPermits_returns_iff hr (hr.path actual hlocation)]
          constructor
          · intro h key' expected' actual' _ hkey' _ hlocation'
            cases hkey'
            obtain rfl :=
              RequestCredentialLocation.path.inj (Option.mem_unique hlocation hlocation')
            exact h
          · exact fun h => h key expected actual (by simpa using hredact) rfl hplacement hlocation
        next placement hplacement _ _ hother =>
          refine iff_of_true (returns_ok _) fun key' expected actual _ h h' hlocation => ?_
          cases h
          obtain rfl := Option.mem_unique hplacement h'
          exact absurd rfl (hother expected actual hlocation)

/-- Every placement check of the resolver returns. -/
def PlacementReturns (r : SecretResolver) : Prop :=
  ∀ placeholder, Returns (ε := UnresolvedPlaceholderError) (r.placementPermits placeholder)

section Clear
variable (hplacement : r.PlacementReturns)
include hplacement

theorem resolvePlaceholder_returns (value : Bytes) :
    Returns (ε := UnresolvedPlaceholderError) (r.resolvePlaceholder now value) := by
  refine returns_bind_iff.mpr ⟨hplacement _, fun permitted _ => ?_⟩
  split
  · exact returns_ok none
  · split <;> exact returns_ok _

variable (location : String)

theorem unresolvedFor_returns (placeholder : Bytes) :
    Returns (r.unresolvedFor location placeholder) := by
  unfold unresolvedFor
  split
  · exact returns_ok _
  · refine returns_bind_iff.mpr ⟨hplacement _, fun permitted _ => ?_⟩
    split <;> exact returns_ok _

/-- An error with the reason a placeholder does not resolve. -/
theorem throw_unresolvedFor_returns {α : Type} (placeholder : Bytes) :
    Returns (do throw (.failed (← r.unresolvedFor location placeholder)) : Rewrite α) :=
  returns_bind_iff.mpr
    ⟨unresolvedFor_returns hplacement location placeholder, fun error _ => returns_failed error⟩

theorem textToken_returns (text : Bytes) (start : Nat) :
    Returns (r.textToken now location text start) := by
  unfold textToken
  split
  · refine returns_bind_iff.mpr ⟨resolvePlaceholder_returns hplacement _, fun secret _ => ?_⟩
    cases secret with
    | some secret => exact returns_ok _
    | none => exact throw_unresolvedFor_returns hplacement location _
  · exact returns_failed _

theorem segmentToken_returns (segment : Bytes) (start : Nat) :
    Returns (segmentToken r now segment start) := by
  unfold segmentToken
  split
  · exact returns_failed _
  · refine returns_bind_iff.mpr ⟨resolvePlaceholder_returns hplacement _, fun secret _ => ?_⟩
    cases secret with
    | some secret =>
      dsimp only
      split
      · exact returns_ok _
      · exact returns_failed _
    | none => exact throw_unresolvedFor_returns hplacement "path" _

end Clear

variable {secret : Bytes}

/-- A secret that is handed out is the valid value of an entry. -/
theorem resolvePlaceholder_eq_some {value : Bytes}
    (h : r.resolvePlaceholder now value (ε := ε) = .ok (some secret)) :
    ∃ entry, r.secretFor (normalizeAlias value) = some entry ∧ entry.value = secret := by
  obtain ⟨permitted, -, h⟩ := bind_eq_ok h
  obtain ⟨-, h⟩ := else_of_ite h nofun
  obtain ⟨-, h⟩ := else_of_ite h nofun
  obtain ⟨entry, hentry, h⟩ := Option.bind_eq_some_iff.mp (Except.ok.inj h)
  unfold resolveSecretValue at h
  obtain ⟨-, h⟩ := else_of_ite h nofun
  obtain ⟨-, ⟨⟩⟩ := then_of_ite h nofun
  exact ⟨entry, hentry, rfl⟩

theorem textToken_eq_ok {location : String}
    (h : r.textToken now location text start = .ok (stop, secret)) :
    ∃ token, r.tokenInText text start = some (stop, token) ∧
      r.resolvePlaceholder (ε := UnresolvedPlaceholderError) now token = .ok (some secret) := by
  unfold textToken at h
  split at h
  next stop' token htoken =>
    obtain ⟨found, hfound, h⟩ := bind_eq_ok h
    cases found with
    | none =>
      obtain ⟨error, -, h⟩ := bind_eq_ok h
      cases h
    | some value =>
      cases h
      exact ⟨token, htoken, hfound⟩
  next => cases h

theorem segmentToken_eq_ok (h : segmentToken r now segment start = .ok (stop, secret)) :
    ∃ token, tokenInSegment segment start = some (stop, token) ∧
      r.resolvePlaceholder (ε := UnresolvedPlaceholderError) now token = .ok (some secret) := by
  unfold segmentToken at h
  split at h
  next => cases h
  next stop' token htoken =>
    obtain ⟨found, hfound, h⟩ := bind_eq_ok h
    cases found with
    | none =>
      obtain ⟨error, -, h⟩ := bind_eq_ok h
      cases h
    | some value =>
      dsimp only at h
      obtain ⟨-, ⟨⟩⟩ := then_of_ite h nofun
      exact ⟨token, htoken, hfound⟩

theorem textScanner_lawful (hr : r.IsText) (location : String) (hutf8 : isUtf8 text = true) :
    (r.textScanner now location text).Lawful where
  next_spec := nextStart_spec
  token_spec := by
    intro pos start stop value hnext hread
    obtain ⟨token, htoken, -⟩ := textToken_eq_ok hread
    obtain ⟨hspec, hlast⟩ := tokenInText_read htoken
    exact ⟨hspec.lt, hspec.le, boundary_of_read hutf8 hr hnext hspec hlast⟩

end SecretResolver

theorem segmentScanner_lawful {now : Int}
    (hutf8 : isUtf8 segment = true) : (segmentScanner r now segment).Lawful where
  next_spec := nextStart_spec
  token_spec := by
    intro pos start stop value hnext hread
    obtain ⟨token, htoken, -⟩ := SecretResolver.segmentToken_eq_ok hread
    obtain ⟨hspec, hcut⟩ := tokenInSegment_eq_some hutf8 htoken
    exact ⟨hspec.lt, hspec.le, hcut⟩

/-! ## What forward scanning means -/

/-- The text of a span. -/
def spanText {β : Type} (text : Bytes) (span : Span β) : Bytes :=
  (text.drop span.start).take (span.stop - span.start)

/-- Disjoint tokens from left to right that cover every reserved marker, each with
the secret it resolves to. -/
structure Replaces (r : SecretResolver) (now : Int) (text : Bytes)
    (spans : List (Span Bytes)) : Prop where
  tiled : Tiled text.length 0 spans
  covers : Covers (MarkerAt text) markerLength spans
  resolved : ∀ span ∈ spans,
    r.resolvePlaceholder (ε := UnresolvedPlaceholderError) now (spanText text span) = .ok
    (some span.value)

/-- A scan whose tokens are followed by neither kind of trouble: no word runs back
into a token, and, where the scan succeeds, no marker straddles a token's end. -/
structure ScanClear (s : Scanner Bytes UnresolvedPlaceholderError) (succeeds : Prop) : Prop where
  forward : ∀ e, s.Reaches 0 e → ¬ RunsBack s.text e
  separate : succeeds → ∀ e, s.Reaches 0 e → ¬ Straddled (MarkerAt s.text) markerLength e

variable {spans : List (Span Bytes)} {s : Scanner Bytes UnresolvedPlaceholderError}

theorem covers_markers_iff (hs : s.Lawful)
    (hnext : s.next = nextStart s.text) (hrun : s.Run 0 spans) :
    Covers (MarkerAt s.text) markerLength spans ↔
      ∀ e, s.Reaches 0 e → ¬ Straddled (MarkerAt s.text) markerLength e := by
  have hpos : 0 < markerLength := by decide
  refine covers_iff hs hpos (fun i hi => ?_) (fun pos i hi hmark => ?_) hrun
  · have := hi.add_le
    omega
  · rw [hnext]
    exact nextStart_le hi hmark

/-- A call that returns when its scan does, and yields what the tokens of a run make of its text. -/
theorem scanForward_iff {now : Int} {ω : Type} {call : Rewrite ω}
    {B : ω → List (Span Bytes) → Prop} (hs : s.Lawful) (hnext : s.next = nextStart s.text)
    (hreturns : Returns call ↔ ∀ e, s.Reaches 0 e → ¬ RunsBack s.text e)
    (hruns : ∀ out, call = .ok out → ∃ spans, s.Run 0 spans ∧ B out spans)
    (hresolved : ∀ spans, s.Run 0 spans → ∀ span ∈ spans,
      r.resolvePlaceholder (ε := UnresolvedPlaceholderError) now (spanText s.text span) = .ok
        (some span.value)) :
    (Returns call ∧ ∀ out, call = .ok out → ∃ spans, s.Run 0 spans ∧ Replaces r now s.text spans ∧
      B out spans) ↔ ScanClear s (∃ out, call = .ok out) := by
  constructor
  · rintro ⟨hok, hspans⟩
    refine ⟨hreturns.mp hok, ?_⟩
    rintro ⟨out, hout⟩
    obtain ⟨spans, hrun, hreplaces, -⟩ := hspans out hout
    exact (covers_markers_iff hs hnext hrun).mp hreplaces.covers
  · rintro ⟨hforward, hseparate⟩
    refine ⟨hreturns.mpr hforward, fun out hout => ?_⟩
    obtain ⟨spans, hrun, hbuilt⟩ := hruns out hout
    have hcovers := (covers_markers_iff hs hnext hrun).mpr (hseparate ⟨out, hout⟩)
    exact ⟨spans, hrun, ⟨hrun.tiled hs, hcovers, hresolved spans hrun⟩, hbuilt⟩

namespace SecretResolver

variable (r : SecretResolver) (now : Int) (text : Bytes) (location : String)

/-- The call returns, and where it succeeds it has replaced tokens that cover every
marker, and nothing else. -/
def RewritesForward : Prop :=
  Returns (r.rewriteTextPlaceholdersAtLocation now text location) ∧
    ∀ rewritten replacements,
      r.rewriteTextPlaceholdersAtLocation now text location = .ok (rewritten, replacements) →
        ∃ spans, (r.textScanner now location text).Run 0 spans ∧ Replaces r now text spans ∧
          rewritten = splice text Span.value 0 spans ∧ replacements = spans.length

variable {r now text location}

/-- Text without a marker is one run without tokens. -/
theorem run_of_no_marker (h : ¬ containsRawReservedMarker text = true) :
    (r.textScanner now location text).Run 0 [] := by
  refine .rest ?_
  show nextStart text 0 = none
  cases hnext : nextStart text 0 with
  | none => rfl
  | some start =>
    refine absurd (containsRawReservedMarker_iff.mpr ?_) h
    rcases nextStart_cases hnext with ⟨-, hlead⟩ | ⟨marker, hfirst, -⟩
    · exact ⟨start, Or.inl hlead⟩
    · exact ⟨marker, Or.inr hfirst.2.1⟩

/-- A rewrite that succeeds is a run of its scan. -/
theorem exists_run_of_rewrite {rewritten : Bytes} {replacements : Nat}
    (h : r.rewriteTextPlaceholdersAtLocation now text location = .ok (rewritten, replacements)) :
    ∃ spans, (r.textScanner now location text).Run 0 spans ∧
      rewritten = splice text Span.value 0 spans ∧ replacements = spans.length := by
  unfold rewriteTextPlaceholdersAtLocation at h
  split at h
  next hnone =>
    cases h
    exact ⟨[], run_of_no_marker (by simpa using hnone), rfl, rfl⟩
  next =>
    obtain ⟨st, hst, h⟩ := bind_eq_ok h
    obtain ⟨spans, hrun, rfl⟩ := exists_run_of_loop hst
    dsimp only at h
    obtain ⟨-, ⟨⟩⟩ := else_of_ite h nofun
    refine ⟨spans, hrun, ?_, ?_⟩
    · exact pieces_text appendLiteral appendSecret Prod.fst id (fun _ _ => rfl)
        (fun _ _ => rfl) spans 0 _
    · rw [pieces_count appendLiteral appendSecret Prod.snd (fun _ _ => rfl) (fun _ _ => rfl),
        Nat.zero_add]

section Returns
variable (hr : r.IsText) (hplacement : r.PlacementReturns) (hutf8 : isUtf8 text = true)
include hr hplacement hutf8

theorem rewrite_returns_iff :
    Returns (r.rewriteTextPlaceholdersAtLocation now text location) ↔
      ∀ e, (r.textScanner now location text).Reaches 0 e → ¬ RunsBack text e := by
  unfold rewriteTextPlaceholdersAtLocation
  by_cases hmarker : containsRawReservedMarker text = true
  · rw [if_neg (by simp [hmarker]), returns_bind_iff]
    have hlawful : (r.textScanner now location text).Lawful := textScanner_lawful hr location hutf8
    have hscan :=
      scan_returns_iff hlawful rfl (textToken_returns hplacement location text) appendLiteral
      appendSecret ([], 0)
    refine Iff.trans (and_iff_left fun st _ => ?_) hscan
    dsimp only
    split
    · exact returns_failed _
    · exact returns_ok _
  · rw [if_pos (by simp [hmarker])]
    exact iff_of_true (returns_ok _) fun e _ => not_runsBack_of_no_marker hmarker e

theorem rewritesForward_iff :
    r.RewritesForward now text location ↔
      ScanClear (r.textScanner now location text)
        (∃ out, r.rewriteTextPlaceholdersAtLocation now text location = .ok out) := by
  unfold RewritesForward
  rw [← scanForward_iff (textScanner_lawful hr location hutf8) rfl
    (rewrite_returns_iff hr hplacement hutf8)
    (fun _ => exists_run_of_rewrite) fun spans hrun span hspan => ?_, Prod.forall]
  · rfl
  · obtain ⟨pos, hnext, hread⟩ := hrun.exists_of_mem hspan
    obtain ⟨token, htoken, hresolve⟩ := textToken_eq_ok hread
    obtain ⟨hspec, -⟩ := tokenInText_read htoken
    rwa [hspec.eq] at hresolve

end Returns

end SecretResolver

/-! ## Path segments -/

section Segment
variable (r : SecretResolver) (now : Int) (segment : Bytes)

/-- As for text; the redacted segment shows the tokens. -/
def SegmentForward : Prop :=
  Returns (rewritePathSegment segment r now) ∧
    ∀ resolved redacted, rewritePathSegment segment r now = .ok (resolved, redacted) →
      ∃ spans, (segmentScanner r now segment).Run 0 spans ∧ Replaces r now segment spans ∧
        resolved = splice segment Span.value 0 spans ∧
        redacted = splice segment (fun _ => credentialMark) 0 spans

variable {r now segment}

/-- The redacted segment is the segment with a mark for each token. -/
theorem rewritePathSegment_run {out : Bytes × Bytes}
    (h : rewritePathSegment segment r now = .ok out) :
    ∃ spans, (segmentScanner r now segment).Run 0 spans ∧
      out.1 = splice segment Span.value 0 spans ∧
      out.2 = splice segment (fun _ => credentialMark) 0 spans := by
  obtain ⟨spans, hrun, rfl⟩ := exists_run_of_loop h
  refine ⟨spans, hrun, ?_, ?_⟩
  · exact pieces_text appendBoth appendRedacted Prod.fst id (fun _ _ => rfl)
      (fun _ _ => rfl) spans 0 _
  · exact pieces_text appendBoth appendRedacted Prod.snd (fun _ => credentialMark) (fun _ _ => rfl)
      (fun _ _ => rfl) spans 0 _

variable (hplacement : r.PlacementReturns) (hutf8 : isUtf8 segment = true)
include hplacement hutf8

theorem segment_returns_iff :
    Returns (rewritePathSegment segment r now) ↔
      ∀ e, (segmentScanner r now segment).Reaches 0 e → ¬ RunsBack segment e := by
  have hlawful : (segmentScanner r now segment).Lawful := segmentScanner_lawful hutf8
  exact scan_returns_iff hlawful rfl
    (SecretResolver.segmentToken_returns hplacement segment) appendBoth
    appendRedacted ([], [])

theorem segmentForward_iff :
    SegmentForward r now segment ↔
      ScanClear (segmentScanner r now segment)
        (∃ out, rewritePathSegment segment r now = .ok out) := by
  unfold SegmentForward
  rw [← scanForward_iff (segmentScanner_lawful hutf8) rfl (segment_returns_iff hplacement hutf8)
    (fun _ => rewritePathSegment_run) fun spans hrun span hspan => ?_, Prod.forall]
  · rfl
  · obtain ⟨pos, hnext, hread⟩ := hrun.exists_of_mem hspan
    obtain ⟨token, htoken, hresolve⟩ := SecretResolver.segmentToken_eq_ok hread
    obtain ⟨hspec, -⟩ := tokenInSegment_eq_some hutf8 htoken
    rwa [hspec.eq] at hresolve

end Segment

end OpenShell.Secrets
