import OpenShell.Util.Utf8Decode
import OpenShell.Util.Result

/-!
# Scanning a text for tokens

The loop of a token rewriter: from a position, find where the next token starts,
copy what lies before it, read the token, go on behind it. A slice whose bounds
are out of order, out of range or inside a character panics, so whether the call
returns at all is a matter of where the tokens found start
(`Scanner.loop_returns_iff`). A call that succeeds has replaced a left-to-right
sequence of disjoint tokens (`Scanner.exists_run_of_loop`), and which marked
positions these cover depends on the token ends alone (`Scanner.covers_iff`).
-/

namespace OpenShell

variable {α β ε σ : Type}

/-! ## Calls that may not return -/

/-- How a call ends without a value: it panics, it does not end, or it returns
an error. -/
inductive Fault (ε : Type) where
  | panicked
  | diverged
  | failed (error : ε)
  deriving DecidableEq, Repr

/-- The call returns, with a value or with an error. -/
def Returns (x : Except (Fault ε) α) : Prop :=
  x ≠ .error .panicked ∧ x ≠ .error .diverged

theorem returns_ok (a : α) : Returns (.ok a : Except (Fault ε) α) :=
  ⟨nofun, nofun⟩

theorem returns_failed (e : ε) : Returns (.error (.failed e) : Except (Fault ε) α) :=
  ⟨nofun, nofun⟩

variable {f : α → Except (Fault ε) β}

theorem returns_bind_iff {x : Except (Fault ε) α} :
    Returns (x >>= f) ↔ Returns x ∧ ∀ a, x = .ok a → Returns (f a) := by
  cases x with
  | ok a =>
    refine ⟨fun h => ⟨returns_ok a, fun a' ha' => ?_⟩, fun h => h.2 a rfl⟩
    cases ha'
    exact h
  | error e =>
    refine ⟨fun h => ⟨⟨fun he => h.1 ?_, fun he => h.2 ?_⟩, nofun⟩, fun h =>
      ⟨fun he => h.1.1 ?_, fun he => h.1.2 ?_⟩⟩
    all_goals
      cases he
      rfl

theorem returns_bind_of {x : Except (Fault ε) α} (h : ∀ a, Returns (f a)) :
    Returns (x >>= f) ↔ Returns x := by
  rw [returns_bind_iff]
  exact and_iff_left fun a _ => h a

/-- A list is worked through up to the first element that does not succeed; the call
returns exactly when that one does. -/
theorem returns_mapM_iff :
    ∀ {l : List α}, Returns (l.mapM f) ↔
      ∀ done a rest, l = done ++ a :: rest → (∀ b ∈ done, ∃ y, f b = .ok y) → Returns (f a)
  | [] => by
    refine iff_of_true (returns_ok _) fun done a rest h _ => ?_
    exact absurd h.symm (List.append_ne_nil_of_right_ne_nil done (List.cons_ne_nil a rest))
  | a :: l => by
    rw [List.mapM_cons, returns_bind_iff]
    constructor
    · rintro ⟨ha, hgo⟩ done b rest hsplit hdone
      cases done with
      | nil =>
        obtain ⟨rfl, rfl⟩ := List.cons.inj hsplit
        exact ha
      | cons d done =>
        obtain ⟨rfl, rfl⟩ := List.cons.inj hsplit
        obtain ⟨y, hy⟩ := hdone a List.mem_cons_self
        have hrest := (returns_bind_iff.mp (hgo y hy)).1
        exact returns_mapM_iff.mp hrest done b rest rfl (List.forall_mem_cons.mp hdone).2
    · intro h
      refine ⟨h [] a l rfl (by simp),
        fun y hy => returns_bind_iff.mpr ⟨?_, fun _ _ => returns_ok _⟩⟩
      refine returns_mapM_iff.mpr fun done b rest hsplit hdone => ?_
      exact h (a :: done) b rest (by rw [hsplit]; rfl) (List.forall_mem_cons.mpr ⟨⟨y, hy⟩, hdone⟩)

/-- `&text[start..stop]`. -/
def slice (text : Bytes) (start stop : Nat) : Except (Fault ε) Bytes :=
  if start ≤ stop && stop ≤ text.length && isCharBoundary text start &&
    isCharBoundary text stop then
    .ok ((text.drop start).take (stop - start))
  else .error .panicked

variable {piece text : Bytes} {start stop : Nat}

theorem slice_eq_ok (h : slice (ε := ε) text start stop = .ok piece) :
    start ≤ stop ∧ isCharBoundary text start = true ∧ isCharBoundary text stop = true ∧
      piece = (text.drop start).take (stop - start) := by
  unfold slice at h
  obtain ⟨hc, h⟩ := then_of_ite h nofun
  simp only [Bool.and_eq_true, decide_eq_true_eq] at hc
  exact ⟨hc.1.1.1, hc.1.2, hc.2, (Except.ok.inj h).symm⟩

theorem slice_of_boundary (hle : start ≤ stop)
    (hlen : stop ≤ text.length) (hstart : isCharBoundary text start = true)
    (hstop : isCharBoundary text stop = true) :
    slice (ε := ε) text start stop = .ok ((text.drop start).take (stop - start)) := by
  simp [slice, hle, hlen, hstart, hstop]

theorem not_returns_slice (h : stop < start) :
    ¬ Returns (slice (ε := ε) text start stop) := by
  have hle : ¬ start ≤ stop := Nat.not_le.mpr h
  simp [slice, hle, Returns]

theorem isCharBoundary_length (text : Bytes) : isCharBoundary text text.length = true := by
  simp [isCharBoundary]

/-- A slice of a text is a text. -/
theorem slice_isUtf8 (htext : isUtf8 text = true)
    (h : slice (ε := ε) text start stop = .ok piece) : isUtf8 piece = true := by
  obtain ⟨hle, hstart, hstop, rfl⟩ := slice_eq_ok h
  exact (isUtf8_cut (isUtf8_cut htext hstart).2 (isCharBoundary_drop hle hstop)).1

/-! ## The loop -/

/-- What a scan looks for: where the next token starts when scanning from a
position, and how the token at a start is read, to its end and its value. -/
structure Scanner (β ε : Type) where
  text : Bytes
  next : Nat → Option Nat
  token : Nat → Except (Fault ε) (Nat × β)

/-- A token that was replaced. -/
structure Span (β : Type) where
  start : Nat
  stop : Nat
  value : β

namespace Scanner

variable (s : Scanner β ε)

/-- The scan from a position: literal text and token values go to the state as
they are met. -/
def loop (literal : σ → Bytes → σ) (accept : σ → β → σ) : Nat → Nat → σ → Except (Fault ε) σ
  | 0, pos, st => if pos < s.text.length then .error .diverged else .ok st
  | fuel + 1, pos, st =>
    if pos < s.text.length then do
      let rest ← slice s.text pos s.text.length
      match s.next pos with
      | none => return literal st rest
      | some start =>
        let skipped ← slice s.text pos start
        let (stop, value) ← s.token start
        loop literal accept fuel stop (accept (literal st skipped) value)
    else .ok st

/-- Starts lie in the text, tokens are not empty and end in the text, and both
are places where it may be cut. -/
structure Lawful : Prop where
  next_spec : ∀ {pos start}, s.next pos = some start →
    start < s.text.length ∧ isCharBoundary s.text start = true
  token_spec : ∀ {pos start stop value}, s.next pos = some start →
    s.token start = .ok (stop, value) →
    start < stop ∧ stop ≤ s.text.length ∧ isCharBoundary s.text stop = true

/-- The positions a scan comes to. -/
inductive Reaches : Nat → Nat → Prop where
  | refl (pos : Nat) : Reaches pos pos
  | token {pos start stop e : Nat} {value : β} : pos < s.text.length → s.next pos = some start →
      pos ≤ start → s.token start = .ok (stop, value) → Reaches stop e → Reaches pos e

/-- A scan that came to the end of the text, with the tokens it met. -/
inductive Run : Nat → List (Span β) → Prop where
  | done {pos : Nat} : s.text.length ≤ pos → Run pos []
  | rest {pos : Nat} : s.next pos = none → Run pos []
  | token {pos start stop : Nat} {value : β} {spans : List (Span β)} : pos < s.text.length →
      s.next pos = some start → pos ≤ start → s.token start = .ok (stop, value) → Run stop spans →
      Run pos (⟨start, stop, value⟩ :: spans)

/-- The state after the tokens of a run. -/
def pieces (literal : σ → Bytes → σ) (accept : σ → β → σ) : Nat → List (Span β) → σ → σ
  | pos, [], st => if pos < s.text.length then literal st (s.text.drop pos) else st
  | pos, span :: spans, st =>
    pieces literal accept span.stop spans
      (accept (literal st ((s.text.drop pos).take (span.start - pos))) span.value)

/-- The scan goes forward from a position, and reading its token returns. -/
def ForwardAt (pos : Nat) : Prop :=
  ∀ start, pos < s.text.length → s.next pos = some start → pos ≤ start ∧ Returns (s.token start)

variable {s} {fuel : Nat}

/-- A scan with no token ahead comes to no other position. -/
theorem Reaches.eq_of_stuck {pos e : Nat} (h : s.Reaches pos e)
    (hstuck : pos < s.text.length → s.next pos = none) :
    e = pos := by
  cases h with
  | refl => rfl
  | token hlt hsome => exact absurd ((hstuck hlt).symm.trans hsome) nofun

theorem forwardAt_of_stuck {pos : Nat} (hstuck : pos < s.text.length → s.next pos = none) :
    ∀ e, s.Reaches pos e → s.ForwardAt e := by
  intro e he start hlt hsome
  obtain rfl := he.eq_of_stuck hstuck
  exact absurd ((hstuck hlt).symm.trans hsome) nofun

/-- A scan returns exactly when no position it comes to has its next token start
behind it, and every token read returns. -/
theorem loop_returns_iff (hs : s.Lawful) (literal : σ → Bytes → σ) (accept : σ → β → σ)
    (fuel : Nat) :
    ∀ (pos : Nat) (st : σ), s.text.length ≤ pos + fuel → isCharBoundary s.text pos = true →
      (Returns (s.loop literal accept fuel pos st) ↔ ∀ e, s.Reaches pos e → s.ForwardAt e) := by
  induction fuel with
  | zero =>
    intro pos st hfuel _
    have hpos : ¬ pos < s.text.length := Nat.not_lt.mpr hfuel
    rw [loop, if_neg hpos]
    exact iff_of_true (returns_ok st) (forwardAt_of_stuck fun hlt => absurd hlt hpos)
  | succ fuel ih =>
    intro pos st hfuel hbound
    rw [loop]
    by_cases hpos : pos < s.text.length
    · have hrest := slice_of_boundary (ε := ε) (Nat.le_of_lt hpos) (Nat.le_refl _) hbound
        (isCharBoundary_length s.text)
      rw [if_pos hpos, hrest]
      show Returns (match s.next pos with | none => _ | some start => _) ↔ _
      cases hnext : s.next pos with
      | none => exact iff_of_true (returns_ok _) (forwardAt_of_stuck fun _ => hnext)
      | some start =>
        obtain ⟨hlt, hstart⟩ := hs.next_spec hnext
        by_cases hle : pos ≤ start
        · simp only [slice_of_boundary hle (Nat.le_of_lt hlt) hbound hstart]
          show Returns (s.token start >>= _) ↔ _
          rw [returns_bind_iff]
          constructor
          · rintro ⟨htoken, hgo⟩ e he
            cases he with
            | refl =>
              intro start' _ hnext'
              obtain rfl := Option.mem_unique hnext hnext'
              exact ⟨hle, htoken⟩
            | token _ hnext' _ hread hreach =>
              obtain rfl := Option.mem_unique hnext hnext'
              obtain ⟨hstop, -, hb⟩ := hs.token_spec hnext hread
              exact (ih _ _ (by omega) hb).mp (hgo _ hread) e hreach
          · intro h
            have hhere := h pos (.refl pos) start hpos hnext
            refine ⟨hhere.2, fun token hread => ?_⟩
            obtain ⟨stop, value⟩ := token
            obtain ⟨hstop, -, hb⟩ := hs.token_spec hnext hread
            exact (ih _ _ (by omega) hb).mpr fun e he => h e (.token hpos hnext hle hread he)
        · refine iff_of_false ?_ fun h => hle (h pos (.refl pos) start hpos hnext).1
          intro h
          exact not_returns_slice (Nat.not_le.mp hle) (returns_bind_iff.mp h).1
    · rw [if_neg hpos]
      exact iff_of_true (returns_ok st) (forwardAt_of_stuck fun hlt => absurd hlt hpos)

/-- A scan that succeeds is a run, and its state is that of the run. -/
theorem exists_run_of_loop {literal : σ → Bytes → σ} {accept : σ → β → σ} :
    ∀ {pos : Nat} {st st' : σ}, s.loop literal accept fuel pos st = .ok st' →
      ∃ spans, s.Run pos spans ∧ st' = s.pieces literal accept pos spans st := by
  induction fuel with
  | zero =>
    intro pos st st' h
    rw [loop] at h
    obtain ⟨hpos, h⟩ := else_of_ite h nofun
    exact ⟨[], .done (Nat.not_lt.mp hpos), by rw [pieces, if_neg hpos, Except.ok.inj h]⟩
  | succ fuel ih =>
    intro pos st st' h
    rw [loop] at h
    split at h
    next hpos =>
      obtain ⟨rest, hrest, h⟩ := bind_eq_ok h
      obtain ⟨-, -, -, rfl⟩ := slice_eq_ok hrest
      cases hnext : s.next pos with
      | none =>
        simp only [hnext] at h
        refine ⟨[], .rest hnext, ?_⟩
        rw [pieces, if_pos hpos, ← Except.ok.inj h,
          List.take_of_length_le (List.length_drop ▸ Nat.le_refl _)]
      | some start =>
        simp only [hnext] at h
        obtain ⟨skipped, hskipped, h⟩ := bind_eq_ok h
        obtain ⟨hle, -, -, rfl⟩ := slice_eq_ok hskipped
        obtain ⟨⟨stop, value⟩, hread, h⟩ := bind_eq_ok h
        obtain ⟨spans, hrun, rfl⟩ := ih h
        exact ⟨⟨start, stop, value⟩ :: spans, .token hpos hnext hle hread hrun, rfl⟩
    next hpos =>
      exact ⟨[], .done (Nat.not_lt.mp hpos), by rw [pieces, if_neg hpos, Except.ok.inj h]⟩

/-- What every literal slice and every token keeps, a scan keeps. -/
theorem loop_invariant {literal : σ → Bytes → σ} {accept : σ → β → σ} {P : σ → Prop}
    (hliteral : ∀ {st start stop piece}, P st → slice (ε := ε) s.text start stop = .ok piece →
      P (literal st piece))
    (haccept : ∀ {st start stop value}, P st → s.token start = .ok (stop, value) →
      P (accept st value)) : ∀ {pos : Nat} {st st' : σ}, P st →
    s.loop literal accept fuel pos st = .ok st' → P st' := by
  induction fuel with
  | zero =>
    intro pos st st' hst h
    rw [loop] at h
    obtain ⟨-, h⟩ := else_of_ite h nofun
    exact Except.ok.inj h ▸ hst
  | succ fuel ih =>
    intro pos st st' hst h
    rw [loop] at h
    split at h
    next =>
      obtain ⟨rest, hrest, h⟩ := bind_eq_ok h
      cases hnext : s.next pos with
      | none =>
        simp only [hnext] at h
        exact Except.ok.inj h ▸ hliteral hst hrest
      | some start =>
        simp only [hnext] at h
        obtain ⟨skipped, hskipped, h⟩ := bind_eq_ok h
        obtain ⟨⟨stop, value⟩, hread, h⟩ := bind_eq_ok h
        exact ih (haccept (hliteral hst hskipped) hread) h
    next => exact Except.ok.inj h ▸ hst

/-! ## What a run replaces -/

/-- Spans of a text of a given length, from left to right from a position, with no
overlap. -/
def Tiled (length : Nat) : Nat → List (Span β) → Prop
  | _, [] => True
  | pos, span :: spans =>
    pos ≤ span.start ∧ span.start < span.stop ∧ span.stop ≤ length ∧ Tiled length span.stop spans

variable {pos : Nat} {spans : List (Span β)}

theorem Run.tiled_of_read (h : s.Run pos spans)
    (hread : ∀ {pos start stop value}, s.next pos = some start → s.token start = .ok (stop, value) →
      start < stop ∧ stop ≤ s.text.length) : Tiled s.text.length pos spans := by
  induction h with
  | done | rest => trivial
  | token _ hnext hle htoken _ ih =>
    obtain ⟨hlt, hlen⟩ := hread hnext htoken
    exact ⟨hle, hlt, hlen, ih⟩

theorem Run.tiled (hs : s.Lawful) (h : s.Run pos spans) :
    Tiled s.text.length pos spans :=
  h.tiled_of_read fun hnext htoken =>
    ⟨(hs.token_spec hnext htoken).1, (hs.token_spec hnext htoken).2.1⟩

theorem Tiled.bounds {length : Nat} {span : Span β} :
    ∀ {pos : Nat} {spans : List (Span β)}, Tiled length pos spans → span ∈ spans →
      pos ≤ span.start ∧ span.start < span.stop
  | _, _ :: _, ⟨hle, hlt, _, hrest⟩, hmem => by
    rcases List.mem_cons.mp hmem with rfl | hmem
    · exact ⟨hle, hlt⟩
    · obtain ⟨hpos, hspan⟩ := Tiled.bounds hrest hmem
      exact ⟨Nat.le_trans hle (Nat.le_trans (Nat.le_of_lt hlt) hpos), hspan⟩

/-- Two spans that share a position are one. -/
theorem Tiled.eq_of_overlap {length i : Nat} {a b : Span β} :
    ∀ {pos : Nat} {spans : List (Span β)}, Tiled length pos spans → a ∈ spans → b ∈ spans →
      a.start ≤ i → i < a.stop → b.start ≤ i → i < b.stop → a = b
  | _, _ :: _, ⟨_, _, _, hrest⟩, ha, hb, ha1, ha2, hb1, hb2 => by
    rcases List.mem_cons.mp ha with rfl | hta
    · rcases List.mem_cons.mp hb with rfl | htb
      · rfl
      · exact absurd ((hrest.bounds htb).1.trans hb1) (Nat.not_le.mpr ha2)
    · rcases List.mem_cons.mp hb with rfl | htb
      · exact absurd ((hrest.bounds hta).1.trans ha1) (Nat.not_le.mpr hb2)
      · exact Tiled.eq_of_overlap hrest hta htb ha1 ha2 hb1 hb2

/-- A text from a position on, with its spans replaced. -/
def splice (text : Bytes) (value : Span β → Bytes) : Nat → List (Span β) → Bytes
  | pos, [] => text.drop pos
  | pos, span :: spans =>
    (text.drop pos).take (span.start - pos) ++ value span ++ splice text value span.stop spans

/-- A state that collects text collects the spliced text. -/
theorem pieces_text (literal : σ → Bytes → σ) (accept : σ → β → σ) (text : σ → Bytes)
    (value : β → Bytes) (hliteral : ∀ st l, text (literal st l) = text st ++ l)
    (haccept : ∀ st v, text (accept st v) = text st ++ value v) :
    ∀ (spans : List (Span β)) (pos : Nat) (st : σ),
      text (s.pieces literal accept pos spans st) =
        text st ++ splice s.text (fun span => value span.value) pos spans
  | [], pos, st => by
    rw [pieces, splice]
    split
    · exact hliteral st _
    next hpos => rw [List.drop_eq_nil_of_le (Nat.not_lt.mp hpos), List.append_nil]
  | span :: spans, pos, st => by
    rw [pieces, splice, pieces_text literal accept text value hliteral haccept spans,
      haccept, hliteral]
    simp only [List.append_assoc]

/-- A state that counts tokens counts the spans. -/
theorem pieces_count (literal : σ → Bytes → σ) (accept : σ → β → σ) (count : σ → Nat)
    (hliteral : ∀ st l, count (literal st l) = count st)
    (haccept : ∀ st v, count (accept st v) = count st + 1) :
    ∀ (spans : List (Span β)) (pos : Nat) (st : σ),
      count (s.pieces literal accept pos spans st) = count st + spans.length
  | [], pos, st => by
    rw [pieces]
    split
    · exact hliteral st _
    · rfl
  | span :: spans, pos, st => by
    rw [pieces, pieces_count literal accept count hliteral haccept spans, haccept, hliteral,
      List.length_cons]
    omega

/-- Every span of a run was found and read. -/
theorem Run.exists_of_mem (h : s.Run pos spans) {span : Span β}
    (hspan : span ∈ spans) :
    ∃ from', s.next from' = some span.start ∧ s.token span.start = .ok (span.stop, span.value) := by
  induction h with
  | done | rest => cases hspan
  | token _ hnext _ hread _ ih =>
    rcases List.mem_cons.mp hspan with rfl | hspan
    · exact ⟨_, hnext, hread⟩
    · exact ih hspan

/-- The end of every span is a position the run comes to, and the other way round. -/
theorem Run.reaches_iff {e : Nat} (h : s.Run pos spans) :
    s.Reaches pos e ↔ e = pos ∨ ∃ span ∈ spans, span.stop = e := by
  have hstop : ∀ {pos}, (pos < s.text.length → s.next pos = none) → (s.Reaches pos e ↔ e = pos) :=
    fun hstuck =>
    ⟨fun he => he.eq_of_stuck hstuck, fun he => he ▸ .refl _⟩
  induction h with
  | done hlen => simpa using hstop fun hlt => absurd hlt (Nat.not_lt.mpr hlen)
  | rest hnext => simpa using hstop fun _ => hnext
  | @token pos start stop value spans hpos hnext hle hread _ ih =>
    constructor
    · intro he
      cases he with
      | refl => exact Or.inl rfl
      | token _ hnext' _ hread' hreach =>
        obtain rfl := Option.mem_unique hnext hnext'
        cases hread.symm.trans hread'
        rcases ih.mp hreach with rfl | ⟨span, hspan, hstop⟩
        · exact Or.inr ⟨_, List.mem_cons_self, rfl⟩
        · exact Or.inr ⟨span, List.mem_cons_of_mem _ hspan, hstop⟩
    · rintro (rfl | ⟨span, hspan, rfl⟩)
      · exact .refl _
      · refine .token hpos hnext hle hread (ih.mpr ?_)
        rcases List.mem_cons.mp hspan with rfl | hspan
        · exact Or.inl rfl
        · exact Or.inr ⟨span, hspan, rfl⟩

section Marks
variable (mark : Nat → Prop) (width : Nat)

/-- Every marked stretch lies inside a span. -/
def Covers (spans : List (Span β)) : Prop :=
  ∀ i, mark i → ∃ span ∈ spans, span.start ≤ i ∧ i + width ≤ span.stop

/-- A marked stretch starts before a position and ends behind it. -/
def Straddled (e : Nat) : Prop := ∃ i, mark i ∧ i < e ∧ e < i + width

variable {mark width}

/-- A marked stretch behind the position of a run is covered, or it straddles the
end of a token. -/
theorem Run.covered_or_straddled (hmark : ∀ i, mark i → i < s.text.length)
    (hnext : ∀ pos i, pos ≤ i → mark i → ∃ start ≤ i, s.next pos = some start) {i : Nat}
    {spans : List (Span β)} (h : s.Run pos spans) (hpos : pos ≤ i) (hi : mark i) :
    (∃ span ∈ spans, span.start ≤ i ∧ i + width ≤ span.stop) ∨
      ∃ span ∈ spans, i < span.stop ∧ span.stop < i + width := by
  induction h with
  | done hlen => exact absurd (hmark i hi) (Nat.not_lt.mpr (Nat.le_trans hlen hpos))
  | rest hnone =>
    obtain ⟨start, -, hsome⟩ := hnext _ i hpos hi
    exact absurd (hnone.symm.trans hsome) nofun
  | @token pos start stop value spans _ hsome _ _ _ ih =>
    obtain ⟨start', hle, hsome'⟩ := hnext _ i hpos hi
    obtain rfl := Option.mem_unique hsome hsome'
    by_cases hstop : stop ≤ i
    · rcases ih hstop with ⟨span, hspan, h⟩ | ⟨span, hspan, h⟩
      · exact Or.inl ⟨span, List.mem_cons_of_mem _ hspan, h⟩
      · exact Or.inr ⟨span, List.mem_cons_of_mem _ hspan, h⟩
    · by_cases hcover : i + width ≤ stop
      · exact Or.inl ⟨_, List.mem_cons_self, hle, hcover⟩
      · exact Or.inr ⟨_, List.mem_cons_self, Nat.not_le.mp hstop, Nat.not_le.mp hcover⟩

/-- The tokens of a run cover every marked stretch exactly when none straddles a
position the scan came to. -/
theorem covers_iff (hs : s.Lawful) (hwidth : 0 < width) (hmark : ∀ i, mark i → i < s.text.length)
    (hnext : ∀ pos i, pos ≤ i → mark i → ∃ start ≤ i, s.next pos = some start)
    {spans : List (Span β)} (h : s.Run 0 spans) :
    Covers mark width spans ↔ ∀ e, s.Reaches 0 e → ¬ Straddled mark width e := by
  constructor
  · rintro hcover e he ⟨i, hi, hie, hei⟩
    rcases h.reaches_iff.mp he with rfl | ⟨span, hspan, rfl⟩
    · exact absurd hie (Nat.not_lt_zero i)
    obtain ⟨span', hspan', hstart, hstop⟩ := hcover i hi
    -- the covering span ends behind this one, so it starts behind it too
    by_cases hin : span.start ≤ i
    · have := (h.tiled hs).eq_of_overlap hspan hspan' hin hie hstart (by omega)
      rw [this] at hei
      omega
    · have hlt := Nat.not_le.mp hin
      have hbound := (h.tiled hs).bounds hspan
      have := (h.tiled hs).eq_of_overlap (i := span.start) hspan hspan' (Nat.le_refl _) hbound.2
        (by omega) (by omega)
      rw [this] at hlt
      omega
  · intro hclear i hi
    rcases h.covered_or_straddled hmark hnext (Nat.zero_le i) hi
      with hcover | ⟨span, hspan, hlt, hstop⟩
    · exact hcover
    · exact absurd ⟨i, hi, hlt, hstop⟩ (hclear _ (h.reaches_iff.mpr (Or.inr ⟨span, hspan, rfl⟩)))

end Marks

/-! ## Two runs side by side -/

/-- The same stretch of text, with values that agree. -/
def Aligned {γ : Type} (V : β → γ → Prop) (a : Span β) (b : Span γ) : Prop :=
  a.start = b.start ∧ a.stop = b.stop ∧ V a.value b.value

/-- Two scans of texts of one length that look for the same starts and read tokens to
the same ends replace the same stretches. -/
theorem Run.aligned {γ ζ : Type} {V : β → γ → Prop} {s' : Scanner γ ζ} {spans' : List (Span γ)}
    (h : s.Run pos spans) (h' : s'.Run pos spans')
    (hlen : s.text.length = s'.text.length) (hnext : ∀ pos, s.next pos = s'.next pos)
    (htoken : ∀ {start stop stop' value value'}, s.token start = .ok (stop, value) →
      s'.token start = .ok (stop', value') → stop = stop' ∧ V value value') :
    List.Forall₂ (Aligned V) spans spans' := by
  induction h generalizing spans' with
  | done hpos =>
    cases h' with
    | done | rest => exact .nil
    | token hlt => exact absurd (hlen ▸ hlt) (Nat.not_lt.mpr hpos)
  | rest hnone =>
    cases h' with
    | done | rest => exact .nil
    | token _ hsome => exact absurd (((hnext _).symm.trans hnone).symm.trans hsome) nofun
  | token hlt hsome _ hread _ ih =>
    cases h' with
    | done hpos => exact absurd (hlen ▸ hlt) (Nat.not_lt.mpr hpos)
    | rest hnone => exact absurd (((hnext _).trans hnone).symm.trans hsome) nofun
    | token _ hsome' _ hread' h' =>
      cases ((hnext _).symm.trans hsome).symm.trans hsome'
      obtain ⟨rfl, hvalue⟩ := htoken hread hread'
      exact .cons ⟨rfl, rfl, hvalue⟩ (ih h')

theorem eq_of_aligned {spans spans' : List (Span β)} (h : List.Forall₂ (Aligned Eq) spans spans') :
    spans = spans' := by
  refine List.forall₂_eq_eq_eq ▸ h.imp fun ⟨_, _, _⟩ ⟨_, _, _⟩ => ?_
  rintro ⟨⟨⟩, ⟨⟩, ⟨⟩⟩
  rfl

/-- A scan has one run. -/
theorem Run.unique {spans spans' : List (Span β)} (h : s.Run pos spans) (h' : s.Run pos spans') :
    spans = spans' :=
  eq_of_aligned (h.aligned h' rfl (fun _ => rfl) fun hread hread' =>
    ok_pair_inj (hread.symm.trans hread'))

/-- Texts of one length that agree on their spans and come to one text when the spans
are replaced are the same. -/
theorem drop_eq_of_splice_eq {a b : Bytes} (hlen : a.length = b.length) {value : Span β → Bytes} :
    ∀ {spans : List (Span β)} {pos : Nat}, Tiled a.length pos spans →
      (∀ span ∈ spans, (a.drop span.start).take (span.stop - span.start) =
        (b.drop span.start).take (span.stop - span.start)) →
      splice a value pos spans = splice b value pos spans → a.drop pos = b.drop pos
  | [], _, _, _, h => h
  | span :: spans, pos, ⟨hle, hlt, _, hrest⟩, hspans, h => by
    rw [splice, splice, List.append_assoc, List.append_assoc] at h
    obtain ⟨hhead, htail⟩ := List.append_inj h (by simp [hlen])
    have hdrop := drop_eq_of_splice_eq hlen hrest (List.forall_mem_cons.mp hspans).2
      (List.append_cancel_left htail)
    -- the text from the position is the literal part, the span and the rest
    have hsplit : ∀ text : Bytes, text.drop pos = (text.drop pos).take (span.start - pos) ++
        ((text.drop span.start).take (span.stop - span.start) ++ text.drop span.stop) := by
      intro text
      have hspan := List.take_append_drop (span.stop - span.start) (text.drop span.start)
      rw [List.drop_drop, Nat.add_sub_cancel' (Nat.le_of_lt hlt)] at hspan
      have hpos := List.take_append_drop (span.start - pos) (text.drop pos)
      rw [List.drop_drop, Nat.add_sub_cancel' hle] at hpos
      rw [hspan, hpos]
    rw [hsplit a, hsplit b, hhead, hspans span List.mem_cons_self, hdrop]

/-- Aligned spans spliced into one text. -/
theorem splice_aligned {γ : Type} {V : β → γ → Prop} (text : Bytes) {value : Span β → Bytes}
    {value' : Span γ → Bytes} (hvalue : ∀ a b, Aligned V a b → value a = value' b)
    {spans' : List (Span γ)} (h : List.Forall₂ (Aligned V) spans spans') (pos : Nat) :
    splice text value pos spans = splice text value' pos spans' := by
  induction h generalizing pos with
  | nil => rfl
  | @cons a b _ _ hab _ ih => rw [splice, splice, ih, hvalue a b hab, hab.1, hab.2.1]

end Scanner

end OpenShell
