import Mathlib.Data.Finset.Prod
import Mathlib.Logic.Relation

/-!
# Worklist search

A search that pops a state, skips it if seen, stops at a goal and otherwise
queues the successors. Whether new states go to the front (a stack) or to the
back (a queue) is a parameter, since it does not matter: over a finite universe
the search answers whether a goal is reachable (`explore_iff`).

The loop runs on fuel. Each turn either drops a queued state or turns an unseen
state into a seen one while queueing at most `b` others, so `pending + b *
unseen` falls at every turn and bounds the fuel.
-/

namespace OpenShell.Worklist

variable {σ : Type} [DecidableEq σ]

/-- A way to queue successors: it keeps both lists and nothing else. -/
structure Enqueue (σ : Type) where
  run : List σ → List σ → List σ
  mem_run : ∀ pending new s, s ∈ run pending new ↔ s ∈ pending ∨ s ∈ new
  length_run : ∀ pending new, (run pending new).length = pending.length + new.length

/-- First in, first out. -/
def queue : Enqueue σ where
  run pending new := pending ++ new
  mem_run _ _ _ := List.mem_append
  length_run _ _ := List.length_append

/-- Last in, first out: the last successor pushed is popped first. -/
def stack : Enqueue σ where
  run pending new := new.reverse ++ pending
  mem_run pending new s := by rw [List.mem_append, List.mem_reverse, or_comm]
  length_run pending new := by rw [List.length_append, List.length_reverse, Nat.add_comm]

/-- The search loop. -/
def explore (enq : Enqueue σ) (step : σ → List σ) (goal : σ → Bool) :
    Nat → List σ → List σ → Bool
  | 0, _, _ => false
  | _ + 1, [], _ => false
  | fuel + 1, s :: pending, seen =>
    if seen.contains s then explore enq step goal fuel pending seen
    else if goal s then true
    else explore enq step goal fuel (enq.run pending (step s)) (s :: seen)

/-- Reachability along the step function. -/
abbrev Reachable (step : σ → List σ) : σ → σ → Prop :=
  Relation.ReflTransGen fun s t => t ∈ step s

section

variable {enq : Enqueue σ} {step : σ → List σ} {goal : σ → Bool}

/-- A goal that is found is reachable from a queued state. -/
theorem explore_sound :
    ∀ (fuel : Nat) (pending seen : List σ), explore enq step goal fuel pending seen = true →
      ∃ s ∈ pending, ∃ t, Reachable step s t ∧ goal t = true := by
  intro fuel
  induction fuel with
  | zero => intro pending seen h; cases h
  | succ fuel ih =>
    intro pending seen h
    cases pending with
    | nil => cases h
    | cons s pending =>
      rw [explore] at h
      split at h
      next =>
        obtain ⟨s', hs', ht⟩ := ih pending seen h
        exact ⟨s', List.mem_cons_of_mem _ hs', ht⟩
      next =>
        split at h
        next hgoal => exact ⟨s, List.mem_cons_self, s, .refl, hgoal⟩
        next =>
          obtain ⟨s', hs', t, hreach, hgoal⟩ := ih _ _ h
          rcases (enq.mem_run pending (step s) s').mp hs' with hp | hn
          · exact ⟨s', List.mem_cons_of_mem _ hp, t, hreach, hgoal⟩
          · exact ⟨s, List.mem_cons_self, t, .head hn hreach, hgoal⟩

/-- The loop invariant: a seen state is no goal, and its successors are seen or
queued. -/
def Explored (step : σ → List σ) (goal : σ → Bool) (pending seen : List σ) : Prop :=
  ∀ s ∈ seen, goal s = false ∧ ∀ t ∈ step s, t ∈ seen ∨ t ∈ pending

omit [DecidableEq σ] in
theorem Explored.skip {s : σ} {pending seen : List σ}
    (h : Explored step goal (s :: pending) seen) (hs : s ∈ seen) :
    Explored step goal pending seen := by
  intro t ht
  obtain ⟨hgoal, hsucc⟩ := h t ht
  refine ⟨hgoal, fun u hu => ?_⟩
  rcases hsucc u hu with hu | hu
  · exact Or.inl hu
  · rcases List.mem_cons.mp hu with rfl | hu
    · exact Or.inl hs
    · exact Or.inr hu

omit [DecidableEq σ] in
theorem Explored.visit {s : σ} {pending seen : List σ}
    (h : Explored step goal (s :: pending) seen) (hs : goal s = false) :
    Explored step goal (enq.run pending (step s)) (s :: seen) := by
  intro t ht
  rcases List.mem_cons.mp ht with rfl | ht
  · refine ⟨hs, fun u hu => Or.inr ?_⟩
    exact (enq.mem_run _ _ _).mpr (Or.inr hu)
  · obtain ⟨hgoal, hsucc⟩ := h t ht
    refine ⟨hgoal, fun u hu => ?_⟩
    rcases hsucc u hu with hu | hu
    · exact Or.inl (List.mem_cons_of_mem _ hu)
    · rcases List.mem_cons.mp hu with rfl | hu
      · exact Or.inl List.mem_cons_self
      · exact Or.inr ((enq.mem_run _ _ _).mpr (Or.inl hu))

/-- With enough fuel, a search that finds nothing has seen a closed set of
states, none of them a goal, that contains everything queued. -/
theorem explore_false {dom : Finset σ} {b : Nat}
    (hclosed : ∀ s ∈ dom, ∀ t ∈ step s, t ∈ dom) (hbranch : ∀ s ∈ dom, (step s).length ≤ b) :
    ∀ (fuel : Nat) (pending seen : List σ), (∀ s ∈ pending, s ∈ dom) →
      Explored step goal pending seen →
      pending.length + b * (dom \ seen.toFinset).card < fuel →
      explore enq step goal fuel pending seen = false →
      ∃ final : List σ, Explored step goal [] final ∧
        ∀ s, s ∈ pending ∨ s ∈ seen → s ∈ final := by
  intro fuel
  induction fuel with
  | zero => intro pending seen _ _ hfuel; omega
  | succ fuel ih =>
    intro pending seen hin hinv hfuel h
    cases pending with
    | nil => exact ⟨seen, hinv, fun s hs => hs.resolve_left List.not_mem_nil⟩
    | cons s pending =>
      have hs : s ∈ dom := hin s List.mem_cons_self
      have hrest : ∀ t ∈ pending, t ∈ dom := (List.forall_mem_cons.mp hin).2
      rw [explore] at h
      rw [List.length_cons] at hfuel
      split at h
      next hseen =>
        have hseen : s ∈ seen := by simpa using hseen
        obtain ⟨final, hfinal, hsub⟩ := ih pending seen hrest (hinv.skip hseen) (by omega) h
        refine ⟨final, hfinal, fun t ht => hsub t ?_⟩
        rcases ht with ht | ht
        · rcases List.mem_cons.mp ht with rfl | ht
          · exact Or.inr hseen
          · exact Or.inl ht
        · exact Or.inr ht
      next hseen =>
        have hseen : s ∉ seen := by simpa using hseen
        split at h
        next => cases h
        next hgoal =>
          have hin' : ∀ t ∈ enq.run pending (step s), t ∈ dom := by
            intro t ht
            rcases (enq.mem_run _ _ _).mp ht with ht | ht
            · exact hrest t ht
            · exact hclosed s hs t ht
          -- one unseen state fewer pays for the successors
          have hcard : (dom \ (s :: seen).toFinset).card + 1 = (dom \ seen.toFinset).card := by
            rw [List.toFinset_cons, Finset.sdiff_insert]
            exact Finset.card_erase_add_one (by simp [hs, hseen])
          have hfuel' : (enq.run pending (step s)).length
              + b * (dom \ (s :: seen).toFinset).card < fuel := by
            have hb := hbranch s hs
            rw [enq.length_run]
            rw [← hcard, Nat.mul_add, Nat.mul_one] at hfuel
            omega
          obtain ⟨final, hfinal, hsub⟩ :=
            ih _ _ hin' (hinv.visit (by simpa using hgoal)) hfuel' h
          refine ⟨final, hfinal, fun t ht => hsub t ?_⟩
          rcases ht with ht | ht
          · rcases List.mem_cons.mp ht with rfl | ht
            · exact Or.inr List.mem_cons_self
            · exact Or.inl ((enq.mem_run _ _ _).mpr (Or.inl ht))
          · exact Or.inr (List.mem_cons_of_mem _ ht)

omit [DecidableEq σ] in
/-- A closed set contains everything reachable from it. -/
theorem mem_of_reachable {final : List σ} (h : Explored step goal [] final) {s t : σ}
    (hs : s ∈ final) (hreach : Reachable step s t) : t ∈ final := by
  induction hreach with
  | refl => exact hs
  | tail _ hstep ih => exact ((h _ ih).2 _ hstep).resolve_right List.not_mem_nil

/-- **What the search decides.** Over a finite universe closed under `step`, with
at most `b` successors a state, the search from one state answers whether a
goal is reachable. -/
theorem explore_iff {dom : Finset σ} {b : Nat} (hclosed : ∀ s ∈ dom, ∀ t ∈ step s, t ∈ dom)
    (hbranch : ∀ s ∈ dom, (step s).length ≤ b) {fuel : Nat} {init : σ} (hinit : init ∈ dom)
    (hfuel : 1 + b * dom.card < fuel) :
    explore enq step goal fuel [init] [] = true ↔
      ∃ t, Reachable step init t ∧ goal t = true := by
  constructor
  · intro h
    obtain ⟨s, hs, t, hreach, hgoal⟩ := explore_sound fuel [init] [] h
    obtain rfl := List.mem_singleton.mp hs
    exact ⟨t, hreach, hgoal⟩
  · rintro ⟨t, hreach, hgoal⟩
    by_contra hne
    have hnone : explore enq step goal fuel [init] [] = false := by simpa using hne
    obtain ⟨final, hfinal, hsub⟩ := explore_false hclosed hbranch fuel [init] []
      (fun s hs => List.mem_singleton.mp hs ▸ hinit) (fun s hs => absurd hs List.not_mem_nil)
      (by simpa using hfuel) hnone
    have ht : t ∈ final :=
      mem_of_reachable hfinal (hsub init (Or.inl (List.mem_singleton.mpr rfl))) hreach
    rw [(hfinal t ht).1] at hgoal
    cases hgoal

end

/-! ## Two indices -/

/-- Search pairs of positions in two lists of lengths `m` and `n`, from the two
starts to the two ends; a position pair has at most three successors. -/
def searchPairs (enq : Enqueue (Nat × Nat)) (m n : Nat) (step : Nat × Nat → List (Nat × Nat)) :
    Bool :=
  explore enq step (fun s => s == (m, n)) (2 + 3 * ((m + 1) * (n + 1))) [(0, 0)] []

theorem searchPairs_iff {enq : Enqueue (Nat × Nat)} {m n : Nat}
    {step : Nat × Nat → List (Nat × Nat)}
    (hstep : ∀ i j, i ≤ m → j ≤ n → ∀ t ∈ step (i, j), t.1 ≤ m ∧ t.2 ≤ n)
    (hlen : ∀ s, (step s).length ≤ 3) :
    searchPairs enq m n step = true ↔ Reachable step (0, 0) (m, n) := by
  have hmem : ∀ s : Nat × Nat, s ∈ Finset.range (m + 1) ×ˢ Finset.range (n + 1) ↔
      s.1 ≤ m ∧ s.2 ≤ n := by
    intro s
    rw [Finset.mem_product, Finset.mem_range, Finset.mem_range, Nat.lt_succ_iff, Nat.lt_succ_iff]
  have hcard : (Finset.range (m + 1) ×ˢ Finset.range (n + 1)).card = (m + 1) * (n + 1) := by
    rw [Finset.card_product, Finset.card_range, Finset.card_range]
  have hclosed : ∀ s ∈ Finset.range (m + 1) ×ˢ Finset.range (n + 1), ∀ t ∈ step s,
      t ∈ Finset.range (m + 1) ×ˢ Finset.range (n + 1) := by
    intro s hs t ht
    rw [hmem] at hs ⊢
    exact hstep s.1 s.2 hs.1 hs.2 t ht
  unfold searchPairs
  rw [explore_iff hclosed (fun s _ => hlen s) ((hmem _).mpr ⟨Nat.zero_le _, Nat.zero_le _⟩)
    (by rw [hcard]; omega)]
  simp only [beq_iff_eq, exists_eq_right]

end OpenShell.Worklist
