/-!
# Runs of a machine

A machine takes one call at a time: from its state and the call it computes the
next state and what the call returns. Here are the state after a list of calls,
the events of such a run, and the rules its invariants are proved by.
-/

namespace OpenShell

/-- One call of a run, with the states around it. -/
structure Event (σ κ ω : Type) where
  before : σ
  call : κ
  outcome : ω
  after : σ

namespace Run

variable {σ κ ω : Type} (step : σ → κ → σ × ω)

def after (s : σ) : List κ → σ
  | [] => s
  | call :: calls => after (step s call).1 calls

def trace (s : σ) : List κ → List (Event σ κ ω)
  | [] => []
  | call :: calls => ⟨s, call, (step s call).2, (step s call).1⟩ :: trace (step s call).1 calls

variable {step}

theorem after_append (s : σ) (calls rest : List κ) :
    after step s (calls ++ rest) = after step (after step s calls) rest := by
  induction calls generalizing s with
  | nil => rfl
  | cons call calls ih => exact ih _

theorem trace_append (s : σ) (calls rest : List κ) :
    trace step s (calls ++ rest) = trace step s calls ++ trace step (after step s calls) rest := by
  induction calls generalizing s with
  | nil => rfl
  | cons call calls ih =>
    rw [List.cons_append, trace, ih]
    rfl

variable {calls : List κ} {s : σ} {e : Event σ κ ω}

/-- An event is a step, taken after some of the calls. -/
theorem mem_trace (h : e ∈ trace step s calls) :
    ∃ pre post, calls = pre ++ e.call :: post ∧ e.before = after step s pre ∧
      step e.before e.call = (e.after, e.outcome) := by
  induction calls generalizing s with
  | nil => cases h
  | cons call calls ih =>
    rcases List.mem_cons.mp h with rfl | h
    · exact ⟨[], calls, rfl, rfl, rfl⟩
    · obtain ⟨pre, post, rfl, hbefore, hstep⟩ := ih h
      exact ⟨call :: pre, post, rfl, hbefore, hstep⟩

/-- An event is one of the calls, and what every step is. -/
theorem of_mem_trace {P : σ → κ → σ → ω → Prop} (h : e ∈ trace step s calls)
    (hstep : P e.before e.call (step e.before e.call).1 (step e.before e.call).2) :
    e.call ∈ calls ∧ P e.before e.call e.after e.outcome := by
  obtain ⟨pre, post, rfl, -, heq⟩ := mem_trace h
  rw [heq] at hstep
  exact ⟨List.mem_append_right _ List.mem_cons_self, hstep⟩

/-- The event of the last call. -/
theorem exists_last (s : σ) (calls : List κ) (call : κ) :
    ∃ e ∈ trace step s (calls ++ [call]), e.before = after step s calls ∧ e.call = call ∧
      e.outcome = (step (after step s calls) call).2 := by
  rw [trace_append]
  exact ⟨⟨after step s calls, call, _, _⟩, List.mem_concat_self .., rfl, rfl, rfl⟩

/-- A part of the events belongs to a part of the calls. -/
theorem trace_eq_append {before rest : List (Event σ κ ω)}
    (h : trace step s calls = before ++ rest) :
    ∃ first second, calls = first ++ second ∧ before = trace step s first ∧
      rest = trace step (after step s first) second := by
  induction before generalizing s calls with
  | nil => exact ⟨[], calls, rfl, rfl, h.symm⟩
  | cons e before ih =>
    cases calls with
    | nil => cases h
    | cons call calls =>
      rw [trace, List.cons_append, List.cons.injEq] at h
      obtain ⟨first, second, rfl, rfl, rfl⟩ := ih h.2
      exact ⟨call :: first, second, rfl, by rw [trace, h.1], rfl⟩

/-- The events around one of them. -/
theorem trace_eq_append_cons {before rest : List (Event σ κ ω)}
    (h : trace step s calls = before ++ e :: rest) :
    ∃ first second, calls = first ++ e.call :: second ∧ before = trace step s first ∧
      e.before = after step s first ∧ step e.before e.call = (e.after, e.outcome) ∧
      rest = trace step e.after second := by
  obtain ⟨first, second, rfl, hbefore, hrest⟩ := trace_eq_append h
  cases second with
  | nil => cases hrest
  | cons call second =>
    rw [trace, List.cons.injEq] at hrest
    obtain ⟨rfl, rfl⟩ := hrest
    exact ⟨first, second, rfl, hbefore, rfl, rfl, rfl⟩

/-- An invariant that may depend on how many calls were made, kept by every call up to
the bound. -/
theorem after_invariant {I : Nat → σ → Prop} (bound : Nat)
    (hstep : ∀ k s call, k < bound → I k s → I (k + 1) (step s call).1) {k : Nat} (hs : I k s)
    (calls : List κ) (hbound : k + calls.length ≤ bound) :
    I (k + calls.length) (after step s calls) := by
  induction calls generalizing s k with
  | nil => exact hs
  | cons call calls ih =>
    have hlength : k + (call :: calls).length = k + 1 + calls.length := by
      rw [List.length_cons]
      omega
    rw [hlength] at hbound ⊢
    exact ih (hstep k s call (by omega) hs) hbound

variable {R : σ → σ → Prop}

/-- What every step does to the state, a run does. -/
theorem after_related (hrefl : ∀ s, R s s) (htrans : ∀ s t u, R s t → R t u → R s u)
    (hstep : ∀ s call, R s (step s call).1) (s : σ) (calls : List κ) :
    R s (after step s calls) := by
  induction calls generalizing s with
  | nil => exact hrefl s
  | cons call calls ih => exact htrans _ _ _ (hstep s call) (ih _)

/-- What every step keeps, a run keeps. -/
theorem after_of_step {I : σ → Prop} (hstep : ∀ s call, I s → I (step s call).1) (hs : I s)
    (calls : List κ) :
    I (after step s calls) :=
  after_related (R := fun s t => I s → I t) (fun _ h => h) (fun _ _ _ h h' hs => h' (h hs))
    hstep s calls hs

/-- The state an event leaves is related to every later one. -/
theorem related_of_mem_trace (hrefl : ∀ s, R s s) (htrans : ∀ s t u, R s t → R t u → R s u)
    (hstep : ∀ s call, R s (step s call).1)
    (h : e ∈ trace step s calls) : R e.after (after step s calls) := by
  obtain ⟨pre, post, rfl, hbefore, he⟩ := mem_trace h
  have hafter : after step s (pre ++ e.call :: post) = after step e.after post := by
    rw [after_append, ← hbefore, after, he]
  rw [hafter]
  exact after_related hrefl htrans hstep _ _

/-- Between two events of a run the state only moves along the relation. -/
theorem trace_pairwise (hrefl : ∀ s, R s s) (htrans : ∀ s t u, R s t → R t u → R s u)
    (hstep : ∀ s call, R s (step s call).1) (s : σ) (calls : List κ) :
    (trace step s calls).Pairwise fun e e' => R e.after e'.before := by
  induction calls generalizing s with
  | nil => exact .nil
  | cons call calls ih =>
    refine .cons (fun e' h => ?_) (ih _)
    obtain ⟨pre, _, -, hbefore, -⟩ := mem_trace h
    rw [hbefore]
    exact after_related hrefl htrans hstep _ pre

/-- An invariant kept by the steps a run takes. -/
theorem trace_invariant {I : σ → Prop} (hs : I s)
    (hstep : ∀ e ∈ trace step s calls, I e.before → I e.after) :
    (∀ e ∈ trace step s calls, I e.before ∧ I e.after) ∧ I (after step s calls) := by
  induction calls generalizing s with
  | nil => exact ⟨nofun, hs⟩
  | cons call calls ih =>
    have hfirst : I (step s call).1 := hstep _ List.mem_cons_self hs
    obtain ⟨hrest, hlast⟩ := ih hfirst (List.forall_mem_cons.mp hstep).2
    exact ⟨List.forall_mem_cons.mpr ⟨⟨hs, hfirst⟩, hrest⟩, hlast⟩

/-- What holds after a run held from the start, or an event of the run established it. -/
theorem of_after {P : σ → Prop} {E : Event σ κ ω → Prop}
    (hstep : ∀ e ∈ trace step s calls, P e.after → P e.before ∨ E e) (h : P (after step s calls)) :
    P s ∨ ∃ e ∈ trace step s calls, E e := by
  refine Classical.byContradiction fun hnone => ?_
  obtain ⟨hs, hnone⟩ := not_or.mp hnone
  exact (trace_invariant (I := fun s => ¬ P s) hs fun e he hbefore hafter =>
    hnone ⟨e, he, (hstep e he hafter).resolve_left hbefore⟩).2 h

/-- What an event establishes and the steps of the run keep holds at every later event. -/
theorem pairwise_of_invariant {I : Event σ κ ω → σ → Prop}
    (hstart : ∀ e ∈ trace step s calls, I e e.after)
    (hstep : ∀ e ∈ trace step s calls, ∀ e' ∈ trace step s calls, I e e'.before → I e e'.after) :
    (trace step s calls).Pairwise fun e e' => I e e'.before := by
  induction calls generalizing s with
  | nil => exact .nil
  | cons call calls ih =>
    have hmem : ∀ {e}, e ∈ trace step (step s call).1 calls → e ∈ trace step s (call :: calls) :=
      List.mem_cons_of_mem _
    refine .cons (fun e' he' => ?_) (ih (fun e he => hstart e (hmem he))
      fun e he e' he' => hstep e (hmem he) e' (hmem he'))
    exact ((trace_invariant (hstart _ List.mem_cons_self)
      fun e he => hstep _ List.mem_cons_self e (hmem he)).1 e' he').1

end Run

end OpenShell
