import Mathlib.Data.List.Basic

/-!
# Tables of weak references

A table gives each key the object it was last given. An object lives as long as
something refers to it, which the table does not know: it is told which objects
are live. A table tracks the live objects if each is what its key gives; then no
key has two of them, whatever is swept from the table in between.
-/

namespace OpenShell

structure WeakTable (κ : Type) where
  entries : List (κ × Nat)

namespace WeakTable

variable {κ : Type} [DecidableEq κ]

def empty : WeakTable κ := ⟨[]⟩

def get (table : WeakTable κ) (key : κ) : Option Nat := (table.entries.find? (·.1 = key)).map (·.2)

def insert (table : WeakTable κ) (key : κ) (object : Nat) : WeakTable κ :=
  ⟨table.entries.filter (·.1 ≠ key) ++ [(key, object)]⟩

/-- Drop the entries whose object is gone. -/
def retain (table : WeakTable κ) (live : κ → Nat → Bool) : WeakTable κ :=
  ⟨table.entries.filter fun entry => live entry.1 entry.2⟩

/-- The object of a key, if it is still there. -/
def upgrade (table : WeakTable κ) (live : κ → Nat → Bool) (key : κ) : Option Nat :=
  (table.get key).filter (live key)

/-- Every live object is what its key gives. -/
def Tracks (table : WeakTable κ) (live : κ → Nat → Bool) : Prop :=
  ∀ key object, live key object = true → table.get key = some object

variable {table : WeakTable κ} {live live' : κ → Nat → Bool} {key key' : κ} {object : Nat}

theorem get_insert_self : (table.insert key object).get key = some object := by
  have hnone : (table.entries.filter (·.1 ≠ key)).find? (·.1 = key) = none := by
    rw [List.find?_eq_none]
    intro entry hentry hkey
    exact of_decide_eq_true (List.mem_filter.mp hentry).2 (of_decide_eq_true hkey)
  unfold get insert
  rw [List.find?_append, hnone]
  simp

theorem get_insert_of_ne (h : key' ≠ key) :
    (table.insert key object).get key' = table.get key' := by
  have hfilter : (table.entries.filter (·.1 ≠ key)).find? (·.1 = key') = table.entries.find?
      (·.1 = key') := by
    rw [List.find?_filter]
    congr 1
    funext entry
    by_cases hentry : entry.1 = key'
    · simp [hentry, h]
    · simp [hentry]
  unfold get insert
  rw [List.find?_append, hfilter]
  simp [Ne.symm h]

theorem get_retain (h : table.get key = some object) (hlive : live key object = true) :
    (table.retain live).get key = some object := by
  obtain ⟨entry, hfind, rfl⟩ := Option.map_eq_some_iff.mp h
  obtain ⟨hkey, before, after, hentries, hbefore⟩ := List.find?_eq_some_iff_append.mp hfind
  obtain rfl := of_decide_eq_true hkey
  refine Option.map_eq_some_iff.mpr ⟨entry, ?_, rfl⟩
  rw [retain, List.find?_filter]
  refine List.find?_eq_some_iff_append.mpr
    ⟨by simpa using hlive, before, after, hentries, fun e he => ?_⟩
  have hne := hbefore e he
  simp_all

variable (h : table.Tracks live)
include h

/-- A key has one live object. -/
theorem Tracks.unique {object' : Nat} (hlive : live key object = true)
    (hlive' : live key object' = true) : object = object' :=
  Option.some.inj ((h key object hlive).symm.trans (h key object' hlive'))

theorem Tracks.mono (hle : ∀ key object, live' key object = true → live key object = true) :
    table.Tracks live' := fun key object hlive => h key object (hle key object hlive)

theorem Tracks.retain : (table.retain live).Tracks live := fun key object hlive =>
  get_retain (h key object hlive) hlive

/-- What a key is found to give may be referred to. -/
theorem Tracks.refer (hsome : table.upgrade live key = some object)
    (hlive : ∀ k o, live' k o = true → live k o = true ∨ k = key ∧ o = object) :
    table.Tracks live' := by
  refine h.mono fun k o hko => ?_
  rcases hlive k o hko with hold | ⟨rfl, rfl⟩
  · exact hold
  · exact (Option.filter_eq_some_iff.mp hsome).2

/-- A key without a live object may be given a new one. -/
theorem Tracks.insert (hdead : table.upgrade live key = none)
    (hlive : ∀ k o, live' k o = true → live k o = true ∨ k = key ∧ o = object) :
    (table.insert key object).Tracks live' := by
  intro k o hko
  rcases hlive k o hko with hold | ⟨rfl, rfl⟩
  · by_cases hkey : k = key
    · subst hkey
      rw [upgrade, h k o hold, Option.filter_some, if_pos hold] at hdead
      cases hdead
    · rw [get_insert_of_ne hkey]
      exact h k o hold
  · exact get_insert_self

end WeakTable

end OpenShell
