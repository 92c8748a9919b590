import Mathlib.Data.List.Infix
import Mathlib.Tactic.Push

/-!
# Substring search

The first occurrence of one list in another. An occurrence is written as the
needle being a prefix of what is left after dropping `i` elements, so that a
position found from some offset on is a position of the whole text.
-/

namespace OpenShell

variable {α : Type} [DecidableEq α]

/-- `str::find` of a text: the index of its first occurrence. -/
def findSub (needle : List α) : List α → Option Nat
  | [] => if needle.isEmpty then some 0 else none
  | a :: rest =>
    if needle.isPrefixOf (a :: rest) then some 0 else (findSub needle rest).map (· + 1)

/-- `str::contains` of a text. -/
def containsSub (needle text : List α) : Bool := (findSub needle text).isSome

variable {needle : List α}

omit [DecidableEq α] in
theorem prefix_nil_iff_isEmpty : needle <+: [] ↔ needle.isEmpty = true := by
  rw [List.prefix_nil, List.isEmpty_iff]

theorem findSub_eq_none :
    ∀ {text : List α}, findSub needle text = none ↔ ∀ i, ¬ needle <+: text.drop i
  | [] => by
    simp only [List.drop_nil, prefix_nil_iff_isEmpty, findSub]
    split <;> simp_all
  | a :: rest => by
    rw [findSub]
    constructor
    · intro h i hi
      split at h
      next => cases h
      next hhead =>
        cases i with
        | zero => exact hhead (List.isPrefixOf_iff_prefix.mpr hi)
        | succ i => exact findSub_eq_none.mp (Option.map_eq_none_iff.mp h) i hi
    · intro h
      have hhead : ¬ needle.isPrefixOf (a :: rest) = true := fun hhead =>
        h 0 (List.isPrefixOf_iff_prefix.mp hhead)
      rw [if_neg hhead, findSub_eq_none.mpr fun i => h (i + 1)]
      rfl

/-- The index found is an occurrence, and no earlier one is. -/
theorem findSub_eq_some :
    ∀ {text : List α} {i : Nat},
      findSub needle text = some i ↔ needle <+: text.drop i ∧ ∀ j < i, ¬ needle <+: text.drop j
  | [], i => by
    simp only [List.drop_nil, prefix_nil_iff_isEmpty, findSub]
    constructor
    · intro h
      obtain ⟨hempty, ⟨⟩⟩ := Option.ite_none_right_eq_some.mp h
      exact ⟨hempty, fun j hj => absurd hj (Nat.not_lt_zero j)⟩
    · rintro ⟨hempty, hfirst⟩
      cases i with
      | zero => rw [if_pos hempty]
      | succ i => exact absurd hempty (hfirst 0 (Nat.succ_pos i))
  | a :: rest, i => by
    rw [findSub]
    by_cases hhead : needle <+: a :: rest
    · rw [if_pos (List.isPrefixOf_iff_prefix.mpr hhead)]
      constructor
      · intro h
        cases h
        exact ⟨hhead, fun j hj => absurd hj (Nat.not_lt_zero j)⟩
      · rintro ⟨-, hfirst⟩
        cases i with
        | zero => rfl
        | succ i => exact absurd hhead (hfirst 0 (Nat.succ_pos i))
    · rw [if_neg fun h => hhead (List.isPrefixOf_iff_prefix.mp h), Option.map_eq_some_iff]
      constructor
      · rintro ⟨i, hi, rfl⟩
        obtain ⟨hat, hfirst⟩ := findSub_eq_some.mp hi
        refine ⟨hat, fun j hj => ?_⟩
        cases j with
        | zero => exact hhead
        | succ j => exact hfirst j (Nat.lt_of_succ_lt_succ hj)
      · rintro ⟨hat, hfirst⟩
        cases i with
        | zero => exact absurd hat hhead
        | succ i =>
          exact ⟨i, findSub_eq_some.mpr ⟨hat, fun j hj => hfirst (j + 1) (Nat.succ_lt_succ hj)⟩,
            rfl⟩

variable {needle text : List α}

theorem containsSub_iff :
    containsSub needle text = true ↔ ∃ i, needle <+: text.drop i := by
  rw [containsSub, Option.isSome_iff_ne_none, ne_eq, findSub_eq_none]
  push Not
  rfl

theorem containsSub_cons {a : α} {rest : List α} :
    containsSub needle (a :: rest) = true ↔
      needle <+: a :: rest ∨ containsSub needle rest = true := by
  simp only [containsSub_iff]
  constructor
  · rintro ⟨i, hi⟩
    cases i with
    | zero => exact Or.inl hi
    | succ i => exact Or.inr ⟨i, hi⟩
  · rintro (h | ⟨i, hi⟩)
    · exact ⟨0, h⟩
    · exact ⟨i + 1, hi⟩

omit [DecidableEq α] in
/-- An occurrence lies inside the text. -/
theorem add_length_le_of_prefix_drop {i : Nat} (hne : needle ≠ [])
    (h : needle <+: text.drop i) : i + needle.length ≤ text.length := by
  have hlen := h.length_le
  have hpos := List.length_pos_iff.mpr hne
  rw [List.length_drop] at hlen
  omega

omit [DecidableEq α] in
/-- The element of an occurrence at an offset is that of the needle. -/
theorem getElem?_of_prefix_drop {i k : Nat} (h : needle <+: text.drop i)
    (hk : k < needle.length) : text[i + k]? = needle[k]? := by
  rw [← List.getElem?_drop, List.prefix_iff_getElem?.mp h k hk, List.getElem?_eq_getElem hk]

end OpenShell
