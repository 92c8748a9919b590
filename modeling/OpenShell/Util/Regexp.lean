import Mathlib.Computability.Language

/-!
# Regular expressions with complement

The expressions an SMT solver's string theory builds regular languages from:
besides concatenation, union and iteration there are intersection, complement
and the language of all words. `lang` says which language an expression denotes.
Whether a given word belongs to it is decided by Brzozowski derivatives
(`isMatch_iff`), so that a predicate built from such tests can be evaluated.
-/

namespace OpenShell

open scoped Computability

/-- An extended regular expression. -/
inductive Regexp (α : Type)
  | full
  | literal (text : List α)
  | cat (r s : Regexp α)
  | union (r s : Regexp α)
  | inter (r s : Regexp α)
  | complement (r : Regexp α)
  | star (r : Regexp α)
  deriving DecidableEq

namespace Regexp

variable {α : Type}

/-- The language an expression denotes. -/
def lang : Regexp α → Language α
  | full => ⊤
  | literal text => {text}
  | cat r s => r.lang * s.lang
  | union r s => r.lang + s.lang
  | inter r s => r.lang ⊓ s.lang
  | complement r => r.langᶜ
  | star r => r.lang∗

/-- The concatenation of several expressions. -/
def concat : List (Regexp α) → Regexp α
  | [] => literal []
  | r :: rs => cat r (concat rs)

/-! ## Membership, constructor by constructor -/

@[simp] theorem mem_full (w : List α) : w ∈ (full : Regexp α).lang := trivial

@[simp] theorem mem_literal {text w : List α} : w ∈ (literal text).lang ↔ w = text := Iff.rfl

variable {w : List α} {r s : Regexp α}

theorem mem_cat :
    w ∈ (cat r s).lang ↔ ∃ x ∈ r.lang, ∃ y ∈ s.lang, x ++ y = w := Language.mem_mul

@[simp] theorem mem_union :
    w ∈ (union r s).lang ↔ w ∈ r.lang ∨ w ∈ s.lang := Iff.rfl

@[simp] theorem mem_inter :
    w ∈ (inter r s).lang ↔ w ∈ r.lang ∧ w ∈ s.lang := Iff.rfl

variable {r : Regexp α}

@[simp] theorem mem_complement :
    w ∈ (complement r).lang ↔ w ∉ r.lang := Iff.rfl

@[simp] theorem mem_concat_nil : w ∈ (concat []).lang ↔ w = [] := Iff.rfl

theorem mem_concat_cons {rs : List (Regexp α)} :
    w ∈ (concat (r :: rs)).lang ↔ ∃ x ∈ r.lang, ∃ y ∈ (concat rs).lang, x ++ y = w := mem_cat

/-- Concatenating two groups of expressions is concatenating all of them. -/
theorem mem_concat_append {rs ss : List (Regexp α)} :
    ∀ {w : List α}, w ∈ (concat (rs ++ ss)).lang ↔
      ∃ x ∈ (concat rs).lang, ∃ y ∈ (concat ss).lang, x ++ y = w := by
  induction rs with
  | nil =>
    intro w
    constructor
    · exact fun h => ⟨[], rfl, w, h, rfl⟩
    · rintro ⟨x, rfl, y, hy, rfl⟩
      exact hy
  | cons r rs ih =>
    intro w
    rw [List.cons_append, mem_concat_cons]
    constructor
    · rintro ⟨x, hx, y, hy, rfl⟩
      obtain ⟨y₁, hy₁, y₂, hy₂, rfl⟩ := ih.mp hy
      exact ⟨x ++ y₁, mem_concat_cons.mpr ⟨x, hx, y₁, hy₁, rfl⟩, y₂, hy₂, List.append_assoc ..⟩
    · rintro ⟨x, hx, y, hy, rfl⟩
      obtain ⟨x₁, hx₁, x₂, hx₂, rfl⟩ := mem_concat_cons.mp hx
      exact ⟨x₁, hx₁, x₂ ++ y, ih.mpr ⟨x₂, hx₂, y, hy, rfl⟩, (List.append_assoc ..).symm⟩

theorem mem_concat_append_of_imp {rs ss ss' : List (Regexp α)}
    (h : ∀ {w}, w ∈ (concat ss).lang → w ∈ (concat ss').lang) (hw : w ∈ (concat (rs ++ ss)).lang) :
    w ∈ (concat (rs ++ ss')).lang := by
  obtain ⟨x, hx, y, hy, hxy⟩ := mem_concat_append.mp hw
  exact mem_concat_append.mpr ⟨x, hx, y, h hy, hxy⟩

/-! ## Derivatives -/

/-- Whether the empty word matches. -/
def nullable : Regexp α → Bool
  | full => true
  | literal text => text.isEmpty
  | cat r s => r.nullable && s.nullable
  | union r s => r.nullable || s.nullable
  | inter r s => r.nullable && s.nullable
  | complement r => !r.nullable
  | star _ => true

theorem nullable_iff (r : Regexp α) : r.nullable = true ↔ [] ∈ r.lang := by
  induction r with
  | full => simp [nullable]
  | literal text => rw [nullable, List.isEmpty_iff, mem_literal, eq_comm]
  | cat r s ihr ihs =>
    rw [nullable, Bool.and_eq_true, ihr, ihs, mem_cat]
    constructor
    · exact fun h => ⟨[], h.1, [], h.2, rfl⟩
    · rintro ⟨x, hx, y, hy, he⟩
      obtain ⟨rfl, rfl⟩ := List.append_eq_nil_iff.mp he
      exact ⟨hx, hy⟩
  | union r s ihr ihs => rw [nullable, Bool.or_eq_true, ihr, ihs, mem_union]
  | inter r s ihr ihs => rw [nullable, Bool.and_eq_true, ihr, ihs, mem_inter]
  | complement r ih => rw [nullable, Bool.not_eq_true', mem_complement, ← ih, Bool.not_eq_true]
  | star r => exact iff_of_true rfl (Language.nil_mem_kstar _)

/-- A word starting with `a` leaves the rest of some factor. -/
theorem cons_mem_cat {a : α} :
    a :: w ∈ (cat r s).lang ↔
      (∃ x y, a :: x ∈ r.lang ∧ y ∈ s.lang ∧ x ++ y = w) ∨ [] ∈ r.lang ∧ a :: w ∈ s.lang := by
  rw [mem_cat]
  constructor
  · rintro ⟨x, hx, y, hy, he⟩
    cases x with
    | nil => exact Or.inr ⟨hx, he ▸ hy⟩
    | cons b x =>
      obtain ⟨rfl, rfl⟩ := List.cons.inj he
      exact Or.inl ⟨x, y, hx, hy, rfl⟩
  · rintro (⟨x, y, hx, hy, rfl⟩ | ⟨hnil, hw⟩)
    · exact ⟨a :: x, hx, y, hy, rfl⟩
    · exact ⟨[], hnil, a :: w, hw, rfl⟩

theorem cons_mem_star {a : α} :
    a :: w ∈ (star r).lang ↔ ∃ x y, a :: x ∈ r.lang ∧ y ∈ (star r).lang ∧ x ++ y = w := by
  constructor
  · intro h
    obtain ⟨words, he, hwords⟩ := Language.mem_kstar_iff_exists_nonempty.mp h
    cases words with
    | nil => cases he
    | cons word words =>
      obtain ⟨hword, hne⟩ := hwords word List.mem_cons_self
      obtain ⟨b, x, rfl⟩ := List.exists_cons_of_ne_nil hne
      obtain ⟨rfl, rfl⟩ := List.cons.inj he
      refine ⟨x, words.flatten, hword, Language.join_mem_kstar fun y hy => ?_, rfl⟩
      exact (hwords y (List.mem_cons_of_mem _ hy)).1
  · rintro ⟨x, y, hx, hy, rfl⟩
    obtain ⟨words, rfl, hwords⟩ := Language.mem_kstar.mp hy
    exact Language.mem_kstar.mpr ⟨(a :: x) :: words, rfl, List.forall_mem_cons.mpr ⟨hx, hwords⟩⟩

variable [DecidableEq α]

/-- What is left to match after the letter `a`. -/
def deriv (a : α) : Regexp α → Regexp α
  | full => full
  | literal [] => complement full
  | literal (b :: text) => if a = b then literal text else complement full
  | cat r s => if r.nullable then union (cat (r.deriv a) s) (s.deriv a) else cat (r.deriv a) s
  | union r s => union (r.deriv a) (s.deriv a)
  | inter r s => inter (r.deriv a) (s.deriv a)
  | complement r => complement (r.deriv a)
  | star r => cat (r.deriv a) (star r)

/-- The derivative denotes the words that `a` completes. -/
theorem mem_deriv {a : α} :
    ∀ {w : List α}, w ∈ (r.deriv a).lang ↔ a :: w ∈ r.lang := by
  induction r with
  | full => exact iff_of_true trivial trivial
  | literal text =>
    intro w
    cases text with
    | nil => simp [deriv]
    | cons b text =>
      rw [deriv]
      split
      next h => simp [h]
      next h => simp [h]
  | cat r s ihr ihs =>
    intro w
    rw [cons_mem_cat, ← ihs, ← nullable_iff]
    have hcat : w ∈ (cat (r.deriv a) s).lang ↔
        ∃ x y, a :: x ∈ r.lang ∧ y ∈ s.lang ∧ x ++ y = w := by
      rw [mem_cat]
      constructor
      · rintro ⟨x, hx, y, hy, he⟩
        exact ⟨x, y, ihr.mp hx, hy, he⟩
      · rintro ⟨x, y, hx, hy, he⟩
        exact ⟨x, ihr.mpr hx, y, hy, he⟩
    rw [deriv]
    split
    next h => rw [mem_union, hcat, and_iff_right h]
    next h => rw [hcat, or_iff_left fun hn => h hn.1]
  | union r s ihr ihs => exact or_congr ihr ihs
  | inter r s ihr ihs => exact and_congr ihr ihs
  | complement r ih => exact not_congr ih
  | star r ih =>
    intro w
    rw [cons_mem_star, deriv, mem_cat]
    constructor
    · rintro ⟨x, hx, y, hy, he⟩
      exact ⟨x, y, ih.mp hx, hy, he⟩
    · rintro ⟨x, y, hx, hy, he⟩
      exact ⟨x, ih.mpr hx, y, hy, he⟩

/-- Whether a word matches. -/
def isMatch (r : Regexp α) (w : List α) : Bool := (w.foldl (fun r a => r.deriv a) r).nullable

theorem isMatch_iff : r.isMatch w = true ↔ w ∈ r.lang := by
  unfold isMatch
  induction w generalizing r with
  | nil => exact nullable_iff r
  | cons a w ih => rw [List.foldl_cons, ih, mem_deriv]

end Regexp

end OpenShell
