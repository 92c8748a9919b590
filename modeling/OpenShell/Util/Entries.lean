import Mathlib.Data.List.Forall2
import Mathlib.Tactic.Tauto
import Std.Data.ExtTreeMap
import OpenShell.Util.Result

/-!
# Maps and their entries

Sorted maps in two forms: the extensional tree map, and a plain list of entries
in key order where a type nests in its own maps. For the first, what a list of
entries collects to and a traversal that may fail; for the second, insertion and
lookup.
-/

namespace OpenShell

variable {α β γ ε : Type}

/-! ## Tree maps -/

/-- Entries that agree wherever their keys do collect to a map of just these entries. -/
theorem getElem?_foldl_insert :
    ∀ {entries : List (String × α)} {out : Std.ExtTreeMap String α} {k : String} {v : α},
      (∀ k v v', (k, v) ∈ entries → (k, v') ∈ entries → v = v') →
      ((entries.foldl (fun out e => out.insert e.1 e.2) out)[k]? = some v ↔
        (k, v) ∈ entries ∨ ((∀ v', (k, v') ∉ entries) ∧ out[k]? = some v))
  | [], _, _, _, _ => by simp
  | (l, w) :: rest, out, k, v, hagree => by
    have hrest := fun k v v' hv hv' =>
      hagree k v v' (List.mem_cons_of_mem _ hv) (List.mem_cons_of_mem _ hv')
    rw [List.foldl_cons, getElem?_foldl_insert hrest, Std.ExtTreeMap.getElem?_insert]
    by_cases hk : l = k
    · subst hk
      have hhead : (l, w) ∈ (l, w) :: rest := List.mem_cons_self
      have heq : ∀ v', (l, v') ∈ rest → v' = w := fun v' hv' =>
        hagree l v' w (List.mem_cons_of_mem _ hv') hhead
      simp only [Std.ReflCmp.compare_self, if_true, List.mem_cons, Prod.mk.injEq, true_and,
        Option.some.injEq]
      constructor
      · rintro (hv | ⟨-, rfl⟩)
        · exact Or.inl (Or.inr hv)
        · exact Or.inl (Or.inl rfl)
      · rintro ((rfl | hv) | ⟨hnone, -⟩)
        · by_cases hv : (l, v) ∈ rest
          · exact Or.inl hv
          · exact Or.inr ⟨fun v' hv' => hv (heq v' hv' ▸ hv'), rfl⟩
        · exact Or.inl hv
        · exact absurd (Or.inl rfl) (hnone w)
    · have hne : compare l k ≠ .eq := fun h => hk (Std.LawfulEqCmp.eq_of_compare h)
      have hother : ∀ v', (k, v') ∈ (l, w) :: rest ↔ (k, v') ∈ rest := fun v' => by
        simp [Ne.symm hk]
      simp only [if_neg hne, hother]

/-- The map of a list of entries. -/
def collect (entries : List (String × α)) : Std.ExtTreeMap String α :=
  entries.foldl (fun out e => out.insert e.1 e.2) ∅

variable {entries : List (String × α)} {k : String}

theorem getElem?_collect_iff {v : α}
    (hagree : ∀ k v v', (k, v) ∈ entries → (k, v') ∈ entries → v = v') :
    (collect entries)[k]? = some v ↔ (k, v) ∈ entries := by
  rw [collect, getElem?_foldl_insert hagree]
  simp

variable {map : Std.ExtTreeMap String α}

theorem mem_toList_iff {v : α} :
    (k, v) ∈ map.toList ↔ map[k]? = some v :=
  Std.ExtTreeMap.mem_toList_iff_getElem?_eq_some

/-- `map.into_iter().map(..).collect::<Result<_, _>>()`. -/
def traverse (f : String → α → Except ε β) (map : Std.ExtTreeMap String α) :
    Except ε (Std.ExtTreeMap String β) := do
  let entries ← map.toList.mapM fun entry => do return (entry.1, ← f entry.1 entry.2)
  return collect entries

variable {f : String → α → Except ε β}

theorem traverse_eq_ok {map' : Std.ExtTreeMap String β} (h : traverse f map = .ok map')
    (k : String) (v' : β) :
    map'[k]? = some v' ↔ ∃ v, map[k]? = some v ∧ f k v = .ok v' := by
  obtain ⟨entries, hentries, rfl⟩ := bind_ok_eq_ok h
  have hall := mapM_eq_ok hentries
  -- an entry of the result comes from the entry of the map at the same key
  have hmem : ∀ k v', (k, v') ∈ entries ↔ ∃ v, map[k]? = some v ∧ f k v = .ok v' := by
    intro k v'
    constructor
    · intro hv'
      obtain ⟨⟨l, v⟩, hv, hf⟩ := exists_of_mem_mapM hentries _ hv'
      obtain ⟨w, hw, ⟨⟩⟩ := bind_ok_eq_ok hf
      exact ⟨v, mem_toList_iff.mp hv, hw⟩
    · rintro ⟨v, hv, hf⟩
      obtain ⟨e, he, hf'⟩ := exists_of_forall₂_mem hall (mem_toList_iff.mpr hv)
      simp only [hf] at hf'
      exact Except.ok.inj hf' ▸ he
  rw [getElem?_collect_iff, hmem]
  intro k v v' hv hv'
  obtain ⟨w, hw, hv⟩ := (hmem k v).mp hv
  obtain ⟨w', hw', hv'⟩ := (hmem k v').mp hv'
  obtain rfl := Option.mem_unique hw hw'
  exact Except.ok.inj (hv.symm.trans hv')

/-- A traversal succeeds when every entry does. -/
theorem exists_traverse (h : ∀ k v, map[k]? = some v → ∃ v', f k v = .ok v') :
    ∃ map', traverse f map = .ok map' := by
  obtain ⟨entries, hentries⟩ : ∃ entries, map.toList.mapM (fun entry => do
      return (entry.1, ← f entry.1 entry.2)) = .ok entries := by
    refine exists_mapM_ok fun entry hentry => ?_
    obtain ⟨v', hv'⟩ := h entry.1 entry.2 (mem_toList_iff.mp hentry)
    exact ⟨(entry.1, v'), by rw [hv']; rfl⟩
  exact ⟨collect entries, by rw [traverse, hentries]; rfl⟩

/-- Two traversals one after the other, where together they come to a function of the entry. -/
theorem traverse_traverse {g : String → β → Except ε γ}
    {h : String → α → γ}
    (hfg : ∀ k v, map[k]? = some v → ∃ w, f k v = .ok w ∧ g k w = .ok (h k v)) :
    ∃ map', traverse f map = .ok map' ∧ traverse g map' = .ok (map.map h) := by
  obtain ⟨map', hf⟩ := exists_traverse fun k v hv => (hfg k v hv).imp fun _ hw => hw.1
  -- every entry of the first result is one the second takes
  have hmap' : ∀ k w, map'[k]? = some w → ∃ v, map[k]? = some v ∧ g k w = .ok (h k v) := by
    intro k w hw
    obtain ⟨v, hv, hfv⟩ := (traverse_eq_ok hf k w).mp hw
    obtain ⟨w', hfv', hg⟩ := hfg k v hv
    exact ⟨v, hv, Except.ok.inj (hfv'.symm.trans hfv) ▸ hg⟩
  obtain ⟨map'', hg⟩ := exists_traverse fun k w hw =>
    (hmap' k w hw).elim fun v hv => ⟨h k v, hv.2⟩
  refine ⟨map', hf, hg.trans (congrArg _ (Std.ExtTreeMap.ext_getElem? fun k => ?_))⟩
  refine Option.ext fun u => ?_
  rw [traverse_eq_ok hg, Std.ExtTreeMap.getElem?_map]
  constructor
  · rintro ⟨w, hw, hgw⟩
    obtain ⟨v, hv, hgw'⟩ := hmap' k w hw
    rw [hv, Option.map_some, Except.ok.inj (hgw.symm.trans hgw')]
  · intro hu
    obtain ⟨v, hv, rfl⟩ := Option.map_eq_some_iff.mp hu
    obtain ⟨w, hfw, hgw⟩ := hfg k v hv
    exact ⟨w, (traverse_eq_ok hf k w).mpr ⟨v, hv, hfw⟩, hgw⟩

/-! ## Lists of entries -/

/-- `BTreeMap::insert`, on entries in key order. -/
def setEntry (key : String) (value : α) (entries : List (String × α)) : List (String × α) :=
  entries.filter (compare ·.1 key == .lt) ++ (key, value) :: entries.filter (compare key ·.1 == .lt)

theorem lookup_filter_key {p : String → Bool} (hk : p k = true) :
    ∀ entries : List (String × α), (entries.filter fun e => p e.1).lookup k = entries.lookup k
  | [] => rfl
  | (l, v) :: rest => by
    by_cases hl : k = l
    · subst hl
      simp [hk]
    · have hne : (k == l) = false := beq_eq_false_iff_ne.mpr hl
      rw [List.filter_cons, List.lookup_cons, hne, ← lookup_filter_key hk rest]
      split
      · rw [List.lookup_cons, hne]
      · rfl

theorem lookup_filter_key_eq_none {p : String → Bool} (hk : p k = false)
    (entries : List (String × α)) : (entries.filter fun e => p e.1).lookup k = none := by
  refine List.lookup_eq_none_iff.mpr fun e he => ?_
  obtain ⟨-, hp⟩ := List.mem_filter.mp he
  refine bne_iff_ne.mpr fun heq => ?_
  rw [heq, hp] at hk
  cases hk

theorem lookup_setEntry (key : String) (value : α) (entries : List (String × α)) (k : String) :
    (setEntry key value entries).lookup k = if k = key then some value else entries.lookup k := by
  unfold setEntry
  rw [List.lookup_append, List.lookup_cons]
  by_cases hk : k = key
  · subst hk
    rw [lookup_filter_key_eq_none (p := (compare · k == .lt)) (by simp)]
    simp
  · rw [beq_eq_false_iff_ne.mpr hk, if_neg hk]
    cases hcmp : compare k key with
    | eq => exact absurd (Std.LawfulEqCmp.eq_of_compare hcmp) hk
    | lt =>
      have hgt : compare key k = .gt := Std.OrientedCmp.gt_of_lt hcmp
      rw [lookup_filter_key (p := (compare · key == .lt)) (by rw [hcmp]; rfl),
        lookup_filter_key_eq_none (p := (compare key · == .lt)) (by rw [hgt]; rfl), Option.or_none]
    | gt =>
      have hlt : compare key k = .lt := Std.OrientedCmp.lt_of_gt hcmp
      rw [lookup_filter_key_eq_none (p := (compare · key == .lt)) (by rw [hcmp]; rfl),
        lookup_filter_key (p := (compare key · == .lt)) (by rw [hlt]; rfl), Option.none_or]

/-- The keys are in order. -/
def Ordered (entries : List (String × α)) : Prop :=
  entries.Pairwise fun a b => compare a.1 b.1 = .lt

theorem Ordered.setEntry {key : String} {value : α} (h : Ordered entries) :
    Ordered (setEntry key value entries) := by
  refine List.pairwise_append.mpr
    ⟨h.filter _, List.pairwise_cons.mpr ⟨fun e he => ?_, h.filter _⟩, fun a ha b hb => ?_⟩
  · simpa using (List.mem_filter.mp he).2
  · have hlt : compare a.1 key = .lt := by simpa using (List.mem_filter.mp ha).2
    obtain rfl | hb := List.mem_cons.mp hb
    · exact hlt
    · exact Std.TransCmp.lt_trans hlt (by simpa using (List.mem_filter.mp hb).2)

theorem mem_setEntry {key : String} {value : α} {e : String × α} :
    e ∈ setEntry key value entries ↔ e = (key, value) ∨ (e ∈ entries ∧ e.1 ≠ key) := by
  have hne : e.1 ≠ key ↔ compare e.1 key = .lt ∨ compare key e.1 = .lt := by
    refine ⟨fun h => ?_, fun h heq => by simp [heq] at h⟩
    cases hcmp : compare e.1 key with
    | eq => exact absurd (Std.LawfulEqCmp.eq_of_compare hcmp) h
    | lt => exact Or.inl rfl
    | gt => exact Or.inr (Std.OrientedCmp.lt_of_gt hcmp)
  simp only [setEntry, List.mem_append, List.mem_cons, List.mem_filter, beq_iff_eq, hne]
  tauto

/-- In key order, the entry found at a key is the one that is there. -/
theorem Ordered.lookup_eq_some_iff (h : Ordered entries)
    {v : α} : entries.lookup k = some v ↔ (k, v) ∈ entries := by
  induction entries with
  | nil => simp
  | cons e rest ih =>
    obtain ⟨hhead, hrest⟩ := List.pairwise_cons.mp h
    rw [List.lookup_cons]
    by_cases hk : k = e.1
    · subst hk
      have hnot : (e.1, v) ∉ rest := fun hmem => by
        have hlt : compare e.1 e.1 = .lt := hhead (e.1, v) hmem
        simp at hlt
      simp only [beq_self_eq_true, Option.some.injEq, List.mem_cons, hnot, or_false]
      exact ⟨fun hv => Prod.ext rfl hv.symm, fun hv => (Prod.ext_iff.mp hv).2.symm⟩
    · have hne : (k, v) ≠ e := fun heq => hk (congrArg Prod.fst heq)
      rw [beq_eq_false_iff_ne.mpr hk, ih hrest, List.mem_cons]
      exact ⟨Or.inr, fun hmem => hmem.resolve_left hne⟩

end OpenShell
