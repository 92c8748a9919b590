import Mathlib.Data.Prod.Lex
import Mathlib.Data.String.Basic
import OpenShell.Util.Collect

/-!
# The gateway ring

Every replica of the gateway places a sandbox by itself: each replica has 128
points on a ring, and a sandbox belongs to the replica of the first point at or
after its own, past the end of the ring to the beginning. The ring is the sorted
list of a set of points, so the order in which the members are listed is gone
(`new_congr`), and a replica's points can be taken out of it without a trace
(`without_new`). What is first stays first while it is there
(`ownerFor_without`): with these a change of membership moves no other sandbox.

The points are the first eight bytes of a SHA-256 digest. Nothing is assumed of
them: `hashPoint` is any function, with whatever collisions it has.
-/

namespace OpenShell.Server

/-- `(point, replica_id)` pairs, sorted by point, then by id. -/
structure GatewayRing where
  points : List (Nat ×ₗ String)
  sorted : points.SortedLT

namespace GatewayRing

def virtualNodesPerReplica : Nat := 128

section Ring
variable (hashPoint : String → Nat)

/-- The points of one replica; an empty id has none. -/
def replicaPoints (replicaId : String) : List (Nat ×ₗ String) :=
  if replicaId.isEmpty then []
  else (List.range virtualNodesPerReplica).map fun vnode =>
    toLex (hashPoint (replicaId ++ "#" ++ toString vnode), replicaId)

def new (replicaIds : List String) : GatewayRing :=
  ⟨sortDedup (replicaIds.flatMap (replicaPoints hashPoint)), sortedLT_sortDedup _⟩

/-- The replica that should own a sandbox: that of the first point clockwise of it. -/
def ownerFor (ring : GatewayRing) (sandboxId : String) : Option String :=
  if ring.points.isEmpty then none
  else
    let point := hashPoint sandboxId
    -- `partition_point`: the points are sorted, so those below come first
    let index := ring.points.findIdx fun candidate => !decide ((ofLex candidate).1 < point)
    let index := if index = ring.points.length then 0 else index
    ring.points[index]?.map fun owner => (ofLex owner).2

end Ring

/-- The same ring with a replica taken out. -/
def without (ring : GatewayRing) (replicaId : String) : GatewayRing :=
  ⟨ring.points.filter fun point => (ofLex point).2 != replicaId,
    (ring.sorted.pairwise.filter _).sortedLT⟩

/-! ## The ring of a set of replicas -/

section Owners
variable {hashPoint : String → Nat} {ring : GatewayRing} {ids ids' : List String}
  {replicaId sandboxId : String}

theorem ext_mem {ring ring' : GatewayRing}
    (h : ∀ point, point ∈ ring.points ↔ point ∈ ring'.points) : ring = ring' := by
  obtain ⟨points, hsorted⟩ := ring
  obtain ⟨points', hsorted'⟩ := ring'
  obtain rfl := hsorted.eq_of_mem_iff hsorted' h
  rfl

theorem snd_of_mem_replicaPoints {point : Nat ×ₗ String}
    (h : point ∈ replicaPoints hashPoint replicaId) :
    (ofLex point).2 = replicaId := by
  unfold replicaPoints at h
  split at h
  · cases h
  · obtain ⟨vnode, -, rfl⟩ := List.mem_map.mp h
    rfl

theorem mem_new {point : Nat ×ₗ String} : point ∈ (new hashPoint ids).points ↔
    (ofLex point).2 ∈ ids ∧ point ∈ replicaPoints hashPoint (ofLex point).2 := by
  refine mem_sortDedup.trans (List.mem_flatMap.trans ⟨?_, fun h => ⟨_, h⟩⟩)
  rintro ⟨id, hid, hpoint⟩
  obtain rfl := snd_of_mem_replicaPoints hpoint
  exact ⟨hid, hpoint⟩

/-- A ring depends on which replicas are listed, not on their order or number. -/
theorem new_congr (h : ∀ id, id ∈ ids' ↔ id ∈ ids) : new hashPoint ids' = new hashPoint ids :=
  ext_mem fun point => by rw [mem_new, mem_new, h]

theorem without_new (ids : List String) (replicaId : String) :
    (new hashPoint ids).without replicaId = new hashPoint (ids.filter (· != replicaId)) := by
  refine ext_mem fun point => ?_
  rw [without, List.mem_filter, mem_new, mem_new, List.mem_filter]
  exact and_right_comm

/-! ## Owners -/

/-- The index the source computes is that of the first point from the sandbox's on, or of the first
point. -/
theorem ownerFor_eq : ring.ownerFor hashPoint sandboxId =
    ((ring.points.find? fun candidate => !decide ((ofLex candidate).1 < hashPoint sandboxId)).or
      ring.points.head?).map
      fun owner => (ofLex owner).2 := by
  unfold ownerFor
  dsimp only
  rw [List.find?_eq_getElem?_findIdx]
  split
  next hempty => simp [List.isEmpty_iff.mp hempty]
  next =>
    split
    next hend => rw [hend, List.getElem?_length, Option.none_or, List.head?_eq_getElem?]
    next hne =>
      have hlt := lt_of_le_of_ne List.findIdx_le_length hne
      rw [List.getElem?_eq_getElem hlt, Option.some_or]

/-- What comes first among all comes first among those that stay. -/
theorem find?_or_head?_filter {α : Type} {l : List α} {p q : α → Bool} {a : α}
    (h : (l.find? q).or l.head? = some a)
    (ha : p a = true) : ((l.filter p).find? q).or (l.filter p).head? = some a := by
  cases hfind : l.find? q with
  | some b =>
    rw [hfind] at h
    obtain rfl := Option.some.inj h
    obtain ⟨hq, before, after, rfl, hbefore⟩ := List.find?_eq_some_iff_append.mp hfind
    have hfirst : ((before ++ b :: after).filter p).find? q = some b := by
      rw [List.filter_append, List.filter_cons_of_pos ha]
      exact List.find?_eq_some_iff_append.mpr
        ⟨hq, _, _, rfl, fun c hc => hbefore c (List.mem_of_mem_filter hc)⟩
    rw [hfirst, Option.some_or]
  | none =>
    rw [hfind, Option.none_or] at h
    have hnone := List.find?_eq_none.mp hfind
    obtain ⟨rest, rfl⟩ := List.head?_eq_some_iff.mp h
    rw [List.find?_eq_none.mpr fun c hc => hnone c (List.mem_of_mem_filter hc),
      List.filter_cons_of_pos ha, Option.none_or, List.head?_cons]

/-- Taking out a replica moves no sandbox of another. -/
theorem ownerFor_without (h : ring.ownerFor hashPoint sandboxId ≠ some replicaId) :
    (ring.without replicaId).ownerFor hashPoint sandboxId = ring.ownerFor hashPoint sandboxId := by
  rw [ownerFor_eq] at h
  rw [ownerFor_eq, ownerFor_eq]
  congr 1
  cases hfirst : (ring.points.find? fun candidate =>
    !decide ((ofLex candidate).1 < hashPoint sandboxId)).or
      ring.points.head? with
  | none =>
    have hempty := List.head?_eq_none_iff.mp (Option.or_eq_none_iff.mp hfirst).2
    simp [without, hempty]
  | some owner =>
    rw [hfirst] at h
    exact find?_or_head?_filter hfirst (by simpa using h)

/-- While its owner stays, a sandbox stays, whoever else leaves. -/
theorem ownerFor_new_filter
    (h : ∀ owner, (new hashPoint ids).ownerFor hashPoint sandboxId = some owner → owner ∈ ids') :
    (new hashPoint (ids.filter (· ∈ ids'))).ownerFor hashPoint sandboxId =
      (new hashPoint ids).ownerFor hashPoint sandboxId := by
  have hpoints : (new hashPoint (ids.filter (· ∈ ids'))).points =
      (new hashPoint ids).points.filter fun point => (ofLex point).2 ∈ ids' := by
    refine (new hashPoint _).sorted.eq_of_mem_iff
      ((new hashPoint ids).sorted.pairwise.filter _).sortedLT fun point => ?_
    rw [List.mem_filter, mem_new, mem_new, List.mem_filter]
    exact and_right_comm
  rw [ownerFor_eq] at h
  rw [ownerFor_eq, ownerFor_eq, hpoints]
  congr 1
  generalize (new hashPoint ids).points = points at h
  cases hfirst : (points.find? fun candidate =>
    !decide ((ofLex candidate).1 < hashPoint sandboxId)).or points.head? with
  | none => simp [List.head?_eq_none_iff.mp (Option.or_eq_none_iff.mp hfirst).2]
  | some owner => exact find?_or_head?_filter hfirst (decide_eq_true (h _ (by rw [hfirst]; rfl)))

/-- Among replicas of which one has an id, every sandbox has an owner. -/
theorem exists_ownerFor (hmem : replicaId ∈ ids) (hne : replicaId ≠ "") :
    ∃ owner ∈ ids, (new hashPoint ids).ownerFor hashPoint sandboxId = some owner := by
  have hpoint : toLex (hashPoint (replicaId ++ "#" ++ toString 0),
      replicaId) ∈ (new hashPoint ids).points := by
    refine mem_new.mpr ⟨hmem, ?_⟩
    rw [ofLex_toLex, replicaPoints, if_neg (by simpa using hne)]
    exact List.mem_map.mpr ⟨0, by decide, rfl⟩
  obtain ⟨first, hfirst⟩ :=
    Option.isSome_iff_exists.mp (List.isSome_head?.mpr (List.ne_nil_of_mem hpoint))
  rw [ownerFor_eq, hfirst]
  cases hfind : (new hashPoint ids).points.find? fun candidate =>
      !decide ((ofLex candidate).1 < hashPoint sandboxId) with
  | none => exact ⟨_, (mem_new.mp (List.mem_of_mem_head? hfirst)).1, rfl⟩
  | some owner => exact ⟨_, (mem_new.mp (List.mem_of_find?_eq_some hfind)).1, rfl⟩

end Owners

/-- A sandbox's owner depends on the set of replicas only, and changes only if its owner leaves or
the replica that joins becomes its owner. -/
theorem ownerFor_moves_least (hashPoint : String → Nat) (ids : List String) (sandboxId : String) :
    (∀ ids' : List String, (∀ id, id ∈ ids' ↔ id ∈ ids) →
      (new hashPoint ids').ownerFor hashPoint sandboxId =
        (new hashPoint ids).ownerFor hashPoint sandboxId) ∧
    ∀ replicaId : String,
      ((new hashPoint ids).without replicaId).ownerFor hashPoint sandboxId =
          (new hashPoint (ids.filter (· != replicaId))).ownerFor hashPoint sandboxId ∧
        ((new hashPoint (ids.filter (· != replicaId))).ownerFor hashPoint sandboxId ≠
            (new hashPoint ids).ownerFor hashPoint sandboxId →
          (new hashPoint ids).ownerFor hashPoint sandboxId = some replicaId) ∧
        ((new hashPoint (replicaId :: ids)).ownerFor hashPoint sandboxId ≠
            (new hashPoint ids).ownerFor hashPoint sandboxId →
          (new hashPoint (replicaId :: ids)).ownerFor hashPoint sandboxId = some replicaId) := by
  refine ⟨fun ids' h => by rw [new_congr h], fun replicaId =>
    ⟨by rw [without_new], fun hmoved => ?_, fun hmoved => ?_⟩⟩
  · by_contra hother
    rw [← without_new] at hmoved
    exact hmoved (ownerFor_without hother)
  · by_contra hother
    by_cases hnew : replicaId ∈ ids
    · refine hmoved (congrArg (ownerFor hashPoint · sandboxId) (new_congr fun id => ?_))
      rw [List.mem_cons, or_iff_right_of_imp fun heq => heq ▸ hnew]
    · -- the old ring is the new one without the replica
      have hrest : ids.filter (· != replicaId) = ids := List.filter_eq_self.mpr fun id hid => by
        simpa using fun heq : id = replicaId => hnew (heq ▸ hid)
      have hsame := ownerFor_without hother
      rw [without_new, List.filter_cons_of_neg (by simp), hrest] at hsame
      exact hmoved hsame.symm

/-- Between any two memberships, whatever joined and left in between, a sandbox moves only from a
replica that is gone or to one that is new. -/
theorem ownerFor_moves_only (hashPoint : String → Nat) (ids ids' : List String)
    (sandboxId : String) :
    (new hashPoint ids).ownerFor hashPoint sandboxId =
      (new hashPoint ids').ownerFor hashPoint sandboxId ∨
      ∃ owner, (new hashPoint ids).ownerFor hashPoint sandboxId = some owner ∧ owner ∉ ids' ∨
        (new hashPoint ids').ownerFor hashPoint sandboxId = some owner ∧ owner ∉ ids := by
  by_contra hmoved
  simp only [not_or, not_exists, not_and, not_not] at hmoved
  obtain ⟨hne, hstays⟩ := hmoved
  -- both owners are that of the replicas that are members on both sides
  rw [← ownerFor_new_filter fun owner => (hstays owner).1, ← ownerFor_new_filter fun owner =>
    (hstays owner).2, new_congr] at hne
  · exact hne rfl
  · intro id
    simp [and_comm]

end GatewayRing

end OpenShell.Server
