import Mathlib.Data.List.Pairwise
import OpenShell.Util.Collect

/-!
# The `objects` table

The rows of one object type, with the two unique indexes of the table: the id,
and the name within a workspace. Every conditional write is one SQL statement (or
one transaction) and so one step. A row starts at resource version one, also when
a row of the same id was deleted before.
-/

namespace OpenShell.Persistence

/-- A row of `objects`. -/
structure ObjectRecord (P : Type) where
  id : String
  name : String
  workspace : String
  payload : P
  createdAtMs : Int
  updatedAtMs : Int
  resourceVersion : Nat

/-- The rows, with the unique indexes: no two have one id, or one name in a workspace. -/
structure Objects (P : Type) where
  rows : List (ObjectRecord P)
  ids : rows.Pairwise fun row row' => row.id ≠ row'.id
  names : rows.Pairwise fun row row' => ¬ (row.workspace = row'.workspace ∧ row.name = row'.name)

namespace Objects

variable {P : Type}

def empty : Objects P := ⟨[], .nil, .nil⟩

variable (objects : Objects P)

def get (id : String) : Option (ObjectRecord P) :=
  objects.rows.find? fun row => row.id = id

def getByName (workspace name : String) : Option (ObjectRecord P) :=
  objects.rows.find? fun row => row.workspace = workspace ∧ row.name = name

/-- `insert_new_object`: `none` is a unique violation. -/
def insertNew (id name workspace : String) (payload : P) (nowMs : Int) : Option (Objects P) :=
  if h : ∀ row ∈ objects.rows, row.id ≠ id ∧ ¬ (row.workspace = workspace ∧ row.name = name) then
    some {
      rows := objects.rows ++ [⟨id, name, workspace, payload, nowMs, nowMs, 1⟩]
      ids := List.pairwise_append.mpr ⟨objects.ids, List.pairwise_singleton ..,
        fun row hrow _ hnew =>
        List.mem_singleton.mp hnew ▸ (h row hrow).1⟩
      names := List.pairwise_append.mpr ⟨objects.names, List.pairwise_singleton ..,
        fun row hrow _ hnew =>
        List.mem_singleton.mp hnew ▸ (h row hrow).2⟩ }
  else none

/-- The row a version-matched `UPDATE` leaves. -/
def update (id : String) (expectedVersion : Nat) (payload : P) (nowMs : Int)
    (row : ObjectRecord P) :
    ObjectRecord P :=
  if row.id = id ∧ row.resourceVersion = expectedVersion then
    { row with payload, updatedAtMs := nowMs, resourceVersion := row.resourceVersion + 1 }
  else row

section Update
variable (id : String) (expectedVersion : Nat) (payload : P) (nowMs : Int) (row : ObjectRecord P)

@[simp] theorem update_id : (update id expectedVersion payload nowMs row).id = row.id := by
  unfold update
  split <;> rfl

@[simp] theorem update_name : (update id expectedVersion payload nowMs row).name = row.name := by
  unfold update
  split <;> rfl

@[simp] theorem update_workspace :
    (update id expectedVersion payload nowMs row).workspace = row.workspace := by
  unfold update
  split <;> rfl

end Update

/-- `put_if` with `MatchResourceVersion`: `none` is a conflict. -/
def putIf (id : String) (expectedVersion : Nat) (payload : P) (nowMs : Int) : Option (Objects P) :=
  if objects.rows.any fun row => row.id = id ∧ row.resourceVersion = expectedVersion then
    some {
      rows := objects.rows.map (update id expectedVersion payload nowMs)
      ids := List.pairwise_map.mpr (by simpa using objects.ids)
      names := List.pairwise_map.mpr (by simpa using objects.names) }
  else none

/-- The `DELETE` statement of `delete_if`, with whether a row was affected. -/
def deleteIf (id : String) (expectedVersion : Nat) : Objects P × Bool :=
  let matched (row : ObjectRecord P) : Bool := row.id = id ∧ row.resourceVersion = expectedVersion
  ({ rows := objects.rows.filter fun row => !matched row
     ids := objects.ids.filter _
     names := objects.names.filter _ }, objects.rows.any matched)

/-- The number of rows of a workspace. -/
def count (workspace : String) : Nat :=
  (objects.rows.filter fun row => row.workspace = workspace).length

/-- `create_if_workspace_count_below`: `none` is a unique violation, `some none` a full
workspace. -/
def createIfWorkspaceCountBelow (id name workspace : String) (payload : P) (nowMs : Int)
    (maxCount : Nat) : Option (Option (Objects P)) :=
  if maxCount ≤ objects.count workspace then some none
  else (objects.insertNew id name workspace payload nowMs).map some

/-- `list` with a limit and no offset. The rows are in the order of their insertion. -/
def list (workspace : String) (limit : Nat) : List (ObjectRecord P) :=
  (objects.rows.filter fun row => row.workspace = workspace).take limit

/-! ## Rows after a write -/

variable {objects objects' : Objects P} {id name workspace : String} {payload : P} {nowMs : Int}
  {version : Nat} {row row' : ObjectRecord P}

/-- The id determines the row. -/
theorem eq_of_id (h : row ∈ objects.rows) (h' : row' ∈ objects.rows) (hid : row.id = row'.id) :
    row = row' := by
  have hsymm : Std.Symm fun row row' : ObjectRecord P => row.id ≠ row'.id :=
    ⟨fun _ _ hne => hne.symm⟩
  by_contra hne
  exact objects.ids.forall h h' hne hid

/-- The name within a workspace determines the row. -/
theorem eq_of_name (h : row ∈ objects.rows) (h' : row' ∈ objects.rows)
    (hworkspace : row.workspace = row'.workspace) (hname : row.name = row'.name) : row = row' := by
  have hsymm : Std.Symm fun row row' : ObjectRecord P =>
      ¬ (row.workspace = row'.workspace ∧ row.name = row'.name) :=
    ⟨fun _ _ hne hsame => hne ⟨hsame.1.symm, hsame.2.symm⟩⟩
  by_contra hne
  exact objects.names.forall h h' hne ⟨hworkspace, hname⟩

/-- Reading by id finds the row of that id. -/
theorem get_eq_some_iff : objects.get id = some row ↔ row ∈ objects.rows ∧ row.id = id := by
  unfold get
  exact find?_eq_some_iff_of_unique fun x hx y hy h h' => eq_of_id hx hy (h.trans h'.symm)

theorem getByName_eq_some_iff :
    objects.getByName workspace name = some row ↔
      row ∈ objects.rows ∧ row.workspace = workspace ∧ row.name = name := by
  unfold getByName
  exact find?_eq_some_iff_of_unique fun x hx y hy h h' =>
    eq_of_name hx hy (h.1.trans h'.1.symm) (h.2.trans h'.2.symm)

/-- An insertion finds neither its id nor its name, and adds its row. -/
theorem insertNew_eq_some (h : objects.insertNew id name workspace payload nowMs = some objects') :
    (∀ row ∈ objects.rows, row.id ≠ id ∧ ¬ (row.workspace = workspace ∧ row.name = name)) ∧
      objects'.rows = objects.rows ++ [⟨id, name, workspace, payload, nowMs, nowMs, 1⟩] := by
  unfold insertNew at h
  split at h
  next hfresh =>
    cases h
    exact ⟨hfresh, rfl⟩
  next => cases h

/-- A write on a version replaces the row of the id and leaves the others. -/
theorem mem_putIf (h : objects.putIf id version payload nowMs = some objects') :
    ∃ old ∈ objects.rows, old.id = id ∧ old.resourceVersion = version ∧
      ∀ row, row ∈ objects'.rows ↔ (row ∈ objects.rows ∧ row.id ≠ id) ∨
        row = { old with payload, updatedAtMs := nowMs, resourceVersion := version + 1 } := by
  unfold putIf at h
  split at h
  next hany =>
    cases h
    obtain ⟨old, hold, hmatch⟩ := List.any_eq_true.mp hany
    obtain ⟨hid, hversion⟩ := of_decide_eq_true hmatch
    have hupdate : ∀ row ∈ objects.rows, update id version payload nowMs row =
        if row.id = id then
        { old with payload, updatedAtMs := nowMs, resourceVersion := version + 1 } else row := by
      intro row hrow
      by_cases hsame : row.id = id
      · obtain rfl := eq_of_id hrow hold (hsame.trans hid.symm)
        rw [if_pos hsame, update, if_pos ⟨hsame, hversion⟩, hversion]
      · rw [if_neg hsame, update, if_neg fun hboth => hsame hboth.1]
    refine ⟨old, hold, hid, hversion, fun row => ?_⟩
    rw [List.mem_map]
    constructor
    · rintro ⟨source, hsource, rfl⟩
      rw [hupdate source hsource]
      by_cases hsame : source.id = id
      · exact .inr (if_pos hsame)
      · rw [if_neg hsame]
        exact .inl ⟨hsource, hsame⟩
    · rintro (⟨hrow, hne⟩ | rfl)
      · exact ⟨row, hrow, (hupdate row hrow).trans (if_neg hne)⟩
      · exact ⟨old, hold, (hupdate old hold).trans (if_pos hid)⟩
  next => cases h

/-- A write conflicts exactly if the id has no row of the version. -/
theorem putIf_eq_none_iff :
    objects.putIf id version payload nowMs = none ↔
      ∀ row ∈ objects.rows, row.id = id → row.resourceVersion ≠ version := by
  unfold putIf
  split
  next hany =>
    obtain ⟨row, hrow, hmatch⟩ := List.any_eq_true.mp hany
    obtain ⟨hid, hversion⟩ := of_decide_eq_true hmatch
    exact iff_of_false nofun fun hall => hall row hrow hid hversion
  next hnone =>
    refine iff_of_true rfl fun row hrow hid hversion => hnone ?_
    exact List.any_eq_true.mpr ⟨row, hrow, decide_eq_true ⟨hid, hversion⟩⟩

/-- A deletion on a version takes the row of the id and version only. -/
theorem mem_deleteIf :
    row ∈ (objects.deleteIf id version).1.rows ↔
      row ∈ objects.rows ∧ ¬ (row.id = id ∧ row.resourceVersion = version) := by
  simp [deleteIf, List.mem_filter, imp_iff_not_or]

theorem deleteIf_snd : (objects.deleteIf id version).2 = true ↔
    ∃ row ∈ objects.rows, row.id = id ∧ row.resourceVersion = version := by
  simp [deleteIf]

/-- A deletion that affects no row changes nothing. -/
theorem deleteIf_eq_self (h : (objects.deleteIf id version).2 = false) :
    (objects.deleteIf id version).1 = objects := by
  have hrows : (objects.deleteIf id version).1.rows = objects.rows := by
    refine List.filter_eq_self.mpr fun row hrow => ?_
    have hnot : ¬ (row.id = id ∧ row.resourceVersion = version) := fun hmatch =>
      Bool.false_ne_true (h.symm.trans (deleteIf_snd.mpr ⟨row, hrow, hmatch⟩))
    change (!decide _) = true
    rw [decide_eq_false hnot]
    rfl
  cases hdelete : (objects.deleteIf id version).1 with
  | mk rows ids names =>
    rw [hdelete] at hrows
    obtain rfl : rows = objects.rows := hrows
    rfl

/-! ## The row of an id -/

theorem get_eq_none_iff : objects.get id = none ↔ ∀ row ∈ objects.rows, row.id ≠ id := by
  rw [get, List.find?_eq_none]
  exact forall₂_congr fun row _ => by simp

/-- A row is created where there was none, at version one. -/
theorem get_insertNew (h : objects.insertNew id name workspace payload nowMs = some objects') :
    objects.get id = none ∧
      objects'.get id = some ⟨id, name, workspace, payload, nowMs, nowMs, 1⟩ := by
  obtain ⟨hfresh, hrows⟩ := insertNew_eq_some h
  refine ⟨get_eq_none_iff.mpr fun row hrow => (hfresh row hrow).1, get_eq_some_iff.mpr ⟨?_, rfl⟩⟩
  rw [hrows]
  exact List.mem_concat_self ..

/-- A row that is written moves to the next version. -/
theorem get_putIf (h : objects.putIf id version payload nowMs = some objects') :
    ∃ old, objects.get id = some old ∧ old.resourceVersion = version ∧
      objects'.get id =
        some { old with payload, updatedAtMs := nowMs, resourceVersion := version + 1 } := by
  obtain ⟨old, hold, hid, hversion, hrows⟩ := mem_putIf h
  exact ⟨old, get_eq_some_iff.mpr ⟨hold, hid⟩, hversion,
    get_eq_some_iff.mpr ⟨(hrows _).mpr (.inr rfl), hid⟩⟩

/-- A deletion that affects a row leaves none of its id. -/
theorem get_deleteIf (h : (objects.deleteIf id version).2 = true) :
    ∃ old, objects.get id = some old ∧ (objects.deleteIf id version).1.get id = none := by
  obtain ⟨old, hold, hid, hversion⟩ := deleteIf_snd.mp h
  refine ⟨old, get_eq_some_iff.mpr ⟨hold, hid⟩, get_eq_none_iff.mpr fun row hrow hsame => ?_⟩
  obtain ⟨hrow, hnot⟩ := mem_deleteIf.mp hrow
  obtain rfl := eq_of_id hrow hold (hsame.trans hid.symm)
  exact hnot ⟨hsame, hversion⟩

/-! ## Rows of a workspace -/

/-- An insertion counts for its own workspace. -/
theorem count_insertNew (h : objects.insertNew id name workspace payload nowMs = some objects')
    (other : String) :
    objects'.count other = objects.count other + if workspace = other then 1 else 0 := by
  unfold count
  rw [(insertNew_eq_some h).2, List.filter_append, List.length_append]
  by_cases hother : workspace = other <;> simp [hother]

theorem count_putIf (h : objects.putIf id version payload nowMs = some objects')
    (workspace : String) :
    objects'.count workspace = objects.count workspace := by
  unfold putIf at h
  split at h
  next =>
    cases h
    unfold count
    rw [List.filter_map, List.length_map]
    simp [Function.comp_def]
  next => cases h

/-! ## Snapshots -/

/-- The table is one a snapshot of a row can have been read from before: the row is gone,
or was written since, or is the snapshot. -/
def Follows (objects : Objects P) (snapshot : ObjectRecord P) : Prop :=
  ∀ row ∈ objects.rows, row.id = snapshot.id → snapshot.resourceVersion ≤ row.resourceVersion ∧
    (row.resourceVersion = snapshot.resourceVersion → row = snapshot)

/-- A row that is read is a snapshot of the table it is in. -/
theorem follows_of_mem (h : row ∈ objects.rows) : objects.Follows row := by
  intro row' hrow' hid
  obtain rfl := eq_of_id hrow' h hid
  exact ⟨Nat.le_refl _, fun _ => rfl⟩

theorem Follows.insertNew (h : objects.Follows row) (hid : row.id ≠ id)
    (hinsert : objects.insertNew id name workspace payload nowMs = some objects') :
    objects'.Follows row := by
  intro row' hrow' hsame
  rw [(insertNew_eq_some hinsert).2] at hrow'
  rcases List.mem_append.mp hrow' with hrow' | hnew
  · exact h row' hrow' hsame
  · rw [List.mem_singleton.mp hnew] at hsame
    exact absurd hsame.symm hid

/-- Writes keep snapshots. -/
theorem Follows.putIf (h : objects.Follows row)
    (hput : objects.putIf id version payload nowMs = some objects') :
    objects'.Follows row := by
  obtain ⟨old, hold, hid, hversion, hrows⟩ := mem_putIf hput
  intro row' hrow' hsame
  rcases (hrows row').mp hrow' with ⟨hrow', -⟩ | rfl
  · exact h row' hrow' hsame
  · -- the row written is past every version it had
    have hle := (h old hold hsame).1
    dsimp only
    exact ⟨by omega, fun heq => by omega⟩

/-- So do deletions, since a row that is gone contradicts none. -/
theorem Follows.deleteIf (h : objects.Follows row) : (objects.deleteIf id version).1.Follows row :=
  fun row' hrow' => h row' (mem_deleteIf.mp hrow').1

end Objects

end OpenShell.Persistence
