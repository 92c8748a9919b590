import OpenShell.Policy.Validate

/-!
# Which paths of a policy are the root

The validator refuses a writable path that is made of separators. The path is later read by
its components, and `normalize_path` drops those that are `.`: a text such as `/.` is the
root as well, and is not refused.
-/

namespace OpenShell.Policy

/-- `std::path::Component`, of a Unix path. -/
inductive Component
  | rootDir
  | curDir
  | parentDir
  | normal (name : String)
  deriving DecidableEq

/-- The component of one piece between separators. -/
def pieceComponent (piece : String) : Option Component :=
  if piece = "" ∨ piece = "." then none
  else if piece = ".." then some .parentDir else some (.normal piece)

/-- `Path::components`: a `.` is kept only where a relative path begins with it. -/
def components (path : String) : List Component :=
  (if startsWith path "/" then [.rootDir]
    else if (splitChar path '/').head? = some "." then [.curDir] else []) ++
    (splitChar path '/').filterMap pieceComponent

/-- `PathBuf::push`: an absolute path replaces what is there. -/
def push (buf path : String) : String :=
  if startsWith path "/" then path
  else if buf = "" ∨ endsWith buf "/" then buf ++ path
  else buf ++ "/" ++ path

def normalizeStep (normalized : String) : Component → String
  | .rootDir => push normalized "/"
  | .curDir => normalized
  | .parentDir => push normalized ".."
  | .normal name => push normalized name

def normalizePath (path : String) : String := (components path).foldl normalizeStep ""

variable {path : String}

theorem parentDir_mem_components : .parentDir ∈ components path ↔ hasParentDir path = true := by
  have hpiece : ∀ piece, pieceComponent piece = some .parentDir ↔ piece = ".." := by
    intro piece
    unfold pieceComponent
    split
    next h => exact iff_of_false nofun (by rintro rfl; revert h; decide)
    next =>
      split
      next h => exact iff_of_true rfl h
      next h => exact iff_of_false nofun h
  have hfirst : .parentDir ∉ (if startsWith path "/" then [Component.rootDir]
      else if (splitChar path '/').head? = some "." then [.curDir] else []) := by
    split
    · decide
    · split <;> decide
  rw [components, List.mem_append, or_iff_right hfirst, List.mem_filterMap, hasParentDir,
    List.any_eq_true]
  simp only [hpiece, beq_iff_eq]

/-- Pushing a name leaves a text with the characters of the name. -/
theorem push_ne_root {buf name : String} {c : Char} (hmem : c ∈ name.toList) (hc : c ≠ '/') :
    push buf name ≠ "/" := by
  have hin : c ∈ (push buf name).toList := by
    unfold push
    split
    · exact hmem
    · split <;> simp [hmem]
  intro hroot
  rw [hroot] at hin
  exact hc (List.mem_singleton.mp hin)

/-- A component that a piece has is pushed as a name that is not the root. -/
theorem normalizeStep_ne_root {buf piece : String} {component : Component}
    (hpiece : piece ∈ splitChar path '/')
    (h : pieceComponent piece = some component) : normalizeStep buf component ≠ "/" := by
  obtain ⟨chars, hchars, rfl⟩ := List.mem_map.mp hpiece
  unfold pieceComponent at h
  obtain ⟨hname, h⟩ := else_of_ite h nofun
  split at h
  next =>
    cases h
    exact push_ne_root (c := '.') (by decide) (by decide)
  next =>
    cases h
    cases chars with
    | nil => exact absurd (Or.inl rfl) hname
    | cons c chars =>
      refine push_ne_root (c := c) (by simp) ?_
      exact (mem_splitOn hchars List.mem_cons_self).2

/-- An absolute path is the root exactly if each of its pieces is empty or `.`. -/
theorem normalizePath_eq_root (hroot : startsWith path "/" = true) :
    normalizePath path = "/" ↔ ∀ piece ∈ splitChar path '/', piece = "" ∨ piece = "." := by
  rw [normalizePath, components, if_pos hroot]
  have hnone : (∀ piece ∈ splitChar path '/', piece = "" ∨ piece = ".") ↔
      (splitChar path '/').filterMap pieceComponent = [] := by
    rw [List.filterMap_eq_nil_iff]
    refine forall₂_congr fun piece _ => ?_
    unfold pieceComponent
    split
    next h => exact iff_of_true h rfl
    next h => exact iff_of_false h (by split <;> nofun)
  rw [hnone]
  constructor
  · intro h
    by_contra hne
    -- the last component decides
    obtain ⟨initial, last, hsplit⟩ := (List.eq_nil_or_concat' _).resolve_left hne
    have hmem : last ∈ (splitChar path '/').filterMap pieceComponent := by
      rw [hsplit]
      exact List.mem_concat_self ..
    obtain ⟨piece, hpiece, hlast⟩ := List.mem_filterMap.mp hmem
    rw [hsplit, ← List.append_assoc, List.foldl_append] at h
    exact normalizeStep_ne_root hpiece hlast h
  · intro h
    rw [h]
    rfl

/-- The root written with a `.`. -/
def RootWithDot (path : String) : Prop :=
  '.' ∈ path.toList ∧ ∀ piece ∈ splitChar path '/', piece = "" ∨ piece = "."

/-- A path of empty pieces is made of separators. -/
theorem trimEndMatches_of_pieces (h : ∀ piece ∈ splitChar path '/', piece = "" ∨ piece = ".")
    (hdot : '.' ∉ path.toList) :
    isEmptyStr (trimEndMatches path '/') = true := by
  have hslash : ∀ c ∈ path.toList, c = '/' := by
    intro c hc
    have hjoined : c ∈ ['/'].intercalate (path.toList.splitOn '/') :=
      by rwa [List.intercalate_splitOn]
    refine (mem_intercalate hjoined).resolve_right ?_
    rintro ⟨chars, hchars, hmem⟩
    rcases h _ (List.mem_map_of_mem hchars) with hempty | hpiece
    · rw [String.ofList_eq_empty_iff.mp hempty] at hmem
      exact absurd hmem List.not_mem_nil
    · refine hdot (mem_splitOn hchars ?_).1
      rw [← String.toList_ofList (l := chars), hpiece]
      decide
  have hall : path.toList.reverse.dropWhile (· == '/') = [] := by
    simpa using hslash
  rw [trimEndMatches, hall]
  rfl

/-- What validation is to ensure: absolute paths without `..`, and a root that is not writable. -/
def FilesystemSafe (readOnly readWrite : List String) : Prop :=
  validateFilesystemPaths readOnly readWrite = [] →
    (∀ path ∈ readOnly ++ readWrite, startsWith path "/" = true ∧ .parentDir ∉ components path) ∧
      ∀ path ∈ readWrite, normalizePath path ≠ "/"

/-- The paths of accepted lists. -/
theorem validateFilesystemPaths_eq_nil {readOnly readWrite : List String}
    (h : validateFilesystemPaths readOnly readWrite = []) :
    (∀ path ∈ readOnly ++ readWrite, startsWith path "/" = true ∧ .parentDir ∉ components path) ∧
      ∀ path ∈ readWrite, isEmptyStr (trimEndMatches path '/') = false := by
  rw [validateFilesystemPaths, List.append_eq_nil_iff, List.append_eq_nil_iff,
    List.flatMap_eq_nil_iff, List.flatMap_eq_nil_iff] at h
  refine ⟨fun path hpath => ?_, fun path hpath => violationIf_eq_nil.mp (h.2 path hpath)⟩
  have hnone := h.1.2 path hpath
  unfold filesystemPathViolations at hnone
  obtain ⟨-, hnone⟩ := else_of_ite hnone nofun
  rw [List.append_eq_nil_iff, violationIf_eq_nil, violationIf_eq_nil] at hnone
  rw [parentDir_mem_components, hnone.2]
  exact ⟨by simpa using hnone.1, nofun⟩

/-- Validation keeps the root from being writable except where it is written with a `.`. -/
theorem filesystemSafe_iff {readOnly readWrite : List String} : FilesystemSafe readOnly readWrite ↔
    (validateFilesystemPaths readOnly readWrite = [] → ∀ path ∈ readWrite, ¬ RootWithDot path) := by
  refine forall_congr' fun h => ?_
  obtain ⟨hpaths, htrim⟩ := validateFilesystemPaths_eq_nil h
  rw [and_iff_right hpaths]
  refine forall₂_congr fun path hpath => not_congr ?_
  rw [normalizePath_eq_root (hpaths path (List.mem_append_right _ hpath)).1]
  refine ⟨fun hpieces => ⟨?_, hpieces⟩, And.right⟩
  by_contra hdot
  exact Bool.eq_false_iff.mp (htrim path hpath) (trimEndMatches_of_pieces hpieces hdot)

/-- `/.` is accepted, and is the root. -/
theorem not_filesystemSafe_dot : ¬ FilesystemSafe [] ["/."] := by
  intro h
  exact (h (by decide)).2 "/." (List.mem_singleton_self _) (by decide)

end OpenShell.Policy
