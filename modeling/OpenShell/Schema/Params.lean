import OpenShell.Policy.Mcp
import OpenShell.Schema.Document
import OpenShell.Util.Entries

/-!
# Parameter matchers, flat and nested

On the wire an MCP rule's params are one flat map with dotted keys. An authored
rule nests them, and gives the matcher of `name` as its `tool`. Reading a wire
rule takes `name` out, nests the other keys unless two of them collide, and
writing it back flattens the nested map and puts `name` in again if nothing is
there.

What a nested map holds is said by `leafAt`, the matcher at a path of keys. The
keys arrive in order, so a key comes before its own extensions, and an insertion
fails exactly when a prefix of its path is a leaf already. The result is
`flatten_split`: all matchers come back, except that the one of `name` is
lost when the nested map has an object in its place.
-/

namespace OpenShell.Schema

open OpenShell.Policy

/-! ## Matchers -/

def matcherDefToProto : QueryMatcher → L7QueryMatcher
  | .glob glob => { glob, any := [] }
  | .any any => { glob := "", any }

def matcherProtoToDef (matcher : L7QueryMatcher) : QueryMatcher :=
  if matcher.any.isEmpty then .glob matcher.glob else .any matcher.any

/-- A matcher in one of the two authored forms. -/
def Authored (matcher : L7QueryMatcher) : Prop := matcher.glob = "" ∨ matcher.any = []

theorem authored_matcherDefToProto (matcher : QueryMatcher) :
    Authored (matcherDefToProto matcher) := by
  cases matcher with
  | glob glob => exact Or.inr rfl
  | any any => exact Or.inl rfl

theorem matcherDefToProto_matcherProtoToDef {matcher : L7QueryMatcher} (h : Authored matcher) :
    matcherDefToProto (matcherProtoToDef matcher) = matcher := by
  obtain ⟨glob, any⟩ := matcher
  cases any with
  | nil => rfl
  | cons value any =>
    obtain rfl : glob = "" := h.resolve_right (List.cons_ne_nil _ _)
    rfl

/-! ## Flattening -/

mutual

/-- Walk one params subtree with the dotted key so far. -/
def flattenParamMatcher (key : String) : ParameterMatcher → Map QueryMatcher → Map QueryMatcher
  | .matcher matcher, out => out.insert key matcher
  | .object children, out => flattenChildren key children out

def flattenChildren (key : String) :
    List (String × ParameterMatcher) → Map QueryMatcher → Map QueryMatcher
  | [], out => out
  | (childKey, child) :: rest, out =>
    flattenChildren key rest (flattenParamMatcher (key ++ "." ++ childKey) child out)

end

def flattenParamMatchers (params : List (String × ParameterMatcher)) : Map QueryMatcher :=
  params.foldl (fun out entry => flattenParamMatcher entry.1 entry.2 out) ∅

/-! ## Nesting -/

/-- The object at a key of `root`, a new one if there is nothing. -/
def objectAt (root : List (String × ParameterMatcher)) (key : String) :
    Option (List (String × ParameterMatcher)) :=
  match root.lookup key with
  | none => some []
  | some (.object children) => some children
  | some (.matcher _) => none

/-- `insert_nested_param`, on the parts of the key. -/
def insertNestedParts (matcher : QueryMatcher) :
    List String → List (String × ParameterMatcher) → Option (List (String × ParameterMatcher))
  | [], _ => none
  | [first], root => some (setEntry first (.matcher matcher) root)
  | first :: next :: parts, root => do
    let children ← objectAt root first
    let children ← insertNestedParts matcher (next :: parts) children
    return setEntry first (.object children) root

/-- The source joins the remaining parts for the recursion, which splits them again. -/
def insertNestedParam (root : List (String × ParameterMatcher)) (key : String)
    (matcher : QueryMatcher) : Option (List (String × ParameterMatcher)) :=
  insertNestedParts matcher (splitChar key '.') root

def flatParamMatchersToDef (params : List (String × QueryMatcher)) :
    List (String × ParameterMatcher) :=
  params.map fun entry => (entry.1, .matcher entry.2)

/-- Nest the keys one by one; `none` when two of them collide. -/
def nestParams (params : List (String × QueryMatcher)) :
    Option (List (String × ParameterMatcher)) :=
  params.foldlM (fun nested entry => insertNestedParam nested entry.1 entry.2) []

def flatParamsToDef (protocol : String) (params : Map QueryMatcher) :
    List (String × ParameterMatcher) :=
  let flat := params.toList
  if !isMcpProtocol protocol then flatParamMatchersToDef flat
  else (nestParams flat).getD (flatParamMatchersToDef flat)

/-! ## The tool name -/

def paramsWithTool (params : List (String × ParameterMatcher)) (tool : Option QueryMatcher) :
    List (String × ParameterMatcher) :=
  match tool with
  | none => params
  | some tool =>
    if (params.lookup "name").isSome then params else setEntry "name" (.matcher tool) params

def splitToolParam (protocol : String) (params : Map QueryMatcher) :
    Option QueryMatcher × Map QueryMatcher :=
  if !isMcpProtocol protocol then (none, params) else (params["name"]?, params.erase "name")

def yamlMcpMethod (protocol method : String) (hasTool allowAllKnownMcpMethods : Bool) : String :=
  if isMcpProtocol protocol && !hasTool && method == "*" then ""
  else if isMcpProtocol protocol && hasTool && method == "tools/call" &&
    allowAllKnownMcpMethods then
    ""
  else method

/-! ## Dotted keys -/

/-- The flat key of a path. -/
def dotted : List String → String
  | [] => ""
  | first :: rest => rest.foldl (fun key part => key ++ "." ++ part) first

theorem toList_foldl_dot (rest : List String) (key : String) :
    (rest.foldl (fun key part => key ++ "." ++ part) key).toList
      = ['.'].intercalate (key.toList :: rest.map String.toList) := by
  induction rest generalizing key with
  | nil => simp [List.intercalate]
  | cons part rest ih =>
    rw [List.foldl_cons, ih]
    cases rest with
    | nil => simp [List.intercalate]
    | cons next rest => simp [List.intercalate]

theorem dotted_splitChar (key : String) : dotted (splitChar key '.') = key := by
  obtain ⟨first, rest, hsplit⟩ := List.exists_cons_of_ne_nil (splitChar_ne_nil key '.')
  refine String.toList_inj.mp ?_
  rw [hsplit, dotted, toList_foldl_dot, ← List.map_cons, ← hsplit]
  simp [splitChar, Function.comp_def, List.intercalate_splitOn]

/-- `key.` is a prefix of `other`. -/
def isDottedPrefix (key other : String) : Bool := startsWith other (key ++ ".")

variable {key other : String}

theorem isDottedPrefix_iff :
    isDottedPrefix key other = true ↔
      ∃ parts, parts ≠ [] ∧ splitChar other '.' = splitChar key '.' ++ parts := by
  rw [isDottedPrefix, startsWith_iff]
  constructor
  · rintro ⟨rest, hrest⟩
    refine ⟨(rest.splitOn '.').map String.ofList, by simp [List.splitOn_ne_nil], ?_⟩
    rw [splitChar, hrest]
    simp [splitChar, List.splitOn_append_cons_self]
  · rintro ⟨parts, hne, hsplit⟩
    obtain ⟨next, parts, rfl⟩ := List.exists_cons_of_ne_nil hne
    obtain ⟨first, rest, hkey⟩ := List.exists_cons_of_ne_nil (splitChar_ne_nil key '.')
    have hother : other = parts.foldl (fun key part => key ++ "." ++ part)
        (key ++ "." ++ next) := by
      rw [← dotted_splitChar other, hsplit, hkey, List.cons_append, dotted, List.foldl_append,
        List.foldl_cons, ← dotted_splitChar key, hkey, dotted]
    rw [hother, toList_foldl_dot]
    cases parts with
    | nil => exact ⟨next.toList, by simp [List.intercalate]⟩
    | cons part parts =>
      exact ⟨next.toList ++ '.' :: ['.'].intercalate ((part :: parts).map String.toList),
        by simp [List.intercalate]⟩

/-- A key is not after its extensions. -/
theorem not_lt_of_prefix (h : splitChar key '.' <+: splitChar other '.') :
    compare other key ≠ .lt := by
  obtain ⟨parts, hparts⟩ := h
  have hprefix : key.toList <+: other.toList := by
    by_cases hne : parts = []
    · rw [hne, List.append_nil] at hparts
      exact joined_of_splitChar hparts ▸ List.prefix_rfl
    · obtain ⟨rest, hrest⟩ := startsWith_iff.mp (isDottedPrefix_iff.mpr ⟨parts, hne, hparts.symm⟩)
      exact ⟨'.' :: rest, by simp [hrest]⟩
  intro hlt
  exact hprefix.le (String.lt_iff.mp (compareOfLessAndEq_eq_lt.mp hlt))

/-! ## What a nested map holds -/

/-- The matcher at a path. -/
@[simp] def leafAt : ParameterMatcher → List String → Option QueryMatcher
  | .matcher matcher, [] => some matcher
  | .object children, key :: parts => (children.lookup key).bind fun child => leafAt child parts
  | _, _ => none

theorem leafAt_empty (path : List String) : leafAt (.object []) path = none := by
  cases path <;> rfl

variable {root root' : List (String × ParameterMatcher)} {path : List String}

section
variable {matcher : QueryMatcher}

/-- A part of a path that is a leaf. -/
def LeafPrefix (node : ParameterMatcher) (path : List String) : Prop :=
  ∃ pre post, post ≠ [] ∧ path = pre ++ post ∧ (leafAt node pre).isSome = true

theorem not_leafPrefix_singleton (root : List (String × ParameterMatcher)) (key : String) :
    ¬ LeafPrefix (.object root) [key] := by
  rintro ⟨pre, post, hpost, hpath, hleaf⟩
  cases pre with
  | nil => cases hleaf
  | cons first pre =>
    obtain ⟨-, hnil⟩ := List.cons.inj hpath
    exact hpost (List.append_eq_nil_iff.mp hnil.symm).2

variable {parts : List String}

/-- Below an object, a part of the path is its first key and a part of the rest. -/
theorem leafPrefix_cons_iff :
    LeafPrefix (.object root) (key :: parts) ↔
      ∃ child, root.lookup key = some child ∧ LeafPrefix child parts := by
  constructor
  · rintro ⟨pre, post, hpost, hpath, hleaf⟩
    cases pre with
    | nil => cases hleaf
    | cons first pre =>
      obtain ⟨rfl, hpath⟩ := List.cons.inj hpath
      rw [leafAt] at hleaf
      cases hlookup : root.lookup key with
      | none => simp [hlookup] at hleaf
      | some child =>
        rw [hlookup] at hleaf
        exact ⟨child, rfl, pre, post, hpost, by assumption, hleaf⟩
  · rintro ⟨child, hchild, pre, post, hpost, hpath, hleaf⟩
    exact ⟨key :: pre, post, hpost, by rw [hpath]; rfl, by simpa [hchild] using hleaf⟩

theorem insertNestedParts_cons (first next : String) (parts : List String)
    (root : List (String × ParameterMatcher)) :
    insertNestedParts matcher (first :: next :: parts) root
      = (objectAt root first).bind fun children =>
          (insertNestedParts matcher (next :: parts) children).map fun children' =>
            setEntry first (.object children') root := by
  simp only [Option.map_eq_bind]
  rfl

variable {children : List (String × ParameterMatcher)}

/-- Below a key, a new object holds nothing and an old one what was there. -/
theorem leafAt_of_objectAt (h : objectAt root key = some children) (parts : List String) :
    leafAt (.object root) (key :: parts) = leafAt (.object children) parts := by
  rw [leafAt]
  unfold objectAt at h
  split at h
  next hlookup =>
    cases h
    rw [hlookup, leafAt_empty]
    rfl
  next hlookup =>
    cases h
    rw [hlookup]
    rfl
  next => cases h

/-- An insertion fails where a part of its path is a leaf. -/
theorem insertNestedParts_eq_none_iff (hne : path ≠ []) :
    insertNestedParts matcher path root = none ↔ LeafPrefix (.object root) path := by
  induction path generalizing root with
  | nil => exact absurd rfl hne
  | cons first path ih =>
    cases path with
    | nil => simp [insertNestedParts, not_leafPrefix_singleton]
    | cons next parts =>
      have ih := fun {root} => @ih root (List.cons_ne_nil next parts)
      rw [insertNestedParts_cons, leafPrefix_cons_iff]
      unfold objectAt
      cases hlookup : root.lookup first with
      | none =>
        have hempty : ¬ LeafPrefix (.object []) (next :: parts) := by
          rintro ⟨pre, -, -, -, hleaf⟩
          rw [leafAt_empty] at hleaf
          cases hleaf
        simp [ih, hempty]
      | some child =>
        cases child with
        | matcher m => exact iff_of_true rfl ⟨_, rfl, [], _, List.cons_ne_nil _ _, rfl, rfl⟩
        | object children => simp [ih]

/-- A new leaf changes nothing but the path it is at, where nothing was below that. -/
theorem leafAt_insertNestedParts (h : insertNestedParts matcher path root = some root')
    (hfree : ∀ parts, leafAt (.object root) (path ++ parts) = none) (p : List String) :
    leafAt (.object root') p = if p = path then some matcher else leafAt (.object root) p := by
  induction path generalizing root root' p with
  | nil => cases h
  | cons first path ih =>
    cases p with
    | nil => rfl
    | cons key p =>
      cases path with
      | nil =>
        cases h
        rw [leafAt, lookup_setEntry]
        by_cases hkey : key = first
        · subst hkey
          have hbelow := hfree p
          cases p with
          | nil => simp
          | cons part p => simpa using hbelow.symm
        · simp [hkey]
      | cons next parts =>
        rw [insertNestedParts_cons] at h
        obtain ⟨children, hchildren, h⟩ := Option.bind_eq_some_iff.mp h
        obtain ⟨children', hinsert, rfl⟩ := Option.map_eq_some_iff.mp h
        have hbelow := fun parts => leafAt_of_objectAt hchildren parts
        rw [leafAt, lookup_setEntry]
        by_cases hkey : key = first
        · subst hkey
          have hchild := ih hinsert (fun parts' => by rw [← hbelow]; exact hfree parts') p
          rw [if_pos rfl, Option.bind_some, hchild, hbelow]
          simp
        · simp [hkey]

/-- Every object of a tree has its keys in order. -/
inductive KeysOrdered : ParameterMatcher → Prop
  | matcher (m : QueryMatcher) : KeysOrdered (.matcher m)
  | object {children : List (String × ParameterMatcher)} (ordered : Ordered children)
      (below : ∀ e ∈ children, KeysOrdered e.2) : KeysOrdered (.object children)

theorem keysOrdered_of_objectAt (hroot : KeysOrdered (.object root))
    (h : objectAt root key = some children) :
    KeysOrdered (.object children) := by
  cases hroot with
  | object ordered below =>
    unfold objectAt at h
    split at h
    next =>
      cases h
      exact .object List.Pairwise.nil fun e he => absurd he List.not_mem_nil
    next hlookup =>
      cases h
      exact below _ (ordered.lookup_eq_some_iff.mp hlookup)
    next => cases h

theorem KeysOrdered.setEntry
    {child : ParameterMatcher} (hroot : KeysOrdered (.object root)) (hchild : KeysOrdered child) :
    KeysOrdered (.object (setEntry key child root)) := by
  cases hroot with
  | object ordered below =>
    refine .object ordered.setEntry fun e he => ?_
    obtain rfl | ⟨he, -⟩ := mem_setEntry.mp he
    · exact hchild
    · exact below e he

theorem KeysOrdered.insertNestedParts (hroot : KeysOrdered (.object root))
    (h : insertNestedParts matcher path root = some root') : KeysOrdered (.object root') := by
  induction path generalizing root root' with
  | nil => cases h
  | cons first path ih =>
    cases path with
    | nil =>
      cases h
      exact hroot.setEntry (.matcher matcher)
    | cons next parts =>
      rw [insertNestedParts_cons] at h
      obtain ⟨children, hchildren, h⟩ := Option.bind_eq_some_iff.mp h
      obtain ⟨children', hinsert, rfl⟩ := Option.map_eq_some_iff.mp h
      exact hroot.setEntry (ih (keysOrdered_of_objectAt hroot hchildren) hinsert)

/-- What an insertion leaves at the first keys. -/
theorem lookup_insertNestedParts {first : String}
    (h : insertNestedParts matcher (first :: parts) root = some root') (key : String) :
    (root'.lookup key).isSome = true ↔ key = first ∨ (root.lookup key).isSome = true := by
  have hset : ∃ child, root' = setEntry first child root := by
    cases parts with
    | nil => exact ⟨_, (Option.some.inj h).symm⟩
    | cons next parts =>
      rw [insertNestedParts_cons] at h
      obtain ⟨children, -, h⟩ := Option.bind_eq_some_iff.mp h
      obtain ⟨children', -, rfl⟩ := Option.map_eq_some_iff.mp h
      exact ⟨_, rfl⟩
  obtain ⟨child, rfl⟩ := hset
  rw [lookup_setEntry]
  split <;> simp_all

end

/-! ## The leaves of a tree -/

mutual

/-- The matchers of a tree with their paths, in the order they are flattened. -/
def leaves : ParameterMatcher → List (List String × QueryMatcher)
  | .matcher matcher => [([], matcher)]
  | .object children => leavesOf children

def leavesOf : List (String × ParameterMatcher) → List (List String × QueryMatcher)
  | [] => []
  | (key, child) :: rest =>
    (leaves child).map (fun leaf => (key :: leaf.1, leaf.2)) ++ leavesOf rest

end

mutual

theorem flattenParamMatcher_eq (key : String) :
    ∀ (tree : ParameterMatcher) (out : Map QueryMatcher), flattenParamMatcher key tree out
      = (leaves tree).foldl (fun out leaf => out.insert (dotted (key :: leaf.1)) leaf.2) out
  | .matcher _, _ => rfl
  | .object children, out => by
    rw [flattenParamMatcher, leaves]
    exact flattenChildren_eq key children out

theorem flattenChildren_eq (key : String) :
    ∀ (children : List (String × ParameterMatcher)) (out : Map QueryMatcher),
      flattenChildren key children out
        = (leavesOf children).foldl (fun out leaf => out.insert (dotted (key :: leaf.1)) leaf.2) out
  | [], _ => rfl
  | (childKey, child) :: rest, out => by
    rw [flattenChildren, leavesOf, List.foldl_append, List.foldl_map, flattenChildren_eq key rest,
      flattenParamMatcher_eq]
    rfl

end

theorem flattenParamMatchers_eq (params : List (String × ParameterMatcher)) :
    flattenParamMatchers params
      = collect ((leavesOf params).map fun leaf => (dotted leaf.1, leaf.2)) := by
  rw [collect, List.foldl_map]
  unfold flattenParamMatchers
  generalize (∅ : Map QueryMatcher) = out
  induction params generalizing out with
  | nil => rfl
  | cons entry params ih =>
    rw [List.foldl_cons, ih, flattenParamMatcher_eq, leavesOf, List.foldl_append, List.foldl_map]

variable {m : QueryMatcher}

theorem mem_leavesOf :
    ∀ {children : List (String × ParameterMatcher)}, (path, m) ∈ leavesOf children ↔
      ∃ key child parts, path = key :: parts ∧ (key, child) ∈ children ∧ (parts, m) ∈ leaves child
  | [] => by simp [leavesOf]
  | (key, child) :: rest => by
    rw [leavesOf, List.mem_append, mem_leavesOf, List.mem_map]
    constructor
    · rintro (⟨⟨parts, m'⟩, hleaf, heq⟩ | ⟨k, c, parts, rfl, hmem, hleaf⟩)
      · cases heq
        exact ⟨key, child, parts, rfl, List.mem_cons_self, hleaf⟩
      · exact ⟨k, c, parts, rfl, List.mem_cons_of_mem _ hmem, hleaf⟩
    · rintro ⟨k, c, parts, rfl, hmem, hleaf⟩
      obtain heq | hmem := List.mem_cons.mp hmem
      · cases heq
        exact Or.inl ⟨(parts, m), hleaf, rfl⟩
      · exact Or.inr ⟨k, c, parts, rfl, hmem, hleaf⟩

theorem mem_leaves_iff {tree : ParameterMatcher} (h : KeysOrdered tree) : (path, m) ∈ leaves tree ↔
    leafAt tree path = some m := by
  induction path generalizing tree with
  | nil =>
    cases tree with
    | matcher m' => simp [leaves, eq_comm]
    | object children => simp [leaves, mem_leavesOf]
  | cons key parts ih =>
    cases h with
    | matcher m' => simp [leaves]
    | object ordered below =>
      rw [leaves, mem_leavesOf, leafAt, Option.bind_eq_some_iff]
      constructor
      · rintro ⟨k, child, parts', heq, hmem, hleaf⟩
        obtain ⟨rfl, rfl⟩ := List.cons.inj heq
        exact ⟨child, ordered.lookup_eq_some_iff.mpr hmem, (ih (below _ hmem)).mp hleaf⟩
      · rintro ⟨child, hlookup, hleaf⟩
        have hmem := ordered.lookup_eq_some_iff.mp hlookup
        exact ⟨key, child, parts, rfl, hmem, (ih (below _ hmem)).mpr hleaf⟩

variable {flat : Map QueryMatcher}

/-- The leaves of `params` are the entries of `flat`. -/
def Holds (params : List (String × ParameterMatcher)) (flat : Map QueryMatcher) : Prop :=
  ∀ k m, (∃ path, (path, m) ∈ leavesOf params ∧ dotted path = k) ↔ flat[k]? = some m

/-- A tree whose leaves are the entries of a flat map flattens to it. -/
theorem flattenParamMatchers_eq_of {params : List (String × ParameterMatcher)}
    (h : Holds params flat) :
    flattenParamMatchers params = flat := by
  have hmem : ∀ k m, (k, m) ∈ (leavesOf params).map (fun leaf => (dotted leaf.1, leaf.2)) ↔
      flat[k]? = some m := by
    intro k m
    rw [← h, List.mem_map]
    constructor
    · rintro ⟨⟨path, m'⟩, hleaf, heq⟩
      cases heq
      exact ⟨path, hleaf, rfl⟩
    · rintro ⟨path, hleaf, rfl⟩
      exact ⟨(path, m), hleaf, rfl⟩
  rw [flattenParamMatchers_eq]
  refine Std.ExtTreeMap.ext_getElem? fun k => Option.ext fun m => ?_
  rw [getElem?_collect_iff, hmem]
  intro k m m' hm hm'
  rw [hmem] at hm hm'
  exact Option.mem_unique hm hm'

theorem mem_leavesOf_flat {entries : List (String × QueryMatcher)} :
    (path, m) ∈ leavesOf (flatParamMatchersToDef entries) ↔ ∃ k, path = [k] ∧ (k, m) ∈ entries := by
  rw [mem_leavesOf]
  unfold flatParamMatchersToDef
  constructor
  · rintro ⟨key, child, parts, rfl, hchild, hleaf⟩
    obtain ⟨⟨k, m'⟩, hmem, heq⟩ := List.mem_map.mp hchild
    cases heq
    cases List.mem_singleton.mp hleaf
    exact ⟨k, rfl, hmem⟩
  · rintro ⟨k, rfl, hmem⟩
    exact ⟨k, .matcher m, [], rfl, List.mem_map.mpr ⟨(k, m), hmem, rfl⟩, List.mem_singleton.mpr rfl⟩

/-! ## Nesting a flat map -/

/-- The keys nested so far, with what the tree makes of them. -/
structure Nested (done : List (String × QueryMatcher)) (root : List (String × ParameterMatcher)) :
    Prop where
  ordered : KeysOrdered (.object root)
  leaf : ∀ path m, leafAt (.object root) path = some m ↔
    ∃ k, (k, m) ∈ done ∧ splitChar k '.' = path
  top : ∀ key, (root.lookup key).isSome = true ↔
    ∃ e ∈ done, (splitChar e.1 '.').head? = some key
  free : ∀ e ∈ done, ∀ e' ∈ done, isDottedPrefix e.1 e'.1 = false

theorem nested_nil : Nested [] [] where
  ordered := .object List.Pairwise.nil fun e he => absurd he List.not_mem_nil
  leaf path m := by simp [leafAt_empty]
  top key := by simp
  free e he := absurd he List.not_mem_nil

section
variable {done : List (String × QueryMatcher)} {root : List (String × ParameterMatcher)}
  {k : String} {m : QueryMatcher}

theorem Nested.insert_eq_none_iff (h : Nested done root) :
    insertNestedParam root k m = none ↔ ∃ e ∈ done, isDottedPrefix e.1 k = true := by
  rw [insertNestedParam, insertNestedParts_eq_none_iff (splitChar_ne_nil k '.')]
  constructor
  · rintro ⟨pre, post, hpost, hpath, hleaf⟩
    obtain ⟨m', hm'⟩ := Option.isSome_iff_exists.mp hleaf
    obtain ⟨k', hk', rfl⟩ := (h.leaf _ _).mp hm'
    exact ⟨(k', m'), hk', isDottedPrefix_iff.mpr ⟨post, hpost, hpath⟩⟩
  · rintro ⟨e, he, hprefix⟩
    obtain ⟨post, hpost, hpath⟩ := isDottedPrefix_iff.mp hprefix
    refine ⟨_, post, hpost, hpath, ?_⟩
    rw [(h.leaf _ e.2).mpr ⟨e.1, he, rfl⟩]
    rfl

/-- A key after all the others is nested, unless one of them is a dotted prefix of it. -/
theorem Nested.step (h : Nested done root) (hlast : ∀ e ∈ done, compare e.1 k = .lt)
    (hinsert : insertNestedParam root k m = some root') :
    Nested (done ++ [(k, m)]) root' := by
  have hno : ∀ e ∈ done, isDottedPrefix e.1 k = false := by
    intro e he
    refine Bool.eq_false_iff.mpr fun hprefix => ?_
    rw [h.insert_eq_none_iff.mpr ⟨e, he, hprefix⟩] at hinsert
    cases hinsert
  -- nothing in the tree is at the new path or below it
  have hbelow : ∀ e ∈ done, ¬ splitChar k '.' <+: splitChar e.1 '.' := fun e he hprefix =>
    not_lt_of_prefix hprefix (hlast e he)
  have hfree : ∀ parts, leafAt (.object root) (splitChar k '.' ++ parts) = none := by
    intro parts
    cases hleaf : leafAt (.object root) (splitChar k '.' ++ parts) with
    | none => rfl
    | some m' =>
      obtain ⟨k', hk', hpath⟩ := (h.leaf _ _).mp hleaf
      exact absurd ⟨parts, hpath.symm⟩ (hbelow _ hk')
  have hleaf := leafAt_insertNestedParts hinsert hfree
  refine ⟨h.ordered.insertNestedParts hinsert, fun path m' => ?_, fun key => ?_, ?_⟩
  · rw [hleaf]
    constructor
    · intro hpath
      split at hpath
      next heq => exact ⟨k, by simp [Option.some.inj hpath], heq.symm⟩
      next =>
        obtain ⟨k', hk', rfl⟩ := (h.leaf _ _).mp hpath
        exact ⟨k', List.mem_append_left _ hk', rfl⟩
    · rintro ⟨k', hk', rfl⟩
      obtain hk' | hk' := List.mem_append.mp hk'
      · rw [if_neg fun heq => hbelow _ hk' ⟨[], by rw [List.append_nil, heq]⟩]
        exact (h.leaf _ _).mpr ⟨k', hk', rfl⟩
      · cases List.mem_singleton.mp hk'
        rw [if_pos rfl]
  · obtain ⟨first, parts, hsplit⟩ := List.exists_cons_of_ne_nil (splitChar_ne_nil k '.')
    rw [insertNestedParam, hsplit] at hinsert
    rw [lookup_insertNestedParts hinsert, h.top]
    simp only [List.mem_append, List.mem_singleton, or_and_right, exists_or, exists_eq_left, hsplit,
      List.head?_cons, Option.some.injEq, or_comm, eq_comm]
  · have hself : isDottedPrefix k k = false := by
      refine Bool.eq_false_iff.mpr fun hprefix => ?_
      obtain ⟨parts, hne, heq⟩ := isDottedPrefix_iff.mp hprefix
      exact hne (List.self_eq_append_right.mp heq)
    have hafter : ∀ e ∈ done, isDottedPrefix k e.1 = false := by
      intro e he
      refine Bool.eq_false_iff.mpr fun hprefix => ?_
      obtain ⟨parts, -, heq⟩ := isDottedPrefix_iff.mp hprefix
      exact hbelow e he ⟨parts, heq.symm⟩
    intro e he e' he'
    simp only [List.mem_append, List.mem_singleton] at he he'
    obtain he | rfl := he <;> obtain he' | rfl := he'
    · exact h.free e he e' he'
    · exact hno e he
    · exact hafter e' he'
    · exact hself

/-- The run over the keys that are left. -/
theorem Nested.run {rest : List (String × QueryMatcher)} (h : Nested done root)
    (hordered : Ordered (done ++ rest)) :
    (∃ root', rest.foldlM (fun nested e => insertNestedParam nested e.1 e.2) root = some root' ∧
        Nested (done ++ rest) root') ∨
      (rest.foldlM (fun nested e => insertNestedParam nested e.1 e.2) root = none ∧
        ∃ e ∈ done ++ rest, ∃ e' ∈ done ++ rest, isDottedPrefix e.1 e'.1 = true) := by
  induction rest generalizing done root with
  | nil => exact Or.inl ⟨root, rfl, by rwa [List.append_nil]⟩
  | cons e rest ih =>
    have hlast : ∀ d ∈ done, compare d.1 e.1 = .lt := fun d hd =>
      (List.pairwise_append.mp hordered).2.2 d hd e List.mem_cons_self
    rw [List.foldlM_cons]
    cases hinsert : insertNestedParam root e.1 e.2 with
    | none =>
      obtain ⟨d, hd, hprefix⟩ := h.insert_eq_none_iff.mp hinsert
      exact Or.inr ⟨rfl, d, List.mem_append_left _ hd, e, by simp, hprefix⟩
    | some root' =>
      have hnext := ih (h.step hlast hinsert) (by simpa using hordered)
      simpa using hnext

end

theorem nestParams_cases {flat : List (String × QueryMatcher)} (h : Ordered flat) :
    (∃ root, nestParams flat = some root ∧ Nested flat root) ∨
      (nestParams flat = none ∧ ∃ e ∈ flat, ∃ e' ∈ flat, isDottedPrefix e.1 e'.1 = true) :=
  nested_nil.run h

/-! ## There and back -/

/-- The tool name is lost: there is a matcher for `name`, the other keys nest, and one
of them nests below `name`. -/
def losesTool {α : Type} (params : Map α) : Bool :=
  params.contains "name" && params.keys.any (isDottedPrefix "name") &&
    !params.keys.any fun key => key != "name" && params.keys.any (isDottedPrefix key)

theorem holds_flat (flat : Map QueryMatcher) : Holds (flatParamMatchersToDef flat.toList) flat := by
  intro k m
  rw [← mem_toList_iff]
  constructor
  · rintro ⟨path, hleaf, rfl⟩
    obtain ⟨k, rfl, hmem⟩ := mem_leavesOf_flat.mp hleaf
    exact hmem
  · intro hmem
    exact ⟨[k], mem_leavesOf_flat.mpr ⟨k, rfl, hmem⟩, rfl⟩

theorem Nested.holds (h : Nested flat.toList root) : Holds root flat := by
  intro k m
  rw [← mem_toList_iff]
  constructor
  · rintro ⟨path, hleaf, rfl⟩
    obtain ⟨k, hmem, rfl⟩ := (h.leaf _ _).mp ((mem_leaves_iff h.ordered).mp hleaf)
    rwa [dotted_splitChar]
  · intro hmem
    have hleaf := (h.leaf _ _).mpr ⟨k, hmem, rfl⟩
    exact ⟨splitChar k '.', (mem_leaves_iff h.ordered).mpr hleaf, dotted_splitChar k⟩

section
variable {params : List (String × ParameterMatcher)} {flat : Map QueryMatcher}

theorem mem_leavesOf_setEntry {tool : QueryMatcher}
    (hfree : ∀ child, (key, child) ∉ params) :
    (path, m) ∈ leavesOf (setEntry key (.matcher tool) params) ↔
      (path, m) = ([key], tool) ∨ (path, m) ∈ leavesOf params := by
  simp only [mem_leavesOf]
  constructor
  · rintro ⟨k, child, parts, rfl, hmem, hleaf⟩
    obtain heq | ⟨hmem, -⟩ := mem_setEntry.mp hmem
    · cases heq
      cases List.mem_singleton.mp hleaf
      exact Or.inl rfl
    · exact Or.inr ⟨k, child, parts, rfl, hmem, hleaf⟩
  · rintro (heq | ⟨k, child, parts, rfl, hmem, hleaf⟩)
    · cases heq
      exact ⟨key, .matcher m, [], rfl, mem_setEntry.mpr (Or.inl rfl), List.mem_singleton.mpr rfl⟩
    · have hne : k ≠ key := fun heq => hfree child (heq ▸ hmem)
      exact ⟨k, child, parts, rfl, mem_setEntry.mpr (Or.inr ⟨hmem, hne⟩), hleaf⟩

/-- With the tool put back in, everything is there again, unless `name` was taken. -/
theorem flatten_paramsWithTool (h : Holds params (flat.erase "name")) :
    flattenParamMatchers (paramsWithTool params flat["name"]?)
      = if "name" ∈ flat ∧ (params.lookup "name").isSome = true then flat.erase "name"
        else flat := by
  have herase : ∀ k, (flat.erase "name")[k]? = if "name" = k then none else flat[k]? := by
    intro k
    simp only [Std.ExtTreeMap.getElem?_erase, Std.LawfulEqCmp.compare_eq_iff_eq]
  unfold paramsWithTool
  cases htool : flat["name"]? with
  | none =>
    have hname : "name" ∉ flat := by simpa using htool
    rw [if_neg fun hc => hname hc.1]
    refine flattenParamMatchers_eq_of fun k m => ?_
    rw [h k m, herase]
    split <;> simp_all
  | some tool =>
    have hname : "name" ∈ flat := Std.ExtTreeMap.mem_iff_isSome_getElem?.mpr (by simp [htool])
    dsimp only
    split
    next hlookup => rw [if_pos ⟨hname, hlookup⟩, flattenParamMatchers_eq_of h]
    next hlookup =>
      rw [if_neg fun hc => hlookup hc.2]
      refine flattenParamMatchers_eq_of fun k m => ?_
      have hfree : ∀ child, ("name", child) ∉ params := by simpa using hlookup
      simp only [mem_leavesOf_setEntry hfree, or_and_right, exists_or, h k m, herase]
      by_cases hk : "name" = k
      · subst hk
        simp [htool, dotted, eq_comm]
      · simp [hk, dotted]

theorem exists_mem_erase_iff {k : String} :
    (∃ m, (k, m) ∈ (flat.erase "name").toList) ↔ k ∈ flat.keys ∧ k ≠ "name" := by
  have hisSome : (∃ m, (k, m) ∈ (flat.erase "name").toList) ↔ k ∈ flat.erase "name" := by
    simp only [mem_toList_iff, Std.ExtTreeMap.mem_iff_isSome_getElem?, Option.isSome_iff_exists]
  rw [hisSome, Std.ExtTreeMap.mem_erase, Std.ExtTreeMap.mem_keys, and_comm]
  exact and_congr_right fun _ => not_congr (Std.LawfulEqCmp.compare_eq_iff_eq.trans eq_comm)

end

theorem splitChar_name : splitChar "name" '.' = ["name"] := by decide

theorem isDottedPrefix_name (key : String) : isDottedPrefix key "name" = false := by
  refine Bool.eq_false_iff.mpr fun hprefix => ?_
  obtain ⟨parts, hne, hsplit⟩ := isDottedPrefix_iff.mp hprefix
  have hlength := congrArg List.length hsplit
  have hkey := List.length_pos_iff.mpr (splitChar_ne_nil key '.')
  have hparts := List.length_pos_iff.mpr hne
  rw [splitChar_name, List.length_append, List.length_singleton] at hlength
  omega

/-- The keys below `name` are those whose first part it is, `name` itself apart. -/
theorem isDottedPrefix_of_name :
    isDottedPrefix "name" key = true ↔ (splitChar key '.').head? = some "name" ∧ key ≠ "name" := by
  rw [isDottedPrefix_iff, splitChar_name]
  constructor
  · rintro ⟨parts, hne, hsplit⟩
    refine ⟨by rw [hsplit]; rfl, ?_⟩
    rintro rfl
    rw [splitChar_name] at hsplit
    exact hne (List.self_eq_append_right.mp hsplit)
  · rintro ⟨hhead, hne⟩
    obtain ⟨parts, hsplit⟩ := List.head?_eq_some_iff.mp hhead
    refine ⟨parts, ?_, hsplit⟩
    rintro rfl
    exact hne (joined_of_splitChar (hsplit.trans splitChar_name.symm))

/-- When the keys nest, the tool is lost where something nests below `name`. -/
theorem Nested.losesTool_iff (h : Nested (flat.erase "name").toList root) :
    losesTool flat = true ↔ "name" ∈ flat ∧ (root.lookup "name").isSome = true := by
  have hfree : (flat.keys.any fun key =>
      key != "name" && flat.keys.any (isDottedPrefix key)) = false := by
    refine List.any_eq_false.mpr fun key hkey => ?_
    simp only [Bool.and_eq_true, bne_iff_ne, List.any_eq_true, not_and, not_exists]
    intro hne other hother hprefix
    have hother_ne : other ≠ "name" := fun heq => by
      rw [heq, isDottedPrefix_name] at hprefix
      cases hprefix
    obtain ⟨m, hm⟩ := exists_mem_erase_iff.mpr ⟨hkey, hne⟩
    obtain ⟨m', hm'⟩ := exists_mem_erase_iff.mpr ⟨hother, hother_ne⟩
    rw [h.free _ hm _ hm'] at hprefix
    cases hprefix
  have htop : (root.lookup "name").isSome = true ↔
      flat.keys.any (isDottedPrefix "name") = true := by
    rw [h.top, List.any_eq_true]
    constructor
    · rintro ⟨e, he, hhead⟩
      obtain ⟨hmem, hne⟩ := exists_mem_erase_iff.mp ⟨e.2, he⟩
      exact ⟨e.1, hmem, isDottedPrefix_of_name.mpr ⟨hhead, hne⟩⟩
    · rintro ⟨key, hkey, hprefix⟩
      obtain ⟨hhead, hne⟩ := isDottedPrefix_of_name.mp hprefix
      obtain ⟨m, hm⟩ := exists_mem_erase_iff.mpr ⟨hkey, hne⟩
      exact ⟨(key, m), hm, hhead⟩
  rw [losesTool, hfree, htop]
  simp

/-- When two of the other keys collide, the tool is not lost. -/
theorem losesTool_eq_false (h : ∃ e ∈ (flat.erase "name").toList, ∃ e' ∈ (flat.erase "name").toList,
      isDottedPrefix e.1 e'.1 = true) : losesTool flat = false := by
  obtain ⟨e, he, e', he', hprefix⟩ := h
  obtain ⟨hmem, hne⟩ := exists_mem_erase_iff.mp ⟨e.2, he⟩
  obtain ⟨hmem', -⟩ := exists_mem_erase_iff.mp ⟨e'.2, he'⟩
  have hany : (flat.keys.any fun key =>
      key != "name" && flat.keys.any (isDottedPrefix key)) = true := by
    refine List.any_eq_true.mpr ⟨e.1, hmem, ?_⟩
    rw [bne_iff_ne.mpr hne, Bool.true_and]
    exact List.any_eq_true.mpr ⟨e'.1, hmem', hprefix⟩
  rw [losesTool, hany]
  simp

/-- **The params of a rule come back, the tool name apart.** -/
theorem flatten_split (protocol : String) (flat : Map QueryMatcher) :
    flattenParamMatchers (paramsWithTool
      (flatParamsToDef protocol (splitToolParam protocol flat).2) (splitToolParam protocol flat).1)
        = if isMcpProtocol protocol && losesTool flat then flat.erase "name" else flat := by
  unfold splitToolParam flatParamsToDef
  cases hmcp : isMcpProtocol protocol with
  | false => exact flattenParamMatchers_eq_of (holds_flat flat)
  | true =>
    simp only [Bool.not_true, Bool.false_eq_true, if_false, Bool.true_and]
    obtain ⟨root, hnest, hnested⟩ | ⟨hnest, hcollide⟩ :=
      @nestParams_cases (flat.erase "name").toList Std.ExtTreeMap.ordered_keys_toList
    · rw [hnest, Option.getD_some, flatten_paramsWithTool hnested.holds]
      simp only [hnested.losesTool_iff]
    · rw [hnest, Option.getD_none, flatten_paramsWithTool (holds_flat _),
        losesTool_eq_false hcollide]
      refine (if_neg fun hname => ?_).trans (if_neg Bool.false_ne_true).symm
      -- `name` is not among the other keys
      obtain ⟨child, hchild⟩ := Option.isSome_iff_exists.mp hname.2
      obtain ⟨before, after, hflat, -⟩ := List.lookup_eq_some_iff.mp hchild
      have hmem : ("name", child) ∈ flatParamMatchersToDef (flat.erase "name").toList := by
        rw [hflat]
        simp
      obtain ⟨e, he, heq⟩ := List.mem_map.mp hmem
      exact (exists_mem_erase_iff.mp ⟨e.2, he⟩).2 (congrArg Prod.fst heq)

end OpenShell.Schema
