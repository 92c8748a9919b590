import OpenShell.Policy.Merge.PortAuthority

/-!
# Where incoming endpoints land

The fold of `merge_rules` decides by host, path and ports alone which endpoint
an incoming one is merged into. `absorb` is that much of it, as a total function
of the inputs, with the provenance mark. `MergedRules.forall₂_tracks` says that
the fold follows it, and `MergedRules.exists_mergedAll` that each existing
endpoint ends up with the incoming ones that `landed` lists, merged in one after
another.
-/

namespace OpenShell.Policy

/-! ## Hosts and ports only -/

/-- The existing endpoint with the incoming one's ports, marked if both were. -/
def absorbed (existing incoming : NetworkEndpoint) : NetworkEndpoint :=
  { withPorts existing (canonicalPorts existing ++ canonicalPorts incoming) with
    advisorProposed := existing.advisorProposed && incoming.advisorProposed }

/-- The first endpoint that overlaps the incoming one takes its ports. -/
def absorb (incoming : NetworkEndpoint) : List NetworkEndpoint → List NetworkEndpoint
  | [] => [incoming]
  | existing :: rest =>
    if endpointsOverlap existing incoming then absorbed existing incoming :: rest
    else existing :: absorb incoming rest

def absorbAll (existing incoming : List NetworkEndpoint) : List NetworkEndpoint :=
  incoming.foldl (fun endpoints endpoint => absorb endpoint endpoints) existing

theorem canonicalPorts_absorbed (existing incoming : NetworkEndpoint) :
    canonicalPorts (absorbed existing incoming)
      = canonicalPorts existing ++ canonicalPorts incoming :=
  canonicalPorts_withPorts existing _

variable {endpoints : List NetworkEndpoint}

theorem mem_absorb {incoming a : NetworkEndpoint}
    (h : a ∈ absorb incoming endpoints) :
    a ∈ endpoints ∨ a = incoming ∨
      ∃ x ∈ endpoints, endpointsOverlap x incoming = true ∧ a = absorbed x incoming := by
  induction endpoints with
  | nil => exact Or.inr (Or.inl (List.mem_singleton.mp h))
  | cons existing rest ih =>
    unfold absorb at h
    split at h
    next hover =>
      rcases List.mem_cons.mp h with rfl | hrest
      · exact Or.inr (Or.inr ⟨existing, List.mem_cons_self, hover, rfl⟩)
      · exact Or.inl (List.mem_cons_of_mem _ hrest)
    next =>
      rcases List.mem_cons.mp h with rfl | hrest
      · exact Or.inl List.mem_cons_self
      · rcases ih hrest with hmem | rfl | ⟨x, hx, hover, rfl⟩
        · exact Or.inl (List.mem_cons_of_mem _ hmem)
        · exact Or.inr (Or.inl rfl)
        · exact Or.inr (Or.inr ⟨x, List.mem_cons_of_mem _ hx, hover, rfl⟩)

/-- An endpoint of the fold agrees with the one that only absorbed. -/
structure Tracks (model actual : NetworkEndpoint) : Prop where
  host : actual.host = model.host
  path : actual.path = model.path
  advisorProposed : actual.advisorProposed = model.advisorProposed
  ports : ∀ port, port ∈ canonicalPorts actual ↔ port ∈ canonicalPorts model

theorem Tracks.normalizeEndpoint {model actual : NetworkEndpoint} (h : Tracks model actual) :
    Tracks model (normalizeEndpoint actual) :=
  ⟨h.host, h.path, h.advisorProposed,
    fun port => mem_canonicalPorts_normalizeEndpoint.trans (h.ports port)⟩

variable (endpoint : NetworkEndpoint)

theorem tracks_canonicalizeEndpoint :
    Tracks endpoint (canonicalizeEndpoint endpoint) := by
  rw [canonicalizeEndpoint_eq]
  exact ⟨rfl, rfl, rfl, fun _ => Iff.rfl⟩

section Steps

variable {a m b n : NetworkEndpoint} (ha : Tracks a m) (hb : Tracks b n)

include ha hb

theorem Tracks.endpointsOverlap_eq : endpointsOverlap m n = endpointsOverlap a b := by
  rw [Bool.eq_iff_iff]
  simp only [endpointsOverlap, ha.host, ha.path, hb.host, hb.path, Bool.and_eq_true,
    List.any_eq_true, List.contains_iff_mem, ha.ports, hb.ports]

/-- Step: merging an overlapping endpoint is absorbing it. -/
theorem Tracks.merged {merged : NetworkEndpoint} (hs : SameSite m n) (hm : Merged m n merged) :
    Tracks (absorbed a b) merged where
  host := by
    rw [hm.host, firstSet]
    split
    next hempty =>
      -- two hosts that agree up to case are both empty
      have hlow := hs.1
      rw [isEmptyStr_iff.mp hempty] at hlow
      have hn : isEmptyStr n.host = true := by
        rw [← isEmptyStr_toAsciiLowercase, ← hlow]
        rfl
      rw [isEmptyStr_iff.mp hn, ← isEmptyStr_iff.mp hempty]
      exact ha.host
    next => exact ha.host
  path := by
    rw [hm.path, firstSet, ← hs.2, ite_self]
    exact ha.path
  advisorProposed := by
    rw [hm.advisorProposed, ha.advisorProposed, hb.advisorProposed]
    rfl
  ports := by
    intro port
    rw [hm.ports, canonicalPorts_absorbed, List.mem_append, ha.ports, hb.ports]

end Steps

variable {operationIndex : Nat} {b n : NetworkEndpoint} {models : List NetworkEndpoint}

/-- Step: folding one endpoint in. -/
theorem forall₂_tracks_absorb (hb : Tracks b n) (hall : List.Forall₂ Tracks models endpoints) :
    ∀ {folded : List NetworkEndpoint} {warnings : List PolicyMergeWarning},
      foldEndpoint operationIndex n endpoints = .ok (folded, warnings) →
      List.Forall₂ Tracks (absorb b models) folded := by
  induction hall with
  | nil =>
    intro folded warnings h
    cases h
    exact .cons hb .nil
  | @cons a m as ms ha hrest ih =>
    intro folded warnings h
    unfold foldEndpoint at h
    unfold absorb
    rw [ha.endpointsOverlap_eq hb] at h
    split at h
    next hover =>
      rw [if_pos hover]
      obtain ⟨⟨merged, w⟩, hm, ⟨⟩⟩ := bind_ok_eq_ok h
      have hsite := sameSite_of_overlap ((ha.endpointsOverlap_eq hb).trans hover)
      exact .cons (ha.merged hb hsite (mergeEndpoint_merged hm)) hrest
    next hover =>
      rw [if_neg hover]
      obtain ⟨⟨rest, w⟩, hfold, ⟨⟩⟩ := bind_ok_eq_ok h
      exact .cons ha (ih hfold)

/-! ## One position of the fold -/

/-- The incoming endpoints that land on the endpoint at a position, in order. -/
def landed (position : Nat) : List NetworkEndpoint → List NetworkEndpoint → List NetworkEndpoint
  | _, [] => []
  | endpoints, incoming :: rest =>
    if endpoints.findIdx? (fun e => endpointsOverlap e incoming) = some position then
      incoming :: landed position (absorb incoming endpoints) rest
    else landed position (absorb incoming endpoints) rest

/-- The endpoint after merging in a list of endpoints, one after another. -/
inductive MergedAll : NetworkEndpoint → List NetworkEndpoint → NetworkEndpoint → Prop
  | nil {endpoint : NetworkEndpoint} : MergedAll endpoint [] endpoint
  | cons {endpoint incoming next merged : NetworkEndpoint} {rest : List NetworkEndpoint} :
    Merged endpoint incoming next → MergedAll next rest merged →
    MergedAll endpoint (incoming :: rest) merged

/-- Step: one endpoint either lands on a position or leaves it alone. -/
theorem foldEndpoint_position {incoming x : NetworkEndpoint}
    {warnings : List PolicyMergeWarning} :
    ∀ {endpoints folded : List NetworkEndpoint} {position : Nat},
      foldEndpoint operationIndex incoming endpoints = .ok (folded, warnings) →
      endpoints[position]? = some x →
      if endpoints.findIdx? (fun e => endpointsOverlap e incoming) = some position then
        ∃ merged, folded[position]? = some merged ∧ Merged x incoming merged
      else folded[position]? = some x
  | [], _, _, _, hx => by cases hx
  | existing :: rest, folded, position, h, hx => by
    unfold foldEndpoint at h
    rw [List.findIdx?_cons]
    split at h
    next hover =>
      obtain ⟨⟨merged, w⟩, hm, ⟨⟩⟩ := bind_ok_eq_ok h
      rw [if_pos hover]
      cases position with
      | zero =>
        cases hx
        rw [if_pos rfl]
        exact ⟨merged, rfl, mergeEndpoint_merged hm⟩
      | succ position =>
        rw [if_neg (by simp)]
        exact hx
    next hover =>
      obtain ⟨⟨rest', w⟩, hfold, ⟨⟩⟩ := bind_ok_eq_ok h
      rw [if_neg hover]
      cases position with
      | zero =>
        rw [if_neg (by simp)]
        exact hx
      | succ position =>
        have hx' : rest[position]? = some x := hx
        simpa using foldEndpoint_position hfold hx'

theorem findIdx?_overlap_eq (hb : Tracks b n) (hall : List.Forall₂ Tracks models endpoints) :
    models.findIdx? (fun e => endpointsOverlap e b)
      = endpoints.findIdx? (fun e => endpointsOverlap e n) := by
  induction hall with
  | nil => rfl
  | cons ha _ ih => rw [List.findIdx?_cons, List.findIdx?_cons, ha.endpointsOverlap_eq hb, ih]

/-- An operation's endpoint as the fold merges it. -/
def foldedEndpoint (endpoint : NetworkEndpoint) : NetworkEndpoint :=
  normalizeEndpoint (preparedEndpoint endpoint)

theorem tracks_foldedEndpoint :
    Tracks endpoint (foldedEndpoint endpoint) :=
  (tracks_canonicalizeEndpoint endpoint).normalizeEndpoint.normalizeEndpoint

theorem foldedEndpoint_protocol :
    (foldedEndpoint endpoint).protocol = endpoint.protocol :=
  ((rewrites_preparedEndpoint endpoint).trans (rewrites_normalizeEndpoint _)).protocol.symm

variable {endpoint : NetworkEndpoint}

theorem mem_rules_foldedEndpoint {rule : L7Rule} :
    rule ∈ (foldedEndpoint endpoint).rules ↔ rule ∈ endpoint.rules := by
  have hrules : (canonicalizeEndpoint endpoint).rules = endpoint.rules := by
    rw [canonicalizeEndpoint_eq]
  simp only [foldedEndpoint, preparedEndpoint, normalizeEndpoint, withPorts, mem_dedupFirst, hrules]

/-- Run: the fold follows `absorbAll`. -/
theorem forall₂_tracks_absorbAll :
    ∀ {incoming models endpoints folded : List NetworkEndpoint}
      {warnings : List PolicyMergeWarning}, List.Forall₂ Tracks models endpoints →
      foldEndpoints operationIndex endpoints (incoming.map preparedEndpoint) = .ok
        (folded, warnings) →
      List.Forall₂ Tracks (absorbAll models incoming) folded
  | [], models, endpoints, folded, warnings, hall, h => by
    cases h
    exact hall
  | i :: incoming, models, endpoints, folded, warnings, hall, h => by
    obtain ⟨next, w, w', hone, hfold, -⟩ := foldEndpoints_cons h
    have hnext := forall₂_tracks_absorb (tracks_foldedEndpoint i) hall hone
    show List.Forall₂ Tracks (absorbAll (absorb i models) incoming) folded
    exact forall₂_tracks_absorbAll hnext hfold

variable {position : Nat}

/-- Run: each position ends up with what landed on it. -/
theorem exists_mergedAll :
    ∀ {incoming models endpoints folded : List NetworkEndpoint} {warnings : List PolicyMergeWarning}
      {x : NetworkEndpoint}, List.Forall₂ Tracks models endpoints →
      foldEndpoints operationIndex endpoints (incoming.map preparedEndpoint) = .ok
        (folded, warnings) →
      endpoints[position]? = some x →
      ∃ merged, folded[position]? = some merged ∧
        MergedAll x ((landed position models incoming).map foldedEndpoint) merged
  | [], models, endpoints, folded, warnings, x, _, h, hx => by
    cases h
    exact ⟨x, hx, .nil⟩
  | i :: incoming, models, endpoints, folded, warnings, x, hall, h, hx => by
    obtain ⟨next, w, w', hone, hfold, -⟩ := foldEndpoints_cons h
    have htracks := tracks_foldedEndpoint i
    have hnext := forall₂_tracks_absorb htracks hall hone
    have hstep := foldEndpoint_position hone hx
    unfold landed
    rw [findIdx?_overlap_eq htracks hall, foldedEndpoint]
    split at hstep
    next hland =>
      obtain ⟨y, hy, hm⟩ := hstep
      obtain ⟨merged, hmerged, hrest⟩ := exists_mergedAll hnext hfold hy
      rw [if_pos hland]
      exact ⟨merged, hmerged, .cons hm hrest⟩
    next hland =>
      rw [if_neg hland]
      exact exists_mergedAll hnext hfold hstep

/-! ## What landed endpoints leave -/

/-- The first protocol that is set. -/
def mergedProtocol (protocol : String) (incoming : List NetworkEndpoint) : String :=
  incoming.foldl (fun protocol endpoint => firstSet isEmptyStr protocol endpoint.protocol) protocol

/-- The protocol by the time the first rules come in, which is the one an access
preset is expanded for. -/
def expansionProtocol : String → List NetworkEndpoint → String
  | protocol, [] => protocol
  | protocol, incoming :: rest =>
    let protocol := firstSet isEmptyStr protocol incoming.protocol
    if incoming.rules.isEmpty then expansionProtocol protocol rest else protocol

theorem expansionProtocol_map_foldedEndpoint :
    ∀ (protocol : String) (incoming : List NetworkEndpoint),
      expansionProtocol protocol (incoming.map foldedEndpoint)
        = expansionProtocol protocol incoming
  | _, [] => rfl
  | protocol, i :: incoming => by
    have hrules : (foldedEndpoint i).rules.isEmpty = i.rules.isEmpty := by
      rw [Bool.eq_iff_iff, List.isEmpty_iff, List.isEmpty_iff]
      exact eq_nil_of_mem_iff fun r => mem_rules_foldedEndpoint
    rw [List.map_cons, expansionProtocol, expansionProtocol, hrules, foldedEndpoint_protocol,
      expansionProtocol_map_foldedEndpoint]

section MergedAll

variable {endpoint merged : NetworkEndpoint} {incoming : List NetworkEndpoint}
  (h : MergedAll endpoint incoming merged)
include h

theorem MergedAll.protocol_eq :
    merged.protocol = mergedProtocol endpoint.protocol incoming := by
  induction h with
  | nil => rfl
  | cons hm _ ih => rw [ih, hm.protocol, mergedProtocol, mergedProtocol, List.foldl_cons]

theorem MergedAll.persistedQueries :
    merged.persistedQueries = endpoint.persistedQueries ∧
      merged.graphqlPersistedQueries = endpoint.graphqlPersistedQueries := by
  induction h with
  | nil => exact ⟨rfl, rfl⟩
  | cons hm _ ih =>
    exact ⟨ih.1.trans hm.persistedQueries, ih.2.trans hm.graphqlPersistedQueries⟩

/-- Explicit rules only collect the incoming ones. -/
theorem MergedAll.rules_of_explicit (hacc : endpoint.access = 0) (hrules : endpoint.rules ≠ [])
    (rule : L7Rule) :
    rule ∈ merged.rules ↔ rule ∈ endpoint.rules ∨ ∃ i ∈ incoming, rule ∈ i.rules := by
  induction h with
  | nil => simp
  | @cons endpoint i next merged rest hm _ ih =>
    have hnext : ∀ r, r ∈ next.rules ↔ r ∈ endpoint.rules ∨ r ∈ i.rules := by
      intro r
      rw [hm.rules]
      simp [ExpandedRule, hacc]
    have hacc' : next.access = 0 := by
      rw [hm.access]
      simp [hrules, hacc]
    have hrules' : next.rules ≠ [] := by
      obtain ⟨r, hr⟩ := List.exists_mem_of_ne_nil _ hrules
      exact List.ne_nil_of_mem ((hnext r).mpr (Or.inl hr))
    rw [ih hacc' hrules', hnext]
    simp [or_assoc]

/-- A preset that is gone was expanded for the protocol of its moment. -/
theorem MergedAll.rules_of_preset (hacc : endpoint.access ≠ 0) (hrules : endpoint.rules = [])
    (hgone : merged.access = 0) {expanded : List L7Rule}
    (hexp : expandAccessPreset (expansionProtocol endpoint.protocol incoming)
      (accessLabel endpoint.access) = some expanded) (rule : L7Rule) :
    rule ∈ merged.rules ↔ rule ∈ expanded ∨ ∃ i ∈ incoming, rule ∈ i.rules := by
  induction h with
  | nil => exact absurd hgone hacc
  | @cons endpoint i next merged rest hm hrest ih =>
    by_cases hi : i.rules = []
    · -- nothing to merge the preset with yet
      have hacc' : next.access = endpoint.access := by
        rw [hm.access]
        simp [hi, hacc]
      have hrules' : next.rules = [] := by
        rw [List.eq_nil_iff_forall_not_mem]
        intro r
        rw [hm.rules]
        simp [hi, hrules, ExpandedRule]
      rw [expansionProtocol, ← hm.protocol] at hexp
      simp only [hi, List.isEmpty_nil, if_true] at hexp
      rw [ih (hacc' ▸ hacc) hrules' hgone (hacc' ▸ hexp)]
      simp [hi]
    · have hempty : i.rules.isEmpty = false := by simpa using hi
      rw [expansionProtocol, ← hm.protocol] at hexp
      simp only [hempty, Bool.false_eq_true, if_false] at hexp
      have hnext : ∀ r, r ∈ next.rules ↔ r ∈ expanded ∨ r ∈ i.rules := by
        intro r
        rw [hm.rules]
        simp [ExpandedRule, hrules, hi, hacc, hexp, or_comm]
      have hacc' : next.access = 0 := by
        rw [hm.access]
        simp [hi]
      have hrules' : next.rules ≠ [] := by
        obtain ⟨r, hr⟩ := List.exists_mem_of_ne_nil _ hi
        exact List.ne_nil_of_mem ((hnext r).mpr (Or.inr hr))
      rw [hrest.rules_of_explicit hacc' hrules', hnext]
      simp [or_assoc]

end MergedAll

/-! ## Merged rules -/

section MergedRules

variable {existing rule merged : NetworkPolicyRule} {name : String}
  {warnings : List PolicyMergeWarning}

theorem forall₂_tracks_canonicalizeRule (existing : NetworkPolicyRule) :
    List.Forall₂ Tracks existing.endpoints (canonicalizeRule existing).endpoints := by
  simp only [canonicalizeRule, List.forall₂_map_right_iff, List.forall₂_same]
  exact fun e _ => tracks_canonicalizeEndpoint e

variable (h : MergedRules (canonicalizeRule existing) (preparedRule name (canonicalizeRule rule))
  merged warnings)
include h

theorem MergedRules.forall₂_tracks :
    List.Forall₂ Tracks (absorbAll existing.endpoints rule.endpoints) merged.endpoints := by
  obtain ⟨index, endpointWarnings, hfold, -⟩ := h.folded
  rw [preparedRule_endpoints] at hfold
  exact forall₂_tracks_absorbAll (forall₂_tracks_canonicalizeRule existing) hfold

theorem MergedRules.exists_mergedAll
    (he : existing.endpoints[position]? = some endpoint) :
    ∃ after, merged.endpoints[position]? = some after ∧
      MergedAll (canonicalizeEndpoint endpoint)
        ((landed position existing.endpoints rule.endpoints).map foldedEndpoint) after := by
  obtain ⟨index, endpointWarnings, hfold, -⟩ := h.folded
  rw [preparedRule_endpoints] at hfold
  refine OpenShell.Policy.exists_mergedAll (forall₂_tracks_canonicalizeRule existing) hfold ?_
  rw [canonicalizeRule, List.getElem?_map, he, Option.map_some]

end MergedRules

end OpenShell.Policy
