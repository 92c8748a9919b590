import OpenShell.Core.HostPattern
import OpenShell.Policy.Violation

/-!
# Middleware validation

`middleware::validate`: middleware configs are walked in name order, remembering
who claimed each execution order; a config whose failure mode needs inspection
must not select an endpoint that skips TLS.
-/

namespace OpenShell.Policy

open OpenShell.Core

def maxMiddlewareConfigs : Nat := 10

def maxMiddlewareSelectorPatterns : Nat := 32

/-- `fail_closed` is the default failure mode. -/
def requiresInspection (middleware : NetworkMiddlewareConfig) : Bool :=
  middleware.onError == "" || middleware.onError == "fail_closed"

/-- The selector of a config, if every pattern compiles. -/
def compiledSelector (glob : Glob) (selector : MiddlewareEndpointSelector) : Option HostSelector :=
  if !selector.includes.isEmpty &&
      (selector.includes ++ selector.exclude).all fun p => (HostPattern.new glob p).toOption.isSome
  then (HostSelector.new glob selector.includes selector.exclude).toOption
  else none

/-- Whether a selector may reach hosts of an endpoint whose host compiles. -/
def overlapsTlsSkip (glob : Glob) (selector : Option HostSelector) (endpoint : NetworkEndpoint) :
    Bool :=
  endpoint.tls == tlsSkip &&
    selector.any fun selector =>
      (HostPattern.new glob endpoint.host).toOption.any fun candidate =>
        selector.mayMatchPattern glob candidate

/-- Violations of one config's selector. -/
def selectorViolations (glob : Glob) (policy : SandboxPolicy) (name : String)
    (middleware : NetworkMiddlewareConfig) (selector : MiddlewareEndpointSelector) :
    List PolicyViolation :=
  violationIf selector.includes.isEmpty
    (.invalidMiddlewareConfig name "endpoint selector must include at least one host pattern") ++
  let count := selector.includes.length + selector.exclude.length
  if count > maxMiddlewareSelectorPatterns then [.tooManyMiddlewareSelectorPatterns name count]
  else
    ((selector.includes ++ selector.exclude).flatMap fun pattern =>
      match HostPattern.new glob pattern with
      | .error reason =>
        [.invalidMiddlewareConfig name
          s!"endpoint selector pattern '{pattern}' is invalid: {reason}"]
      | .ok _ => []) ++
    policy.networkPolicies.toList.flatMap fun (key, rule) =>
      rule.endpoints.flatMap fun endpoint =>
        violationIf
          (requiresInspection middleware &&
            overlapsTlsSkip glob (compiledSelector glob selector) endpoint)
          (.middlewareTlsSkipConflict name (reportedName key rule) endpoint.host)

/-- Violations of one config; `first` is the config that claimed its order before. -/
def middlewareViolations (glob : Glob) (policy : SandboxPolicy) (first : Option String)
    (name : String) (middleware : NetworkMiddlewareConfig) : List PolicyViolation :=
  violationIf (isEmptyStr name) (.invalidMiddlewareConfig name "name must not be empty") ++
  (match first with
    | some firstName => [.duplicateMiddlewareOrder middleware.order firstName name]
    | none => []) ++
  violationIf (isEmptyStr middleware.middleware)
    (.invalidMiddlewareConfig name "middleware must not be empty") ++
  violationIf
    (!(middleware.onError == "" || middleware.onError == "fail_closed" ||
      middleware.onError == "fail_open"))
    (.invalidMiddlewareConfig name s!"invalid on_error '{middleware.onError}'") ++
  match middleware.endpoints with
  | none => [.invalidMiddlewareConfig name "endpoint selector is required"]
  | some selector => selectorViolations glob policy name middleware selector

/-- The walk over the configs, with the orders claimed so far. -/
def middlewareWalk (glob : Glob) (policy : SandboxPolicy) :
    Std.ExtTreeMap Int String → List (String × NetworkMiddlewareConfig) → List PolicyViolation
  | _, [] => []
  | orders, (name, middleware) :: rest =>
    middlewareViolations glob policy orders[middleware.order]? name middleware ++
      middlewareWalk glob policy (orders.insert middleware.order name) rest

/-- `middleware::validate`. -/
def validateMiddlewares (glob : Glob) (policy : SandboxPolicy) : List PolicyViolation :=
  violationIf (policy.networkMiddlewares.size > maxMiddlewareConfigs)
    (.tooManyMiddlewareConfigs policy.networkMiddlewares.size) ++
  middlewareWalk glob policy ∅ policy.networkMiddlewares.toList

/-! ## What a policy without violations guarantees -/

theorem middlewareWalk_eq_nil {glob : Glob} {policy : SandboxPolicy} :
    ∀ {configs : List (String × NetworkMiddlewareConfig)} {orders : Std.ExtTreeMap Int String},
      middlewareWalk glob policy orders configs = [] →
      ∀ entry ∈ configs, ∃ first, middlewareViolations glob policy first entry.1 entry.2 = [] := by
  intro configs
  induction configs with
  | nil => exact fun _ entry he => absurd he List.not_mem_nil
  | cons config rest ih =>
    intro orders h entry he
    obtain ⟨hhead, hrest⟩ := List.append_eq_nil_iff.mp h
    rcases List.mem_cons.mp he with rfl | he
    · exact ⟨_, hhead⟩
    · exact ih hrest entry he

/-- Every config of a policy without middleware violations has a selector that
compiles and, if its failure mode needs inspection, is reported to reach no
endpoint that skips TLS. -/
theorem selector_of_valid {glob : Glob} {policy : SandboxPolicy} {name : String}
    {middleware : NetworkMiddlewareConfig} (h : validateMiddlewares glob policy = [])
    (hm : policy.networkMiddlewares[name]? = some middleware) :
    ∃ selector compiled, middleware.endpoints = some selector ∧
      HostSelector.new glob selector.includes selector.exclude = .ok compiled ∧
      (requiresInspection middleware = true → ∀ (key : String) (rule : NetworkPolicyRule),
        policy.networkPolicies[key]? = some rule → ∀ endpoint ∈ rule.endpoints,
          overlapsTlsSkip glob (some compiled) endpoint = false) := by
  have hmem : (name, middleware) ∈ policy.networkMiddlewares.toList :=
    Std.ExtTreeMap.mem_toList_iff_getElem?_eq_some.mpr hm
  obtain ⟨first, hv⟩ := middlewareWalk_eq_nil (List.append_eq_nil_iff.mp h).2 _ hmem
  have hsel := (List.append_eq_nil_iff.mp hv).2
  dsimp only at hsel
  split at hsel
  next => cases hsel
  next selector hs =>
    obtain ⟨hne, hsel⟩ := List.append_eq_nil_iff.mp hsel
    rw [violationIf_eq_nil] at hne
    dsimp only at hsel
    obtain ⟨-, hsel⟩ := else_of_ite hsel nofun
    obtain ⟨hpatterns, hconflicts⟩ := List.append_eq_nil_iff.mp hsel
    have hok : ∀ p ∈ selector.includes ++ selector.exclude,
        ∃ pattern, HostPattern.new glob p = .ok pattern := by
      intro p hp
      have := List.flatMap_eq_nil_iff.mp hpatterns p hp
      split at this
      next => cases this
      next pattern hnew => exact ⟨pattern, hnew⟩
    obtain ⟨includes, hincl⟩ := exists_mapM_ok (f := HostPattern.new glob)
      fun p hp => hok p (List.mem_append_left _ hp)
    obtain ⟨excludes, hexcl⟩ := exists_mapM_ok (f := HostPattern.new glob)
      fun p hp => hok p (List.mem_append_right _ hp)
    have hnew : HostSelector.new glob selector.includes selector.exclude
        = .ok ⟨includes, excludes⟩ := by
      refine rejectIf_bind.mpr ⟨by rw [hne]; decide, ?_⟩
      rw [hincl, hexcl]
      rfl
    have hcompiled : compiledSelector glob selector = some ⟨includes, excludes⟩ := by
      unfold compiledSelector
      rw [if_pos, hnew]
      · rfl
      · rw [hne, Bool.not_false, Bool.true_and, List.all_eq_true]
        intro p hp
        obtain ⟨pattern, hpat⟩ := hok p hp
        rw [hpat]
        rfl
    refine ⟨selector, ⟨includes, excludes⟩, hs, hnew, ?_⟩
    intro hreq key rule hrule endpoint hep
    have hentry : (key, rule) ∈ policy.networkPolicies.toList :=
      Std.ExtTreeMap.mem_toList_iff_getElem?_eq_some.mpr hrule
    have hnil := List.flatMap_eq_nil_iff.mp
      (List.flatMap_eq_nil_iff.mp hconflicts (key, rule) hentry) endpoint hep
    rw [violationIf_eq_nil, hreq, Bool.true_and, hcompiled] at hnil
    exact hnil

end OpenShell.Policy
