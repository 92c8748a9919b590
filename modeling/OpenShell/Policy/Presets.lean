import OpenShell.Policy.L7Validate

/-!
# Access presets

The authored preset vocabulary of the policy schema, and its expansion to
explicit rules.
-/

namespace OpenShell.Policy

/-- Intrinsic access-preset vocabulary in the authored policy language. -/
inductive AccessPreset
  | readOnly | readWrite | full
  deriving DecidableEq

def AccessPreset.parse (value : String) : Option AccessPreset :=
  if value = "read-only" then some .readOnly
  else if value = "read-write" then some .readWrite
  else if value = "full" then some .full
  else none

/-- The authored protocol methods a preset represents. -/
def AccessPreset.methods (preset : AccessPreset) (protocol : String) : List String :=
  match preset with
  | .full => ["*"]
  | .readOnly => if protocol = "websocket" then ["GET"] else ["GET", "HEAD", "OPTIONS"]
  | .readWrite =>
    if protocol = "websocket" then ["GET", "WEBSOCKET_TEXT"]
    else ["GET", "HEAD", "OPTIONS", "POST", "PUT", "PATCH"]

/-- The rule that allows a method on every path. -/
def methodRule (method : String) : L7Rule := { allow := some { method, path := "**" } }

/-- Expand a recognized access preset for a protocol. -/
def expandAccessPreset (protocol access : String) : Option (List L7Rule) :=
  (AccessPreset.parse access).map fun preset => (preset.methods protocol).map methodRule

/-! ## Labels of the mode values -/

def tlsLabel (value : Int) : String := (networkTlsModeToStr value).getD (toString value)

def enforcementLabel (value : Int) : String :=
  (networkEnforcementModeToStr value).getD (toString value)

def accessLabel (value : Int) : String := (networkAccessPresetToStr value).getD (toString value)

end OpenShell.Policy
