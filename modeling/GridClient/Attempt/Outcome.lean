import GridClient.Attempt.Phase
import GridClient.Error

/-!
# Outcomes

How an attempt ends: with an answer, with an error, or with a reason to try
again, either because the topology has changed or because the node could not be
talked to.
-/

namespace GridClient

inductive Outcome (α : Type) where
  | completed (a : α)
  | retryTopology
  | retryConnectivity (e : ClientError)
  | failed (e : ClientError)
  deriving DecidableEq, Repr

namespace Outcome

def phase : Outcome α → Phase
  | completed _ => .completed
  | retryTopology => .retryTopology
  | retryConnectivity _ => .retryTopology
  | failed _ => .failed

/-- The attempt is worth repeating. -/
def isRetry : Outcome α → Bool
  | retryTopology | retryConnectivity _ => true
  | _ => false

end Outcome
end GridClient
