/-!
# Phases of an attempt

The phases that one attempt at a request goes through, and the steps between them.
-/

namespace GridClient

inductive Phase where
  | created
  | channelAcquired
  | sent
  | awaitingResponse
  | completed
  | retryTopology
  | failed
  | abandoned
  deriving DecidableEq, Repr

namespace Phase

def all : List Phase :=
  [created, channelAcquired, sent, awaitingResponse, completed, retryTopology, failed, abandoned]

def title : Phase → String
  | created => "Created"
  | channelAcquired => "ChannelAcquired"
  | sent => "Sent"
  | awaitingResponse => "AwaitingResponse"
  | completed => "Completed"
  | retryTopology => "RetryTopology"
  | failed => "Failed"
  | abandoned => "Abandoned"

def ofTitle? (s : String) : Option Phase :=
  all.find? fun p => p.title == s

/-- No step leads out of a terminal phase. -/
def isTerminal : Phase → Bool
  | completed | retryTopology | failed | abandoned => true
  | _ => false

/-- The steps between phases. A request that has been sent is always awaited. -/
def steps : Phase → Phase → Bool
  | created, channelAcquired => true
  | created, retryTopology => true
  | created, failed => true
  | created, abandoned => true
  | channelAcquired, sent => true
  | channelAcquired, retryTopology => true
  | channelAcquired, failed => true
  | channelAcquired, abandoned => true
  | sent, awaitingResponse => true
  | awaitingResponse, completed => true
  | awaitingResponse, retryTopology => true
  | awaitingResponse, failed => true
  | awaitingResponse, abandoned => true
  | _, _ => false

theorem isTerminal_iff (p : Phase) : p.isTerminal ↔ ∀ q, ¬ p.steps q := by
  constructor
  · intro h q
    cases p <;> cases q <;> simp_all [isTerminal, steps]
  · intro h
    cases p
    · exact absurd rfl (h channelAcquired)
    · exact absurd rfl (h sent)
    · exact absurd rfl (h awaitingResponse)
    · exact absurd rfl (h completed)
    all_goals rfl

end Phase
end GridClient
