import GridClient.Attempt.Phase
import GridClient.Channel
import GridClient.Metrics
import GridClient.Program
import GridClient.Topology.Update

/-!
# Exchanges

What an attempt asks of its surroundings: a number for its request, a channel,
the writing and reading of frames, the giving back of the channel, the
installation of a topology, and that a late response be drained in the
background. Waiting asks have a limit; the answer says whether it was met.
-/

namespace GridClient

/-- Points in time, in milliseconds. -/
abbrev Instant := Nat

/-- How long a frame is waited for: up to an instant, or for a span of
milliseconds from the start of the wait. -/
inductive Limit where
  | upTo (deadline : Instant)
  | within (millis : Nat)
  deriving DecidableEq, Repr

inductive Timely (α : Type) where
  | late
  | ready (a : α)
  deriving DecidableEq, Repr

/-- A channel on which a response is still to come after its deadline. -/
structure LateResponse where
  guard : Guard
  cache : Bytes
  messageId : UInt64
  intelligence : Intelligence
  patience : Nat
  deriving DecidableEq, Repr

namespace Exchange

inductive Ask where
  | messageId
  | enter (phase : Phase)
  | record (m : Measurement)
  | acquire (target : Target) (deadline : Instant)
  | write (guard : Guard) (frame : Bytes) (deadline : Instant)
  | read (guard : Guard) (limit : Limit)
  | giveBack (channel : Channel) (clean : Bool)
  | install (cache : Bytes) (update : TopologyUpdate)
  | drain (response : LateResponse)

/-- The answers. A frame that cannot be written or read comes with the reason. -/
abbrev Answer : Ask → Type
  | .messageId => UInt64
  | .enter _ => Unit
  | .record _ => Unit
  | .acquire _ _ => Timely (Except ClientError Channel)
  | .write _ _ _ => Timely (Except String Unit)
  | .read _ _ => Timely (Except String Bytes)
  | .giveBack _ _ => Unit
  | .install _ _ => Except ClientError Bool
  | .drain _ => Unit

/-- The guard of the channel that an ask waits on. -/
def Ask.guard? : Ask → Option Guard
  | write g _ _ => some g
  | read g _ => some g
  | _ => none

end Exchange

abbrev Exchange (α : Type) : Type :=
  Program Exchange.Answer α

namespace Exchange

def messageId : Exchange UInt64 :=
  .ask .messageId .done

def enter (p : Phase) : Exchange Unit :=
  .ask (.enter p) .done

def record (m : Measurement) : Exchange Unit :=
  .ask (.record m) .done

def acquire (target : Target) (deadline : Instant) :
    Exchange (Timely (Except ClientError Channel)) :=
  .ask (.acquire target deadline) .done

def write (g : Guard) (frame : Bytes) (deadline : Instant) :
    Exchange (Timely (Except String Unit)) :=
  .ask (.write g frame deadline) .done

def read (g : Guard) (limit : Limit) : Exchange (Timely (Except String Bytes)) :=
  .ask (.read g limit) .done

def giveBack (channel : Channel) (clean : Bool) : Exchange Unit :=
  .ask (.giveBack channel clean) .done

def install (cache : Bytes) (u : TopologyUpdate) : Exchange (Except ClientError Bool) :=
  .ask (.install cache u) .done

def drain (r : LateResponse) : Exchange Unit :=
  .ask (.drain r) .done

end Exchange

/-!
# Giving a channel back
-/

namespace Guard

/-- Gives the channel back for further use. -/
def release (g : Guard) : Exchange Unit := do
  Exchange.record (.released g.channel.node.text)
  Exchange.giveBack g.channel true

/-- Gives the channel back as unfit for further use. -/
def discard (g : Guard) (reason : String) : Exchange Unit := do
  Exchange.record (.discarded g.channel.node.text reason)
  Exchange.giveBack g.channel false

/-- What becomes of the channel when its holder is dropped. -/
def drop (g : Guard) : Exchange Unit :=
  if g.awaiting then g.discard "abandoned" else g.release

end Guard
end GridClient
