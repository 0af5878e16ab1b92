import GridClient.Attempt.Exchange
import GridClient.Attempt.Outcome
import GridClient.Frame.Request
import GridClient.Frame.Response
import GridClient.Operation.Answer
import GridClient.Operation.Body
import GridClient.Topology.Snapshot

/-!
# Attempts

One attempt at a request: get a channel to the target, write the request, read
the response and judge it, all before a deadline. A topology that a response
brings is installed before anything else about the response is looked at. The
channel is given back clean if the response was understood, and unfit otherwise;
if the response does not come in time, it is drained in the background.
-/

namespace GridClient

structure Attempt (op : OpCode) where
  cache : Bytes
  operation : Operation op
  flags : Flags
  topology : Topology
  intelligence : Intelligence
  target : Target
  deadline : Instant
  patience : Nat

namespace Attempt

variable {op : OpCode}

def header (a : Attempt op) (id : UInt64) (version : Version) : RequestHeader where
  messageId := id
  version := version
  opCode := op.code
  cache := a.cache
  flags := a.flags
  intelligence := a.intelligence
  topologyId := a.topology.epoch

def frame (a : Attempt op) (id : UInt64) (version : Version) : Bytes :=
  (a.header id version).toBytes ++ a.operation.body

/-- What an attempt was doing when its deadline passed. -/
inductive Stage where
  | acquiring
  | writing
  | awaiting
  deriving DecidableEq, Repr

def Stage.text : Stage → String
  | acquiring => "acquiring a channel"
  | writing => "writing the request"
  | awaiting => "awaiting the response"

def overrun (a : Attempt op) (stage : Stage) : ClientError :=
  .timeout s!"{op.name} to {a.target.text} timed out while {stage.text}"

/-!
# Judging a response
-/

/-- The error that a response with an error status reports. A message that cannot
be read is left out. -/
def serverError (status : Status) (body : Bytes) : ClientError :=
  .server status.code
    (match Block.text.value body with
    | .ok text => text
    | .error _ => "")

/-- The outcome of a response whose topology, if any, has been dealt with. An
error means that the channel cannot be trusted any more. -/
def judge (a : Attempt op) (channel : Channel) (h : ResponseHeader) (body : Bytes) :
    Except ClientError (Outcome op.Reply) :=
  if h.status.isTransient then .ok (.retryConnectivity (serverError h.status body))
  else if h.status.isError then .ok (.failed (serverError h.status body))
  else if h.opCode ≠ op.responseCode then .error (.protocol (.responseOpCode h.opCode op))
  else
    match (a.operation.answer h.status channel.version channel.node).value body with
    | .ok reply => .ok (.completed reply)
    | .error e => if e.poisonsChannel then .error e else .ok (.failed e)

/-- Installs the topology that a response brings and judges the rest. -/
def settle (a : Attempt op) (channel : Channel) (h : ResponseHeader) (body : Bytes) :
    Exchange (Except ClientError (Outcome op.Reply)) :=
  match h.topology with
  | none => return a.judge channel h body
  | some u => do
      match ← Exchange.install a.cache u with
      | .error e => return .error e
      | .ok _ =>
          if op.reaction = .retry then return .ok .retryTopology
          else return a.judge channel h body

def interpret (a : Attempt op) (id : UInt64) (channel : Channel) (frame : Bytes) :
    Exchange (Except ClientError (Outcome op.Reply)) :=
  match (ResponseHeader.reader a.intelligence).run frame with
  | (.error e, _) => return .error e
  | (.ok h, body) =>
      if h.messageId = id then a.settle channel h body
      else return .error (.protocol (.strayResponse h.messageId id))

/-!
# The course of an attempt
-/

def recordSuccess (op : OpCode) (channel : Channel) : Exchange Unit := do
  Exchange.record (.duration op.name channel.node.text)
  Exchange.record (.success op.name channel.node.text)

def recordFailure (op : OpCode) (channel : Channel) (kind : String) : Exchange Unit := do
  Exchange.record (.duration op.name channel.node.text)
  Exchange.record (.failure op.name channel.node.text kind)

def recordOutcome (op : OpCode) (channel : Channel) : Outcome α → Exchange Unit
  | .completed _ => recordSuccess op channel
  | .retryTopology => recordFailure op channel "topology_changed"
  | .retryConnectivity e => recordFailure op channel e.kind
  | .failed e => recordFailure op channel e.kind

def late (a : Attempt op) (id : UInt64) (g : Guard) : LateResponse where
  guard := g
  cache := a.cache
  messageId := id
  intelligence := a.intelligence
  patience := a.patience

def conclude (a : Attempt op) (id : UInt64) (g : Guard) (frame : Bytes) :
    Exchange (Outcome op.Reply) := do
  match ← a.interpret id g.channel frame with
  | .ok outcome =>
      g.release
      recordOutcome op g.channel outcome
      Exchange.enter outcome.phase
      return outcome
  | .error e =>
      recordFailure op g.channel e.kind
      g.discard "malformed response"
      Exchange.enter .failed
      return .failed e

def receive (a : Attempt op) (id : UInt64) (g : Guard) : Exchange (Outcome op.Reply) := do
  match ← Exchange.read g (.upTo a.deadline) with
  | .late =>
      Exchange.enter .abandoned
      Exchange.record (.abandoned op.name)
      recordFailure op g.channel "timeout"
      Exchange.drain (a.late id g)
      return .failed (a.overrun .awaiting)
  | .ready (.error reason) =>
      Exchange.enter .retryTopology
      recordFailure op g.channel (ClientError.transport reason).kind
      g.discard "read failed"
      return .retryConnectivity (.transport reason)
  | .ready (.ok frame) => a.conclude id g.received frame

def send (a : Attempt op) (id : UInt64) (g : Guard) : Exchange (Outcome op.Reply) := do
  match ← Exchange.write g (a.frame id g.channel.version) a.deadline with
  | .late =>
      Exchange.enter .abandoned
      Exchange.record (.abandoned op.name)
      recordFailure op g.channel "timeout"
      g.discard "write timed out"
      return .failed (a.overrun .writing)
  | .ready (.error reason) =>
      Exchange.enter .retryTopology
      recordFailure op g.channel (ClientError.transport reason).kind
      g.discard "write failed"
      return .retryConnectivity (.transport reason)
  | .ready (.ok ()) =>
      Exchange.enter .sent
      Exchange.enter .awaitingResponse
      a.receive id g.sent

def run (a : Attempt op) : Exchange (Outcome op.Reply) := do
  let id ← Exchange.messageId
  match ← Exchange.acquire a.target a.deadline with
  | .late =>
      Exchange.enter .abandoned
      Exchange.record (.abandoned op.name)
      return .failed (a.overrun .acquiring)
  | .ready (.error e) =>
      if e.isRetriable then
        Exchange.enter .retryTopology
        return .retryConnectivity e
      else
        Exchange.enter .failed
        return .failed e
  | .ready (.ok channel) =>
      Exchange.enter .channelAcquired
      a.send id (.fresh channel)

end Attempt

/-!
# Late responses
-/

namespace LateResponse

/-- Gives back a channel on which a response has come after all. The topology of
the awaited response is installed; one that cannot be is ignored. -/
def take (r : LateResponse) (g : Guard) (frame : Bytes) : Exchange Unit :=
  match (ResponseHeader.reader r.intelligence).value frame with
  | .error _ => g.discard "malformed late response"
  | .ok h =>
      if h.messageId = r.messageId then
        match h.topology with
        | some u => do
            let _ ← Exchange.install r.cache u
            g.release
        | none => g.release
      else g.discard s!"late response for message {h.messageId} instead of {r.messageId}"

/-- Waits for the response once more, for a limited time. -/
def run (r : LateResponse) : Exchange Unit := do
  match ← Exchange.read r.guard (.within r.patience) with
  | .late => r.guard.discard "no late response"
  | .ready (.error _) => r.guard.discard "late read failed"
  | .ready (.ok frame) => r.take r.guard.received frame

end LateResponse
end GridClient
