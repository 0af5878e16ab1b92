import GridClient.Call.Request
import GridClient.Client

/-!
# Scripted clusters

Nodes that answer from a script, on a clock that only moves when told to. A node has
standing replies, for an opcode or for all, and scripted ones that are used up one after
another and set fields of the standing reply. Everything that happens to channels is
logged.
-/

namespace GridClient

/-- How a node treats a request: what it answers, and when. -/
structure Reply where
  body : Bytes := []
  status : UInt8 := 0
  opCode : Option UInt8 := none
  topology : Option TopologyUpdate := none
  raw : Option Bytes := none
  idOffset : UInt64 := 0
  delay : Nat := 0
  writeDelay : Nat := 0
  writeError : Option String := none
  readError : Option String := none

/-- A field of a reply as a script gives it. -/
inductive ReplyField where
  | body (b : Bytes)
  | status (code : UInt8)
  | opCode (code : Option UInt8)
  | topology (u : Option TopologyUpdate)
  | raw (frame : Option Bytes)
  | idOffset (n : UInt64)
  | delay (millis : Nat)
  | writeDelay (millis : Nat)
  | writeError (reason : Option String)
  | readError (reason : Option String)

namespace Reply

def set (r : Reply) : ReplyField → Reply
  | .body b => { r with body := b }
  | .status code => { r with status := code }
  | .opCode code => { r with opCode := code }
  | .topology u => { r with topology := u }
  | .raw frame => { r with raw := frame }
  | .idOffset n => { r with idOffset := n }
  | .delay millis => { r with delay := millis }
  | .writeDelay millis => { r with writeDelay := millis }
  | .writeError reason => { r with writeError := reason }
  | .readError reason => { r with readError := reason }

def ofFields (fields : List ReplyField) : Reply :=
  fields.foldl set {}

/-- What a scripted reply makes of the standing one. Its fields replace those of the
standing reply, or of the plain reply if there is none. Where nothing is standing and no
field is given there is no reply. -/
def amend? (standing : Option Reply) (fields : List ReplyField) : Option Reply :=
  fields.foldl (fun r field => some ((r.getD {}).set field)) standing

/-- The opcode of the answer to a request, unless the script names another. -/
def usualOpCode (request : UInt8) (status : Status) : UInt8 :=
  if status.isError then errorResponseCode else request + 1

/-- The frame, or the error, that answers a request. -/
def response (r : Reply) (request : RequestHeader) : Except String Bytes :=
  match r.readError, r.raw with
  | some reason, _ => .error reason
  | none, some frame => .ok frame
  | none, none =>
      let status : Status := ⟨r.status⟩
      let header : ResponseHeader :=
        { messageId := request.messageId + r.idOffset
          opCode := r.opCode.getD (usualOpCode request.opCode status)
          status
          topology := r.topology }
      .ok (header.toBytes request.intelligence ++ r.body)

end Reply

/-- How long it takes to open a channel, and the error if it cannot be opened. -/
structure Opening where
  delay : Nat := 0
  error : Option ClientError := none

structure Node where
  address : NodeAddress
  version : Version := .v31
  down : Bool := false
  standing : Table UInt8 Reply := []
  fallback : Option Reply := none
  replies : List (List ReplyField) := []
  openings : List Opening := []

/-- The next reply to a request with the given opcode, and the node after it. -/
def Node.reply (n : Node) (opCode : UInt8) : Option Reply × Node :=
  let standing := (n.standing.get? opCode) <|> n.fallback
  match n.replies with
  | fields :: rest => (Reply.amend? standing fields, { n with replies := rest })
  | [] => (standing, n)

inductive Event where
  | acquired (target : Target) (channel : Channel)
  | refused (target : Target) (error : ClientError)
  | written (channel : Channel) (header : RequestHeader) (body : Bytes)
  | returned (channel : Channel) (clean : Bool)

structure Logged where
  time : Instant
  event : Event

/-- Background work that a call leaves behind. -/
inductive Errand where
  | drain (r : LateResponse)
  | farewell (r : Request .iterationEnd)

structure Cluster where
  client : Client
  nodes : List Node := []
  clock : Instant := 0
  opened : Nat := 0
  waits : Nat := 0
  responses : Table Nat (List (Instant × Except String Bytes)) := []
  log : List Logged := []
  errands : List Errand := []

namespace Cluster

def logged (c : Cluster) (e : Event) : Cluster :=
  { c with log := ⟨c.clock, e⟩ :: c.log }

def node? (c : Cluster) (a : NodeAddress) : Option Node :=
  c.nodes.find? fun n => n.address == a

def setNode (c : Cluster) (node : Node) : Cluster :=
  { c with nodes := c.nodes.map fun n => if n.address = node.address then node else n }

/-- No sleep is longer than thirty years of 365 days. -/
def longestSleep : Nat :=
  946080000000

/-- The end of a sleep that begins now. To open a channel and to write take a sleep;
responses and deadlines have instants of their own. -/
def after (c : Cluster) (millis : Nat) : Instant :=
  c.clock + min millis longestSleep

/-- The node to which a channel to a target would be opened. -/
def locate (c : Cluster) (target : Target) : Except ClientError Node :=
  match target with
  | .any =>
      match c.nodes.find? fun n => !n.down with
      | some n => .ok n
      | none => .error (.connection "no live servers")
  | .address a =>
      match c.node? a with
      | none => .error (.connection s!"unknown node {a.text}")
      | some n => if n.down then .error (.connection s!"connection refused by {a.text}") else .ok n

/-!
# Waits
-/

/-- Something that is waited for: when the wait ends, and how. -/
structure Wait (α : Type) where
  ends : Instant
  finish : Cluster → α × Cluster

/-- The end of a wait for something that is ready at an instant. What is ready when
the limit is reached, or at once, is not late. -/
def limited {α : Type} (c : Cluster) (ready limit : Instant) (finish : Cluster → α × Cluster) :
    Wait (Timely α) :=
  if ready ≤ max c.clock limit then
    { ends := ready
      finish := fun c =>
        let (a, c) := finish c
        (.ready a, c) }
  else { ends := max c.clock limit, finish := fun c => (.late, c) }

def refuse (target : Target) (e : ClientError) (c : Cluster) :
    Except ClientError Channel × Cluster :=
  (.error e, c.logged (.refused target e))

/-- Opens a channel to a node, or fails as scripted. The version is agreed on when the
channel is open, so it is the one that the node has by then. -/
def openTo (target : Target) (n : Node) (o : Opening) (c : Cluster) :
    Except ClientError Channel × Cluster :=
  match o.error with
  | some e => refuse target e c
  | none =>
      let version := ((c.node? n.address).getD n).version
      let channel : Channel := { id := c.opened + 1, node := n.address, version }
      (.ok channel, { c with opened := c.opened + 1 }.logged (.acquired target channel))

def acquire (c : Cluster) (target : Target) (deadline : Instant) :
    Wait (Timely (Except ClientError Channel)) × Cluster :=
  match c.locate target with
  | .error e => (c.limited c.clock deadline (refuse target e), c)
  | .ok n =>
      let o := n.openings.head?.getD {}
      (c.limited (c.after o.delay) deadline (openTo target n o),
        c.setNode { n with openings := n.openings.tail })

/-- Ends a write: the response, if there is one, is on its way. -/
def deliver (channel : Channel) (request : RequestHeader) (reply : Option Reply) (c : Cluster) :
    Except String Unit × Cluster :=
  match reply with
  | none => (.ok (), c)
  | some r =>
      match r.writeError with
      | some reason => (.error reason, c)
      | none =>
          let arrival := (c.clock + r.delay, r.response request)
          (.ok (),
            { c with
              responses := Table.alter c.responses channel.id fun q => q.getD [] ++ [arrival] })

def write (c : Cluster) (channel : Channel) (frame : Bytes) (deadline : Instant) :
    Wait (Timely (Except String Unit)) × Cluster :=
  match RequestHeader.reader.run frame with
  | (.error e, _) => (c.limited c.clock deadline fun c => (.error e.message, c), c)
  | (.ok request, body) =>
      let c := c.logged (.written channel request body)
      match c.node? channel.node with
      | none => (c.limited c.clock deadline fun c => (.ok (), c), c)
      | some n =>
          let (reply, n) := n.reply request.opCode
          let delay := (reply.map Reply.writeDelay).getD 0
          (c.limited (c.after delay) deadline (deliver channel request reply), c.setNode n)

/-- Takes the first response that is queued on a channel. -/
def receive (channel : Channel) (c : Cluster) : Except String Bytes × Cluster :=
  match Table.get? c.responses channel.id with
  | some ((_, response) :: rest) =>
      (response, { c with responses := Table.insert c.responses channel.id rest })
  | _ => (.error "no response pending", c)

def read (c : Cluster) (channel : Channel) (limit : Limit) : Wait (Timely (Except String Bytes)) :=
  let arrival :=
    match Table.get? c.responses channel.id with
    | some ((arrival, _) :: _) => arrival
    | _ => c.clock
  let deadline :=
    match limit with
    | .upTo deadline => deadline
    | .within millis => c.clock + millis
  c.limited (max c.clock arrival) deadline (receive channel)

def atOnce {α : Type} (c : Cluster) (a : α) : Wait α × Cluster :=
  ({ ends := c.clock, finish := fun c => (a, c) }, c)

def serve (c : Cluster) : (q : Exchange.Ask) → Wait (Exchange.Answer q) × Cluster
  | .messageId =>
      let (id, client) := c.client.number
      { c with client }.atOnce id
  | .enter _ => c.atOnce ()
  | .record m => { c with client := c.client.record m }.atOnce ()
  | .acquire target deadline => c.acquire target deadline
  | .write g frame deadline => c.write g.channel frame deadline
  | .read g limit => (c.read g.channel limit, c)
  | .giveBack channel clean => (c.logged (.returned channel clean)).atOnce ()
  | .install cache u =>
      let (r, client) := c.client.install cache u
      { c with client }.atOnce r
  | .drain r => { c with errands := c.errands ++ [Errand.drain r] }.atOnce ()

end Cluster
end GridClient
