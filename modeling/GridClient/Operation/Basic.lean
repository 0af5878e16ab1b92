import GridClient.Operation.Chunked
import GridClient.Operation.Entry
import GridClient.Operation.Listener
import GridClient.Operation.Transaction
import GridClient.Protocol.Status
import GridClient.Protocol.Version
import GridClient.SegmentSet
import GridClient.Table

/-!
# Operations

What a client can ask of a server, one form for each opcode, with the type of the
answer. An operation says to which node it goes, and whether an answer that
brings a new topology is still good.
-/

namespace GridClient

/-- What a server says about itself when it is pinged. -/
structure PingReply where
  serverVersion : Option UInt8
  supportedOps : List UInt16
  deriving DecidableEq, Repr

structure AuthResult where
  complete : Bool
  challenge : Bytes
  deriving DecidableEq, Repr

abbrev OpCode.Reply : OpCode → Type
  | .put => Option Bytes
  | .get => Option Bytes
  | .putIfAbsent => WriteResult
  | .replace => WriteResult
  | .replaceIfUnmodified => VersionedResult
  | .remove => WriteResult
  | .removeIfUnmodified => VersionedResult
  | .containsKey => Bool
  | .clear => Unit
  | .stats => Table String String
  | .ping => PingReply
  | .getWithMetadata => Option MetadataValue
  | .bulkGetKeys => List Bytes
  | .authMechList => List String
  | .auth => AuthResult
  | .addClientListener => Registration
  | .removeClientListener => Unit
  | .size => UInt64
  | .exec => Bytes
  | .putAll => Unit
  | .getAll => Table Bytes Bytes
  | .iterationStart => Cursor
  | .iterationNext => Page
  | .iterationEnd => Bool
  | .getStream => Option MetadataValue
  | .putStream => Bool
  | .prepareTransaction => Int32

inductive Operation : OpCode → Type where
  | put (key value : Bytes) (expiration : Expiration) : Operation .put
  | get (key : Bytes) : Operation .get
  | putIfAbsent (key value : Bytes) (expiration : Expiration) : Operation .putIfAbsent
  | replace (key value : Bytes) (expiration : Expiration) : Operation .replace
  | replaceIfUnmodified (key value : Bytes) (version : UInt64) (expiration : Expiration) :
      Operation .replaceIfUnmodified
  | remove (key : Bytes) : Operation .remove
  | removeIfUnmodified (key : Bytes) (version : UInt64) : Operation .removeIfUnmodified
  | containsKey (key : Bytes) : Operation .containsKey
  | clear : Operation .clear
  | stats : Operation .stats
  | ping (target : Option NodeAddress) : Operation .ping
  | getWithMetadata (key : Bytes) : Operation .getWithMetadata
  | bulkGetKeys (scope : UInt32) : Operation .bulkGetKeys
  | authMechList (node : NodeAddress) : Operation .authMechList
  | auth (node : NodeAddress) (mechanism : String) (response : Bytes) : Operation .auth
  | addClientListener (id : Bytes) (options : ListenerOptions) : Operation .addClientListener
  | removeClientListener (registration : Registration) : Operation .removeClientListener
  | size : Operation .size
  | exec (task : String) (params : List (String × Bytes)) (key : Option Bytes) : Operation .exec
  | putAll (entries : List (Bytes × Bytes)) (expiration : Expiration) : Operation .putAll
  | getAll (keys : List Bytes) : Operation .getAll
  | iterationStart (segments : Option SegmentSet) (filter : Option NamedFactory) (batch : UInt32)
      (metadata : Bool) (target : Option NodeAddress) : Operation .iterationStart
  | iterationNext (cursor : Cursor) : Operation .iterationNext
  | iterationEnd (cursor : Cursor) : Operation .iterationEnd
  | getStream (key : Bytes) (offset : UInt32) : Operation .getStream
  | putStream (key value : Bytes) (condition : WriteCondition) (expiration : Expiration)
      (chunk : Nat) : Operation .putStream
  | prepareTransaction (transaction : Transaction) : Operation .prepareTransaction

/-!
# Routing
-/

inductive Routing where
  | key (key : Bytes)
  | address (node : NodeAddress)
  | any
  deriving DecidableEq, Repr

def Routing.ofTarget : Option NodeAddress → Routing
  | some node => address node
  | none => any

def Routing.ofKey : Option Bytes → Routing
  | some k => key k
  | none => any

namespace Operation

/-- Operations on a key go to its owner; those on a cursor, a listener or a
handshake go to the node that holds it; the others go to any node. -/
def routing : {op : OpCode} → Operation op → Routing
  | _, put k _ _ => .key k
  | _, get k => .key k
  | _, putIfAbsent k _ _ => .key k
  | _, replace k _ _ => .key k
  | _, replaceIfUnmodified k _ _ _ => .key k
  | _, remove k => .key k
  | _, removeIfUnmodified k _ => .key k
  | _, containsKey k => .key k
  | _, clear => .any
  | _, stats => .any
  | _, ping target => .ofTarget target
  | _, getWithMetadata k => .key k
  | _, bulkGetKeys _ => .any
  | _, authMechList node => .address node
  | _, auth node _ _ => .address node
  | _, addClientListener _ _ => .any
  | _, removeClientListener r => .address r.address
  | _, size => .any
  | _, exec _ _ k => .ofKey k
  | _, putAll _ _ => .any
  | _, getAll _ => .any
  | _, iterationStart _ _ _ _ target => .ofTarget target
  | _, iterationNext c => .address c.address
  | _, iterationEnd c => .address c.address
  | _, getStream k _ => .key k
  | _, putStream k _ _ _ _ => .key k
  | _, prepareTransaction _ => .any

end Operation

/-!
# Answers that bring a topology
-/

/-- What becomes of an answer that brings a new topology. -/
inductive TopologyReaction where
  | retry
  | complete
  deriving DecidableEq, Repr

def TopologyReaction.title : TopologyReaction → String
  | retry => "Retry"
  | complete => "Complete"

/-- Reads, bulk operations and pages are asked for again under the new topology;
all other answers stand. -/
def OpCode.reaction : OpCode → TopologyReaction
  | get | getWithMetadata | containsKey | getStream | getAll | putAll | iterationNext => .retry
  | _ => .complete

end GridClient
