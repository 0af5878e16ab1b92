import GridClient.Protocol.OpCode
import GridClient.Text.Utf8

/-!
# Errors

What can go wrong in a call, by cause. Each error has a kind, under which metrics
count it, and a message. Two predicates drive the retry logic: whether another
channel may do better, and whether the channel on which the error arose can still
be trusted.
-/

namespace GridClient

/-- Why bytes from a peer are not what the protocol promises. -/
inductive ProtocolFault where
  | truncated (field : String)
  | longVarint
  | wideVarint (value : UInt64)
  | invalidText (fault : Utf8.Fault)
  | unknownTimeUnit (unit : UInt8)
  | requestMagic (found : UInt8)
  | responseMagic (found : UInt8)
  | unknownIntelligence (code : UInt8)
  | topologyMarker (found : UInt8)
  | unknownOwner (segment : Nat) (server : UInt32)
  | unknownServer (index : UInt32)
  | noSegments
  | strayResponse (found awaited : UInt64)
  | responseOpCode (found : UInt8) (op : OpCode)
  | unexpectedStatus (found : UInt8) (op : OpCode)
  | reported (text : String)
  deriving DecidableEq, Repr

def ProtocolFault.message : ProtocolFault → String
  | truncated field => s!"Truncated frame while reading {field}"
  | longVarint => "vLong longer than 10 bytes"
  | wideVarint value => s!"vInt overflow: {value}"
  | invalidText fault => s!"Invalid UTF-8 string: {fault.message}"
  | unknownTimeUnit unit => s!"Unknown time unit {codeText unit}"
  | requestMagic found => s!"Invalid request magic {codeText found}"
  | responseMagic found => s!"Invalid response magic {codeText found}"
  | unknownIntelligence code => s!"Unknown client intelligence {code}"
  | topologyMarker found => s!"Invalid topology change marker {found}"
  | unknownOwner segment server =>
      s!"Segment {segment} references unknown server index {server}"
  | unknownServer index => s!"Unknown server index {index}"
  | noSegments => "Segment map must have at least one segment"
  | strayResponse found awaited => s!"Response for message {found} while awaiting {awaited}"
  | responseOpCode found op =>
      s!"Unexpected response opcode {codeText found} for {op.name}"
  | unexpectedStatus found op => s!"Unexpected status {codeText found} for {op.name}"
  | reported text => text

inductive ClientError where
  | transport (reason : String)
  | connection (reason : String)
  | timeout (reason : String)
  | protocol (fault : ProtocolFault)
  | unsupportedVersion (code : UInt8)
  | server (status : UInt8) (reason : String)
  | invalidIteration (id : String)
  | invalidArgument (reason : String)
  | topologyUnstable (attempts : Nat) (last : String)
  | config (reason : String)
  | internal (reason : String)
  deriving DecidableEq, Repr

namespace ClientError

def kind : ClientError → String
  | transport _ => "transport"
  | connection _ => "connection"
  | timeout _ => "timeout"
  | protocol _ => "protocol"
  | unsupportedVersion _ => "unsupported_version"
  | server _ _ => "server"
  | invalidIteration _ => "invalid_iteration"
  | invalidArgument _ => "invalid_argument"
  | topologyUnstable _ _ => "topology_unstable"
  | config _ => "config"
  | internal _ => "internal"

def message : ClientError → String
  | transport reason => s!"Transport error: {reason}"
  | connection reason => s!"Connection error: {reason}"
  | timeout reason => s!"Timeout: {reason}"
  | protocol fault => s!"Protocol error: {fault.message}"
  | unsupportedVersion code => s!"Unsupported protocol version: {code}"
  | server status reason => s!"Server error (status {codeText status}): {reason}"
  | invalidIteration id => s!"Invalid iteration: {id}"
  | invalidArgument reason => s!"Invalid argument: {reason}"
  | topologyUnstable attempts last =>
      s!"Topology did not stabilize after {attempts} attempts: {last}"
  | config reason => s!"Configuration error: {reason}"
  | internal reason => s!"Internal error: {reason}"

/-- The node could not be reached; another one may answer. -/
def isRetriable : ClientError → Bool
  | transport _ | connection _ => true
  | _ => false

/-- The channel's byte stream can no longer be trusted. -/
def poisonsChannel : ClientError → Bool
  | transport _ | protocol _ | unsupportedVersion _ => true
  | _ => false

end ClientError
end GridClient
