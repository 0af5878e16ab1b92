import GridClient.Config
import GridClient.Toml.Syntax

/-!
# Configuration from a settings text

Every field has a setting of its own at the top of the text. A setting that is left
out keeps its default, and settings that are not known are passed over.
-/

namespace GridClient
namespace Toml.Value

def text? : Value → Option String
  | text s => some s
  | _ => none

def texts? : Value → Option (List String)
  | array items => items.mapM text?
  | _ => none

def boolean? : Value → Option Bool
  | boolean b => some b
  | _ => none

def natural? : Value → Option Nat
  | integer n => if 0 ≤ n then some n.toNat else none
  | _ => none

def word32? (v : Value) : Option UInt32 := do
  let n ← v.natural?
  if n < UInt32.size then some (UInt32.ofNat n) else none

def isEmpty : Value → Bool
  | array [] | table _ [] => true
  | _ => false

/-- A choice is a text, or a table with an empty field of that name. -/
def choice? (v : Value) : Option String :=
  match v with
  | text s => some s
  | table _ [(name, inner)] => if inner.isEmpty then some name else none
  | _ => none

end Toml.Value

namespace Config

open Toml

/-- The setting of a name: its default if it is left out. -/
def setting (fields : Fields) (name : String) (read : Value → Option α) (usual : α) :
    Except ClientError α :=
  match Table.get? fields name with
  | none => .ok usual
  | some v =>
      match read v with
      | some a => .ok a
      | none => .error (.config s!"invalid value for '{name}'")

def ofFields (fields : Fields) : Except ClientError Config := do
  let usual : Config := {}
  let version ← setting fields "protocol_version"
    (fun v => v.choice?.bind Version.ofText?) usual.version
  let intelligence ← setting fields "client_intelligence"
    (fun v => v.choice?.bind Intelligence.ofName?) usual.intelligence
  return {
    servers := ← setting fields "servers" Value.texts? usual.servers
    version
    intelligence
    forceReturnValues :=
      ← setting fields "force_return_values" Value.boolean? usual.forceReturnValues
    connectTimeout := ← setting fields "connect_timeout_ms" Value.natural? usual.connectTimeout
    requestTimeout := ← setting fields "request_timeout_ms" Value.natural? usual.requestTimeout
    maxRetries := ← setting fields "max_retries" Value.natural? usual.maxRetries
    drainTimeout := ← setting fields "drain_timeout_ms" Value.natural? usual.drainTimeout
    batchSize := ← setting fields "iteration_batch_size" Value.word32? usual.batchSize
    chunkSize := ← setting fields "stream_chunk_size" Value.natural? usual.chunkSize }

def parse (text : String) : Except ClientError Config :=
  match Toml.parse? text with
  | some fields => ofFields fields
  | none => .error (.config "not a settings text")

end Config
end GridClient
