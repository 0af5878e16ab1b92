import GridClient.Bytes

/-!
# Opcodes

The operations a server understands. A request carries an odd opcode and the
answer to it carries the next number.
-/

namespace GridClient

inductive OpCode where
  | put
  | get
  | putIfAbsent
  | replace
  | replaceIfUnmodified
  | remove
  | removeIfUnmodified
  | containsKey
  | clear
  | stats
  | ping
  | getWithMetadata
  | bulkGetKeys
  | authMechList
  | auth
  | addClientListener
  | removeClientListener
  | size
  | exec
  | putAll
  | getAll
  | iterationStart
  | iterationNext
  | iterationEnd
  | getStream
  | putStream
  | prepareTransaction
  deriving DecidableEq, Repr

namespace OpCode

def code : OpCode → UInt8
  | put => 0x01
  | get => 0x03
  | putIfAbsent => 0x05
  | replace => 0x07
  | replaceIfUnmodified => 0x09
  | remove => 0x0B
  | removeIfUnmodified => 0x0D
  | containsKey => 0x0F
  | clear => 0x13
  | stats => 0x15
  | ping => 0x17
  | getWithMetadata => 0x1B
  | bulkGetKeys => 0x1D
  | authMechList => 0x21
  | auth => 0x23
  | addClientListener => 0x25
  | removeClientListener => 0x27
  | size => 0x29
  | exec => 0x2B
  | putAll => 0x2D
  | getAll => 0x2F
  | iterationStart => 0x31
  | iterationNext => 0x33
  | iterationEnd => 0x35
  | getStream => 0x37
  | putStream => 0x39
  | prepareTransaction => 0x3B

def responseCode (op : OpCode) : UInt8 :=
  op.code + 1

def all : List OpCode :=
  [put, get, putIfAbsent, replace, replaceIfUnmodified, remove, removeIfUnmodified,
    containsKey, clear, stats, ping, getWithMetadata, bulkGetKeys, authMechList, auth,
    addClientListener, removeClientListener, size, exec, putAll, getAll, iterationStart,
    iterationNext, iterationEnd, getStream, putStream, prepareTransaction]

def ofCode? (code : UInt8) : Option OpCode :=
  all.find? fun op => op.code == code

/-- The name under which an operation appears in messages and metrics. -/
def name : OpCode → String
  | put => "put"
  | get => "get"
  | putIfAbsent => "put_if_absent"
  | replace => "replace"
  | replaceIfUnmodified => "replace_if_unmodified"
  | remove => "remove"
  | removeIfUnmodified => "remove_if_unmodified"
  | containsKey => "contains_key"
  | clear => "clear"
  | stats => "stats"
  | ping => "ping"
  | getWithMetadata => "get_with_metadata"
  | bulkGetKeys => "bulk_get_keys"
  | authMechList => "auth_mech_list"
  | auth => "auth"
  | addClientListener => "add_client_listener"
  | removeClientListener => "remove_client_listener"
  | size => "size"
  | exec => "exec"
  | putAll => "put_all"
  | getAll => "get_all"
  | iterationStart => "iteration_start"
  | iterationNext => "iteration_next"
  | iterationEnd => "iteration_end"
  | getStream => "get_stream"
  | putStream => "put_stream"
  | prepareTransaction => "prepare_transaction"

/-- The name in capitalised words, as descriptions of requests show it. -/
def title : OpCode → String
  | put => "Put"
  | get => "Get"
  | putIfAbsent => "PutIfAbsent"
  | replace => "Replace"
  | replaceIfUnmodified => "ReplaceIfUnmodified"
  | remove => "Remove"
  | removeIfUnmodified => "RemoveIfUnmodified"
  | containsKey => "ContainsKey"
  | clear => "Clear"
  | stats => "Stats"
  | ping => "Ping"
  | getWithMetadata => "GetWithMetadata"
  | bulkGetKeys => "BulkGetKeys"
  | authMechList => "AuthMechList"
  | auth => "Auth"
  | addClientListener => "AddClientListener"
  | removeClientListener => "RemoveClientListener"
  | size => "Size"
  | exec => "Exec"
  | putAll => "PutAll"
  | getAll => "GetAll"
  | iterationStart => "IterationStart"
  | iterationNext => "IterationNext"
  | iterationEnd => "IterationEnd"
  | getStream => "GetStream"
  | putStream => "PutStream"
  | prepareTransaction => "PrepareTransaction"

theorem mem_all (op : OpCode) : op ∈ all := by
  cases op <;> decide

theorem ofCode?_code (op : OpCode) : ofCode? op.code = some op := by
  cases op <;> decide

end OpCode

/-- The opcode of an answer that reports an error. -/
def errorResponseCode : UInt8 :=
  0x50

end GridClient
