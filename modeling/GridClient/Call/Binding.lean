import GridClient.Call.Bulk
import GridClient.CallContext
import GridClient.Scan.Paging

/-!
# Binding operations

How a caller's wishes become requests: the flags that were set for the next
request are taken from the call's context and united with those that the
settings and the operation imply, and the request is bound to the topology that
is current at that moment.
-/

namespace GridClient
namespace Operation

/-- Writes that set an expiration tell the server where to use its defaults. -/
def impliedFlags : {op : OpCode} → Operation op → Flags
  | _, put _ _ e => e.impliedFlags
  | _, putIfAbsent _ _ e => e.impliedFlags
  | _, replace _ _ e => e.impliedFlags
  | _, replaceIfUnmodified _ _ _ e => e.impliedFlags
  | _, putAll _ e => e.impliedFlags
  | _, _ => .none

/-- Administrative tasks run on any node; their names start with two at signs. -/
def admin (task : String) (params : List (String × Bytes)) : Operation .exec :=
  .exec (if task.startsWith "@@" then task else "@@" ++ task) params none

end Operation

namespace RemoteCache

/-- The flags of the next request of a context. -/
def resolveFlags (cache : RemoteCache) (c : CallContext) : Flags × CallContext :=
  let (flags, c) := c.take
  (flags.getD .none ||| Flags.forceReturnValue.onlyIf cache.config.forceReturnValues, c)

def request {op : OpCode} (cache : RemoteCache) (t : Topology) (c : CallContext)
    (operation : Operation op) : Request op × CallContext :=
  let (flags, c) := cache.resolveFlags c
  ({ cache, operation, flags := flags ||| operation.impliedFlags, topology := t }, c)

def getAll (cache : RemoteCache) (t : Topology) (c : CallContext) (keys : List Bytes) :
    BulkRequest .getAll Bytes × CallContext :=
  let (flags, c) := cache.resolveFlags c
  ({ cache, batching := .getAll, items := keys, flags, topology := t }, c)

def putAll (cache : RemoteCache) (t : Topology) (c : CallContext) (entries : List (Bytes × Bytes))
    (e : Expiration) : BulkRequest .putAll (Bytes × Bytes) × CallContext :=
  let (flags, c) := cache.resolveFlags c
  ({ cache, batching := .putAll e, items := entries, flags := flags ||| e.impliedFlags,
     topology := t }, c)

def scan (cache : RemoteCache) (c : CallContext) (options : ScanOptions) : Scan × CallContext :=
  let (flags, c) := cache.resolveFlags c
  ({ cache, flags, options }, c)

/-- A write in chunks of the configured size. -/
def putStream (cache : RemoteCache) (key value : Bytes) (condition : WriteCondition)
    (e : Expiration) : Operation .putStream :=
  .putStream key value condition e cache.config.chunkSize

def describe (cache : RemoteCache) (t : Topology) : String :=
  "OperationsFactory \x7b cache: " ++ Quoted.text cache.name ++ ", topology_id: "
    ++ toString t.epoch.toInt ++ " \x7d"

end RemoteCache

/-- The request that ends the iteration of a scan that is dropped. -/
def Scan.farewell (s : Scan) (t : Topology) : Option (Request .iterationEnd) :=
  s.active.map fun a =>
    { cache := s.cache, operation := .iterationEnd a.cursor, flags := s.flags, topology := t }

end GridClient
