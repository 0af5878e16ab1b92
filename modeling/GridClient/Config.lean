import GridClient.Address
import GridClient.Protocol.Intelligence
import GridClient.Protocol.Version

/-!
# Configuration

The settings of a client. Times are in milliseconds.
-/

namespace GridClient

structure Config where
  servers : List String := ["127.0.0.1:11222"]
  version : Version := .v31
  intelligence : Intelligence := .hashDistributionAware
  forceReturnValues : Bool := false
  connectTimeout : Nat := 2000
  requestTimeout : Nat := 60000
  maxRetries : Nat := 10
  drainTimeout : Nat := 5000
  batchSize : UInt32 := 10000
  chunkSize : Nat := 8192
  deriving DecidableEq, Repr, Inhabited

def Config.initialServers (c : Config) : Except ClientError (List NodeAddress) :=
  c.servers.mapM NodeAddress.parse

end GridClient
