import GridClient.Bytes
import GridClient.Config
import GridClient.Topology.Snapshot

/-!
# Remote caches

A cache as one client sees it: its name and the client's settings.
-/

namespace GridClient

structure RemoteCache where
  name : String
  config : Config
  intelligence : Intelligence

namespace RemoteCache

def key (c : RemoteCache) : Bytes :=
  Bytes.ofText c.name

/-- How many attempts a call makes under a topology: one for each server and one
more, but no more than configured, and at least one. -/
def retryLimit (c : RemoteCache) (t : Topology) : Nat :=
  max 1 (min c.config.maxRetries (t.servers.length + 1))

end RemoteCache
end GridClient
