/-!
# Client intelligence

How much of the cluster's layout a client asks the servers to tell it.
-/

namespace GridClient

inductive Intelligence where
  | basic
  | topologyAware
  | hashDistributionAware
  deriving DecidableEq, Repr

namespace Intelligence

def code : Intelligence → UInt8
  | basic => 1
  | topologyAware => 2
  | hashDistributionAware => 3

def ofCode? : UInt8 → Option Intelligence
  | 1 => some basic
  | 2 => some topologyAware
  | 3 => some hashDistributionAware
  | _ => none

def title : Intelligence → String
  | basic => "Basic"
  | topologyAware => "TopologyAware"
  | hashDistributionAware => "HashDistributionAware"

def all : List Intelligence :=
  [basic, topologyAware, hashDistributionAware]

def name : Intelligence → String
  | basic => "basic"
  | topologyAware => "topology_aware"
  | hashDistributionAware => "hash_distribution_aware"

def ofName? (s : String) : Option Intelligence :=
  all.find? fun i => i.name == s

theorem ofCode?_code (i : Intelligence) : ofCode? i.code = some i := by
  cases i <;> rfl

end Intelligence
end GridClient
