/-!
# Protocol versions

A channel speaks one version of the protocol, agreed on when it is opened.
-/

namespace GridClient

inductive Version where
  | v25
  | v26
  | v27
  | v28
  | v29
  | v30
  | v31
  deriving DecidableEq, Repr

namespace Version

def all : List Version :=
  [v25, v26, v27, v28, v29, v30, v31]

/-- Ten times the major number plus the minor one. -/
def code : Version → UInt8
  | v25 => 25
  | v26 => 26
  | v27 => 27
  | v28 => 28
  | v29 => 29
  | v30 => 30
  | v31 => 31

def ofCode? (code : UInt8) : Option Version :=
  all.find? fun v => v.code == code

def text (v : Version) : String :=
  s!"{v.code.toNat / 10}.{v.code.toNat % 10}"

def ofText? (s : String) : Option Version :=
  all.find? fun v => v.text == s

/-- Requests name the media types of key and value from 2.8 on. -/
def hasMediaTypes (v : Version) : Bool :=
  28 ≤ v.code

/-- Answers to a ping list the server's capabilities from 3.0 on. -/
def hasPingCapabilities (v : Version) : Bool :=
  30 ≤ v.code

theorem mem_all (v : Version) : v ∈ all := by
  cases v <;> decide

theorem ofCode?_code (v : Version) : ofCode? v.code = some v := by
  cases v <;> decide

end Version
end GridClient
