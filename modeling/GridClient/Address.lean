import GridClient.Error

/-!
# Node addresses

A host and a port, written with a colon between them. The host may itself hold
colons: the last one counts.
-/

namespace GridClient

structure NodeAddress where
  host : String
  port : UInt16
  deriving DecidableEq, Repr, Inhabited

namespace NodeAddress

def text (a : NodeAddress) : String :=
  s!"{a.host}:{a.port}"

/-- By host, then by port. -/
def before (a b : NodeAddress) : Bool :=
  a.host < b.host || (a.host == b.host && a.port ≤ b.port)

/-- The addresses in order, each once. -/
def sorted (addresses : List NodeAddress) : List NodeAddress :=
  addresses.eraseDups.mergeSort before

/-!
# Reading an address
-/

inductive Fault where
  | missingPort
  | emptyPort
  | notADigit
  | portTooLarge
  | emptyHost
  deriving DecidableEq, Repr

def Fault.message : Fault → String
  | missingPort => "missing port"
  | emptyPort => "cannot parse integer from empty string"
  | notADigit => "invalid digit found in string"
  | portTooLarge => "number too large to fit in target type"
  | emptyHost => "empty host"

def splitLast : List Char → Option (List Char × List Char)
  | [] => none
  | c :: rest =>
      match splitLast rest with
      | some (host, port) => some (c :: host, port)
      | none => if c = ':' then some ([], rest) else none

/-- Continues a port number with further digits. -/
def portFrom : Nat → List Char → Except Fault UInt16
  | n, [] => .ok (UInt16.ofNat n)
  | n, c :: rest =>
      if c.isDigit then
        let next := n * 10 + (c.toNat - '0'.toNat)
        if next < 65536 then portFrom next rest else .error .portTooLarge
      else .error .notADigit

/-- A port is a run of digits, with a plus sign before it or not. -/
def readPort : List Char → Except Fault UInt16
  | [] => .error .emptyPort
  | ['+'] => .error .notADigit
  | '+' :: digits => portFrom 0 digits
  | digits => portFrom 0 digits

/-- The port is looked at before the host. -/
def ofChars (text : List Char) : Except Fault NodeAddress :=
  match splitLast text with
  | none => .error .missingPort
  | some (host, port) =>
      match readPort port with
      | .error f => .error f
      | .ok p => if host = [] then .error .emptyHost else .ok ⟨String.ofList host, p⟩

def parse (text : String) : Except ClientError NodeAddress :=
  match ofChars text.toList with
  | .ok a => .ok a
  | .error f => .error (.config s!"Invalid address '{text}': {f.message}")

end NodeAddress
end GridClient
