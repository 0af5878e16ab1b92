import GridClient.Expiration
import GridClient.Wire.Block

/-!
# Transactions

A transaction's writes, sent to be validated. Each write says what the
transaction has read of its key before.
-/

namespace GridClient

structure Xid where
  format : Int32
  globalId : Bytes
  branch : Bytes
  deriving DecidableEq, Repr

def Xid.toBytes (x : Xid) : Bytes :=
  Varint.ofInt32 x.format ++ (Block.ofBytes x.globalId ++ Block.ofBytes x.branch)

structure Modification where
  key : Bytes
  value : Option Bytes
  versionRead : Option UInt64
  readAbsent : Bool
  expiration : Expiration
  deriving DecidableEq, Repr

namespace Modification

/-- Bit 0: the key was not read; bit 1: it was read as absent; bit 2: it is removed. -/
def control (m : Modification) : UInt8 :=
  (if m.versionRead.isNone && !m.readAbsent then 1 else 0)
    ||| (if m.readAbsent then 2 else 0)
    ||| (if m.value.isNone then 4 else 0)

def versionBytes (m : Modification) : Bytes :=
  match m.versionRead with
  | some v => if m.readAbsent then [] else Bytes.ofUInt64 v
  | none => []

def valueBytes (m : Modification) : Bytes :=
  match m.value with
  | some v => m.expiration.toBytes ++ Block.ofBytes v
  | none => []

def toBytes (m : Modification) : Bytes :=
  Block.ofBytes m.key ++ m.control :: (m.versionBytes ++ m.valueBytes)

end Modification

structure Transaction where
  xid : Xid
  onePhase : Bool
  recoverable : Bool
  timeout : Duration
  modifications : List Modification
  named : xid.globalId ≠ []

namespace Transaction

/-- A transaction has to have a global identifier. -/
def ofXid (xid : Xid) (onePhase recoverable : Bool) (timeout : Duration)
    (modifications : List Modification) : Except ClientError Transaction :=
  if h : xid.globalId = [] then
    .error (.invalidArgument "Transaction prepare requires a non-null xid")
  else
    .ok { xid, onePhase, recoverable, timeout, modifications, named := h }

def toBytes (t : Transaction) : Bytes :=
  t.xid.toBytes
    ++ t.onePhase.toUInt8 :: t.recoverable.toUInt8
    :: (Varint.ofUInt64 (UInt64.ofNat t.timeout.millis)
    ++ (Varint.ofLength t.modifications.length
    ++ (t.modifications.map Modification.toBytes).flatten))

end Transaction
end GridClient
