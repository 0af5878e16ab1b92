import GridClient.Error

/-!
# Readers

A reader takes bytes off the front of a buffer. It yields a value or an error
and the bytes it has not taken, also when it fails: what was taken before the
failure stays taken.
-/

namespace GridClient

def Reader (α : Type) : Type :=
  Bytes → Except ClientError α × Bytes

namespace Reader

def run (r : Reader α) (buffer : Bytes) : Except ClientError α × Bytes :=
  r buffer

def value (r : Reader α) (buffer : Bytes) : Except ClientError α :=
  (r buffer).1

def ret (a : α) : Reader α :=
  fun buffer => (.ok a, buffer)

def fail (e : ClientError) : Reader α :=
  fun buffer => (.error e, buffer)

def andThen (r : Reader α) (next : α → Reader β) : Reader β :=
  fun buffer =>
    match r buffer with
    | (.ok a, rest) => next a rest
    | (.error e, rest) => (.error e, rest)

instance : Monad Reader where
  pure := ret
  bind := andThen

theorem bind_run_ok {r : Reader α} {buffer rest : Bytes} {a : α} (next : α → Reader β)
    (h : r buffer = (.ok a, rest)) : (r >>= next) buffer = next a rest := by
  simp [bind, andThen, h]

theorem bind_run_error {r : Reader α} {buffer rest : Bytes} {e : ClientError}
    (next : α → Reader β) (h : r buffer = (.error e, rest)) :
    (r >>= next) buffer = (.error e, rest) := by
  simp [bind, andThen, h]

def fault (f : ProtocolFault) : Reader α :=
  fail (.protocol f)

/-!
# Fixed-size fields
-/

def byte : Reader UInt8
  | [] => (.error (.protocol (.truncated "byte")), [])
  | b :: rest => (.ok b, rest)

/-- The next `n` bytes; nothing is taken when there are fewer. -/
def take (n : Nat) (field : String) : Reader Bytes :=
  fun buffer =>
    if (buffer.take n).length = n then (.ok (buffer.take n), buffer.drop n)
    else (.error (.protocol (.truncated field)), buffer)

theorem take_of_le {n : Nat} {buffer : Bytes} (field : String) (h : n ≤ buffer.length) :
    take n field buffer = (.ok (buffer.take n), buffer.drop n) := by
  simp [take, h]

theorem take_of_lt {n : Nat} {buffer : Bytes} (field : String) (h : buffer.length < n) :
    take n field buffer = (.error (.protocol (.truncated field)), buffer) := by
  have short : (buffer.take n).length ≠ n := by
    rw [List.length_take]
    omega
  rw [take, if_neg short]

def uint16 : Reader UInt16 := do
  let bytes ← take 2 "short"
  return UInt16.ofNat bytes.toNat

def int32 : Reader Int32 := do
  let bytes ← take 4 "int"
  return (UInt32.ofNat bytes.toNat).toInt32

def int64 : Reader Int64 := do
  let bytes ← take 8 "long"
  return (UInt64.ofNat bytes.toNat).toInt64

def uint64 : Reader UInt64 := do
  let bytes ← take 8 "long"
  return UInt64.ofNat bytes.toNat

/-!
# Repetition
-/

def many : Nat → Reader α → Reader (List α)
  | 0, _ => return []
  | n + 1, r => do
      let a ← r
      let as ← many n r
      return a :: as

/-- Reads an item for each number from `i` on, `n` in all. -/
def manyFrom (r : Nat → Reader α) : Nat → Nat → Reader (List α)
  | _, 0 => return []
  | i, n + 1 => do
      let a ← r i
      let as ← manyFrom r (i + 1) n
      return a :: as

/-- Reads items each announced by a byte other than zero, up to a zero byte. The
first argument bounds their number. -/
def markedUpTo : Nat → Reader α → Reader (List α)
  | 0, _ => fault (.truncated "byte")
  | n + 1, r => do
      let mark ← byte
      if mark = 0 then return []
      else
        let a ← r
        let as ← markedUpTo n r
        return a :: as

/-- Every mark is a byte of its own, so the buffer bounds the number of items. -/
def marked (r : Reader α) : Reader (List α) :=
  fun buffer => markedUpTo (buffer.length + 1) r buffer

/-- The place of an item does not matter to a reader that does not ask for it. -/
theorem many_eq_manyFrom (r : Reader α) (i n : Nat) : many n r = manyFrom (fun _ => r) i n := by
  induction n generalizing i with
  | zero => rfl
  | succ n ih => rw [many, manyFrom, ih (i + 1)]

end Reader
end GridClient
