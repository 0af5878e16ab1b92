import GridClient.Operation.Body
import GridClient.Proofs.Operation.Factories
import GridClient.Proofs.Operation.Layout

/-!
# Transactions read back

A write of a transaction has three fields that may be absent: the version that was read, the
expiration and the value. The only sign of them is the byte of control, which is put together from
the write in one place, while the fields are put out in another. A server that goes by the byte
alone never loses step, and gets to know all that the transaction says of its keys.
-/

namespace GridClient

open Reader

namespace Reader

variable {α : Type}

/-- Something else has told whether there is anything to read. -/
def onlyIf (present : Bool) (r : Reader α) : Reader (Option α) :=
  if present then do
    let a ← r
    return some a
  else
    return none

theorem reads_onlyIf {enc : α → Bytes} {r : Reader α} {a : Option α}
    (h : ∀ b ∈ a, r.Reads (enc b) b) : (onlyIf a.isSome r).Reads (a.elim [] enc) a := by
  cases a with
  | none => exact reads_pure none
  | some b => exact (h b rfl).bind_pure some

end Reader

namespace Xid

def reader : Reader Xid := do
  let format ← Varint.int32
  let globalId ← Block.bytes
  let branch ← Block.bytes
  return { format, globalId, branch }

def Fits (x : Xid) : Prop :=
  x.globalId.length < UInt32.size ∧ x.branch.length < UInt32.size

theorem reads_reader {x : Xid} (h : x.Fits) : reader.Reads x.toBytes x :=
  (Varint.reads_int32 x.format).bind
    ((Block.reads_bytes h.1).bind ((Block.reads_bytes h.2).bind_pure _))

end Xid

/-!
# Writes
-/

namespace Modification

/-- A write as a server gets to know it. There is no version of a key that was absent, and nothing
expires that is removed. -/
structure Told where
  key : Bytes
  readAbsent : Bool
  versionRead : Option UInt64
  written : Option (Expiration × Bytes)
  deriving DecidableEq

def told (m : Modification) : Told where
  key := m.key
  readAbsent := m.readAbsent
  versionRead := if m.readAbsent then none else m.versionRead
  written := m.value.map fun value => (m.expiration, value)

/-!
The bits of control, as a server tests them.
-/

def notRead (control : UInt8) : Bool :=
  control &&& 1 != 0

def nonExisting (control : UInt8) : Bool :=
  control &&& 2 != 0

def removes (control : UInt8) : Bool :=
  control &&& 4 != 0

def reader : Reader Told := do
  let key ← Block.bytes
  let control ← Reader.byte
  let versionRead ← Reader.onlyIf (!notRead control && !nonExisting control) Reader.uint64
  let written ← Reader.onlyIf (!removes control) (Answer.pairOf Expiration.reader Block.bytes)
  return { key, readAbsent := nonExisting control, versionRead, written }

/-- Every bit is found again beside the two others. -/
theorem bits_apart (a b c : Bool) :
    let control : UInt8 := (if a then 1 else 0) ||| (if b then 2 else 0) ||| (if c then 4 else 0)
    notRead control = a ∧ nonExisting control = b ∧ removes control = c := by
  cases a <;> cases b <;> cases c <;> decide

theorem nonExisting_control (m : Modification) : nonExisting m.control = m.told.readAbsent :=
  (bits_apart _ m.readAbsent _).2.1

/-- The byte asks for a version just where one is sent. -/
theorem version_control (m : Modification) :
    (!notRead m.control && !nonExisting m.control) = m.told.versionRead.isSome := by
  have hread : notRead m.control = (m.versionRead.isNone && !m.readAbsent) :=
    (bits_apart _ m.readAbsent m.value.isNone).1
  rw [hread, m.nonExisting_control]
  unfold told
  cases m.readAbsent <;> cases m.versionRead <;> rfl

theorem removes_control (m : Modification) : (!removes m.control) = m.told.written.isSome := by
  have hremoves : removes m.control = m.value.isNone :=
    (bits_apart _ m.readAbsent m.value.isNone).2.2
  rw [hremoves, told, Option.isSome_map]
  cases m.value <;> rfl

theorem versionBytes_eq (m : Modification) :
    m.versionBytes = m.told.versionRead.elim [] Bytes.ofUInt64 := by
  unfold versionBytes told
  cases m.readAbsent <;> cases m.versionRead <;> rfl

def writtenBytes (written : Expiration × Bytes) : Bytes :=
  written.1.toBytes ++ Block.ofBytes written.2

theorem valueBytes_eq (m : Modification) :
    m.valueBytes = m.told.written.elim [] writtenBytes := by
  unfold valueBytes told
  cases m.value <;> rfl

/-- Lengths have 32 bits. The expiration of a key that is removed is not sent, so it may be any. -/
def Fits (m : Modification) : Prop :=
  m.key.length < UInt32.size ∧ ∀ value ∈ m.value, value.length < UInt32.size ∧ m.expiration.Fits

theorem reads_written {m : Modification} (h : m.Fits) :
    ∀ w ∈ m.told.written,
      (Answer.pairOf Expiration.reader Block.bytes).Reads (writtenBytes w) w := by
  intro w hw
  rcases Option.map_eq_some_iff.1 hw with ⟨value, hvalue, rfl⟩
  have hfits := h.2 value hvalue
  exact Operation.reads_pairOf (Expiration.reads_reader hfits.2) (Block.reads_bytes hfits.1)

theorem reads_reader {m : Modification} (h : m.Fits) : reader.Reads m.toBytes m.told := by
  unfold toBytes
  rw [m.versionBytes_eq, m.valueBytes_eq]
  apply (Block.reads_bytes h.1).bind
  apply Reads.byte_bind
  rw [m.version_control, m.removes_control, m.nonExisting_control]
  exact (reads_onlyIf fun version _ => reads_uint64 version).bind
    ((reads_onlyIf (reads_written h)).bind_pure _)

end Modification

/-!
# Transactions
-/

namespace Transaction

/-- A transaction as a server gets to know it. -/
structure Told where
  xid : Xid
  onePhase : Bool
  recoverable : Bool
  millis : Nat
  modifications : List Modification.Told
  deriving DecidableEq

def told (t : Transaction) : Told where
  xid := t.xid
  onePhase := t.onePhase
  recoverable := t.recoverable
  millis := t.timeout.millis
  modifications := t.modifications.map Modification.told

def reader : Reader Told := do
  let xid ← Xid.reader
  let onePhase ← Reader.flag
  let recoverable ← Reader.flag
  let millis ← Varint.uint64
  let count ← Varint.length
  let modifications ← Reader.many count Modification.reader
  return { xid, onePhase, recoverable, millis := millis.toNat, modifications }

/-- Lengths and the count of writes have 32 bits, the timeout has 64. -/
structure Fits (t : Transaction) : Prop where
  xid : t.xid.Fits
  timeout : t.timeout.millis < UInt64.size
  count : t.modifications.length < UInt32.size
  modifications : ∀ m ∈ t.modifications, m.Fits

theorem reads_reader {t : Transaction} (h : t.Fits) : reader.Reads t.toBytes t.told := by
  have hmillis : (UInt64.ofNat t.timeout.millis).toNat = t.timeout.millis :=
    UInt64.toNat_ofNat_of_lt' h.timeout
  have hmodifications := reads_many_map fun m hm =>
    Modification.reads_reader (h.modifications m hm)
  unfold told
  rw [← hmillis]
  exact (Xid.reads_reader h.xid).bind ((reads_flag t.onePhase).bind
    ((reads_flag t.recoverable).bind ((Varint.reads_uint64 _).bind
      ((Varint.reads_length h.count).bind (hmodifications.bind_pure _)))))

/-- A server that goes by the byte of control gets to know of every write its key, the value or
that there is none, the expiration of the value, whether the key was absent when it was read, and
the version that was read of it unless it was absent. It takes the whole body and nothing of what
follows. -/
theorem prepared_self_describing {t : Transaction} (h : t.Fits) (tail : Bytes) :
    reader ((Operation.prepareTransaction t).body ++ tail) = (.ok t.told, tail) :=
  reads_reader h tail

/-- A write of a key that was absent, though it names a version; then a removal of a key that was
read; then a write, for a while, of one that was not. -/
def mixed : Transaction where
  xid := { format := -3, globalId := [103], branch := [] }
  onePhase := true
  recoverable := false
  timeout := .ofMillis 300
  modifications := [
    { key := [1], value := some [7], versionRead := some 5, readAbsent := true, expiration := {} },
    { key := [2], value := none, versionRead := some 9, readAbsent := false,
      expiration := Operation.briefly },
    { key := [3], value := some [], versionRead := none, readAbsent := false,
      expiration := Operation.briefly }]
  named := by decide

theorem fits_mixed : mixed.Fits where
  xid := ⟨by decide, by decide⟩
  timeout := by decide
  count := by decide
  modifications := by
    have hvalues : ∀ m ∈ mixed.modifications, m.expiration.Fits := by
      have hdefault : Expiration.Fits {} := ⟨trivial, trivial⟩
      simp [mixed, Operation.fits_briefly, hdefault]
    have hlengths : ∀ m ∈ mixed.modifications,
        m.key.length < UInt32.size ∧ ∀ value ∈ m.value, value.length < UInt32.size := by
      decide
    intro m hm
    exact ⟨(hlengths m hm).1, fun value hvalue => ⟨(hlengths m hm).2 value hvalue, hvalues m hm⟩⟩

/-- The version that goes with an absent key is not sent, so the two writes after it are read from
where they begin. -/
theorem prepared_self_describing_mixed :
    reader ((Operation.prepareTransaction mixed).body ++ [8]) =
      (.ok {
        xid := { format := -3, globalId := [103], branch := [] }
        onePhase := true
        recoverable := false
        millis := 300
        modifications := [
          { key := [1], readAbsent := true, versionRead := none, written := some ({}, [7]) },
          { key := [2], readAbsent := false, versionRead := some 9, written := none },
          { key := [3], readAbsent := false, versionRead := none,
            written := some (Operation.briefly, []) }] }, [8]) :=
  prepared_self_describing fits_mixed [8]

end Transaction
end GridClient
