import GridClient.Operation.Answer
import GridClient.Operation.Body
import GridClient.Proofs.Wire.RoundTrip

/-!
# Layouts of request bodies

Operations that read or write entries, and tasks, send their arguments as fields in a fixed
order. A server that reads the fields in this order gets the arguments back, so that no two such
requests look alike. Only the key of a task is not sent: it says to which server the task goes.
-/

namespace GridClient

open Reader

/-- Operations on entries, and tasks. -/
def OpCode.dataOps : List OpCode :=
  [.get, .getWithMetadata, .containsKey, .getStream, .put, .putIfAbsent, .replace, .remove,
    .replaceIfUnmodified, .removeIfUnmodified, .getAll, .putAll, .exec]

namespace Operation

variable {op : OpCode}

/-!
# Reading a body
-/

def keyReader (make : Bytes → Operation op) : Reader (Operation op) := do
  let key ← Block.bytes
  return make key

def writeReader (make : Bytes → Bytes → Expiration → Operation op) : Reader (Operation op) := do
  let key ← Block.bytes
  let expiration ← Expiration.reader
  let value ← Block.bytes
  return make key value expiration

/-- How the body of an operation on entries, or of a task, is read field by field. -/
def layout : (op : OpCode) → Option (Reader (Operation op))
  | .get => some (keyReader .get)
  | .getWithMetadata => some (keyReader .getWithMetadata)
  | .containsKey => some (keyReader .containsKey)
  | .remove => some (keyReader .remove)
  | .put => some (writeReader .put)
  | .putIfAbsent => some (writeReader .putIfAbsent)
  | .replace => some (writeReader .replace)
  | .getStream => some do
      let key ← Block.bytes
      let offset ← Varint.uint32
      return .getStream key offset
  | .replaceIfUnmodified => some do
      let key ← Block.bytes
      let expiration ← Expiration.reader
      let version ← Reader.uint64
      let value ← Block.bytes
      return .replaceIfUnmodified key value version expiration
  | .removeIfUnmodified => some do
      let key ← Block.bytes
      let version ← Reader.uint64
      return .removeIfUnmodified key version
  | .getAll => some do
      let count ← Varint.length
      let keys ← Reader.many count Block.bytes
      return .getAll keys
  | .putAll => some do
      let expiration ← Expiration.reader
      let count ← Varint.length
      let entries ← Reader.many count (Answer.pairOf Block.bytes Block.bytes)
      return .putAll entries expiration
  | .exec => some do
      let task ← Block.text
      let count ← Varint.length
      let params ← Reader.many count (Answer.pairOf Block.text Block.bytes)
      return .exec task params none
  | _ => none

/-- The request as a server gets to know it: the key that routes a task stays with the client. -/
def asSent : {op : OpCode} → Operation op → Operation op
  | _, exec task params _ => exec task params none
  | _, o => o

/-- The lengths of all fields have 32 bits, and so have the counts of lists. -/
def Fits : {op : OpCode} → Operation op → Prop
  | _, get k => k.length < UInt32.size
  | _, getWithMetadata k => k.length < UInt32.size
  | _, containsKey k => k.length < UInt32.size
  | _, remove k => k.length < UInt32.size
  | _, getStream k _ => k.length < UInt32.size
  | _, removeIfUnmodified k _ => k.length < UInt32.size
  | _, put k v e => k.length < UInt32.size ∧ v.length < UInt32.size ∧ e.Fits
  | _, putIfAbsent k v e => k.length < UInt32.size ∧ v.length < UInt32.size ∧ e.Fits
  | _, replace k v e => k.length < UInt32.size ∧ v.length < UInt32.size ∧ e.Fits
  | _, replaceIfUnmodified k v _ e => k.length < UInt32.size ∧ v.length < UInt32.size ∧ e.Fits
  | _, getAll keys => keys.length < UInt32.size ∧ ∀ k ∈ keys, k.length < UInt32.size
  | _, putAll entries e =>
      e.Fits ∧ entries.length < UInt32.size ∧
        ∀ entry ∈ entries, entry.1.length < UInt32.size ∧ entry.2.length < UInt32.size
  | _, exec task params _ =>
      (Bytes.ofText task).length < UInt32.size ∧ params.length < UInt32.size ∧
        ∀ param ∈ params,
          (Bytes.ofText param.1).length < UInt32.size ∧ param.2.length < UInt32.size
  | _, _ => True

/-!
# What is sent is read
-/

theorem reads_keyReader {key : Bytes} (h : key.length < UInt32.size)
    (make : Bytes → Operation op) : (keyReader make).Reads (Block.ofBytes key) (make key) :=
  (Block.reads_bytes h).bind_pure make

theorem reads_writeReader {key value : Bytes} {e : Expiration}
    (h : key.length < UInt32.size ∧ value.length < UInt32.size ∧ e.Fits)
    (make : Bytes → Bytes → Expiration → Operation op) :
    (writeReader make).Reads (Block.ofBytes key ++ (e.toBytes ++ Block.ofBytes value))
      (make key value e) :=
  (Block.reads_bytes h.1).bind ((Expiration.reads_reader h.2.2).bind
    ((Block.reads_bytes h.2.1).bind_pure _))

theorem reads_pairOf {α β : Type} {r : Reader α} {s : Reader β} {first second : Bytes} {a : α}
    {b : β} (hr : r.Reads first a) (hs : s.Reads second b) :
    (Answer.pairOf r s).Reads (first ++ second) (a, b) :=
  hr.bind (hs.bind_pure _)

theorem reads_layout {r : Reader (Operation op)} (hr : layout op = some r) {o : Operation op}
    (h : o.Fits) : r.Reads o.body o.asSent := by
  cases o with
  | get key => cases hr; exact reads_keyReader h .get
  | getWithMetadata key => cases hr; exact reads_keyReader h .getWithMetadata
  | containsKey key => cases hr; exact reads_keyReader h .containsKey
  | remove key => cases hr; exact reads_keyReader h .remove
  | put key value e => cases hr; exact reads_writeReader h .put
  | putIfAbsent key value e => cases hr; exact reads_writeReader h .putIfAbsent
  | replace key value e => cases hr; exact reads_writeReader h .replace
  | getStream key offset =>
      cases hr
      exact (Block.reads_bytes h).bind ((Varint.reads_uint32 offset).bind_pure _)
  | replaceIfUnmodified key value version e =>
      cases hr
      exact (Block.reads_bytes h.1).bind ((Expiration.reads_reader h.2.2).bind
        ((reads_uint64 version).bind ((Block.reads_bytes h.2.1).bind_pure _)))
  | removeIfUnmodified key version =>
      cases hr
      exact (Block.reads_bytes h).bind ((reads_uint64 version).bind_pure _)
  | getAll keys =>
      cases hr
      have hkeys := reads_many fun key hkey => Block.reads_bytes (h.2 key hkey)
      exact (Varint.reads_length h.1).bind (hkeys.bind_pure _)
  | putAll entries e =>
      cases hr
      have hentries : (many entries.length (Answer.pairOf Block.bytes Block.bytes)).Reads
          (entries.map entryBytes).flatten entries :=
        reads_many fun entry hentry => reads_pairOf (Block.reads_bytes (h.2.2 entry hentry).1)
          (Block.reads_bytes (h.2.2 entry hentry).2)
      exact (Expiration.reads_reader h.1).bind ((Varint.reads_length h.2.1).bind
        (hentries.bind_pure _))
  | exec task params key =>
      cases hr
      have hparams : (many params.length (Answer.pairOf Block.text Block.bytes)).Reads
          (params.map paramBytes).flatten params :=
        reads_many fun param hparam => reads_pairOf (Block.reads_text (h.2.2 param hparam).1)
          (Block.reads_bytes (h.2.2 param hparam).2)
      exact (Block.reads_text h.1).bind ((Varint.reads_length h.2.1).bind (hparams.bind_pure _))
  | _ => cases hr

theorem isSome_layout : ∀ op ∈ OpCode.dataOps, (layout op).isSome := by
  decide

theorem asSent_of_ne_exec (hop : op ≠ .exec) (o : Operation op) : o.asSent = o := by
  cases o with
  | exec task params key => exact absurd rfl hop
  | _ => rfl

/-- The layout of the operation reads its arguments off the body, in their order, and takes the
whole body. So two requests that have the same body are the same, but for the key of a task. -/
theorem body_determines_request (hop : op ∈ OpCode.dataOps) :
    ∃ r, layout op = some r ∧
      (∀ o : Operation op, o.Fits → ∀ tail, r (o.body ++ tail) = (.ok o.asSent, tail)) ∧
      (∀ o p : Operation op, o.Fits → p.Fits → o.body = p.body → o.asSent = p.asSent) ∧
      (op ≠ .exec → ∀ o : Operation op, o.asSent = o) := by
  rcases Option.isSome_iff_exists.1 (isSome_layout op hop) with ⟨r, hr⟩
  refine ⟨r, hr, ?_, ?_, asSent_of_ne_exec⟩
  · intro o ho
    exact reads_layout hr ho
  · intro o p ho hp hbody
    have hreads := reads_layout hr ho
    rw [hbody] at hreads
    exact hreads.unique (reads_layout hr hp)

/-- The entry lives for a second and a half after this. -/
def briefly : Expiration where
  lifespan := .after (.ofMillis 1500)
  maxIdle := .immortal

theorem fits_briefly : briefly.Fits :=
  ⟨.inr (.inl ⟨by decide, by decide⟩), trivial⟩

/-- A replacement asks for version 7 of the entry; no other version has the same body. -/
theorem body_determines_request_replacement :
    ∃ r, layout .replaceIfUnmodified = some r ∧
      r ((replaceIfUnmodified [107] [118, 119] 7 briefly).body ++ [9]) =
        (.ok (replaceIfUnmodified [107] [118, 119] 7 briefly), [9]) ∧
      ∀ version, (replaceIfUnmodified [107] [118, 119] version briefly).body =
        (replaceIfUnmodified [107] [118, 119] 7 briefly).body → version = 7 := by
  have hfits : ∀ version, (replaceIfUnmodified [107] [118, 119] version briefly).Fits :=
    fun _ => ⟨by decide, by decide, fits_briefly⟩
  have hop : OpCode.replaceIfUnmodified ∈ OpCode.dataOps := by
    decide
  rcases body_determines_request hop with ⟨r, hr, hread, hsame, -⟩
  refine ⟨r, hr, hread _ (hfits 7) [9], ?_⟩
  intro version hbody
  cases hsame _ _ (hfits version) (hfits 7) hbody
  rfl

def taskNear (key : Bytes) : Operation .exec :=
  exec "t" [("p", [1])] (some key)

/-- A task near one key and the same task near another one are different requests. -/
theorem tasks_share_body :
    (taskNear [1]).Fits ∧ (taskNear [2]).Fits ∧ taskNear [1] ≠ taskNear [2] ∧
      (taskNear [1]).body = (taskNear [2]).body := by
  have hfits : ∀ key, (taskNear key).Fits := by
    intro key
    constructor
    · decide
    · decide
  exact ⟨hfits [1], hfits [2], nofun, rfl⟩

end Operation
end GridClient
