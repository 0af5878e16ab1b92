import GridClient.Proofs.Call.Binding

/-!
# Writes in chunks

A server reads the chunks of a value up to an empty one. The value has none of its own, so the
server gets all of it, and nothing of what follows. The condition of the write comes before the
chunks, as a version: two of the versions that an entry may have say that no version is meant.
-/

namespace GridClient

open Reader

/-!
# Pieces of a value
-/

namespace Chunked

theorem flatten_pieces (size : Nat) (value : Bytes) : (pieces size value).flatten = value := by
  fun_induction pieces size value with
  | case1 => rfl
  | case2 b rest ih => rw [List.flatten_cons, ih, List.take_append_drop]

/-- No piece is empty, which would end the value too soon. -/
theorem of_mem_pieces {size : Nat} {value piece : Bytes} (h : piece ∈ pieces size value) :
    piece ≠ [] ∧ piece.length ≤ max size 1 := by
  fun_induction pieces size value with
  | case1 => cases h
  | case2 b rest ih =>
      rcases List.mem_cons.1 h with rfl | hrest
      · constructor
        · have hsize : max size 1 ≠ 0 := by omega
          simp [hsize]
        · exact List.length_take_le _ _
      · exact ih hrest

theorem pieces_eq_nil_iff {size : Nat} {value : Bytes} : pieces size value = [] ↔ value = [] := by
  fun_cases pieces size value with
  | case1 => exact iff_of_true rfl rfl
  | case2 b rest => exact iff_of_false nofun nofun

/-- Where another piece follows, the value was long enough for a whole one. -/
theorem length_of_mem_dropLast {size : Nat} {value piece : Bytes}
    (h : piece ∈ (pieces size value).dropLast) : piece.length = max size 1 := by
  fun_induction pieces size value with
  | case1 => cases h
  | case2 b rest ih =>
      by_cases hlater : pieces size ((b :: rest).drop (max size 1)) = []
      · rw [hlater] at h
        cases h
      · rw [List.dropLast_cons_of_ne_nil hlater] at h
        rcases List.mem_cons.1 h with rfl | hrest
        · have hlong : max size 1 < (b :: rest).length := by
            apply Nat.lt_of_not_le
            intro hshort
            exact hlater (pieces_eq_nil_iff.2 (List.drop_of_length_le hshort))
          rw [List.length_take]
          omega
        · exact ih hrest

theorem length_le_of_mem_pieces {size : Nat} {value piece : Bytes}
    (h : piece ∈ pieces size value) : piece.length ≤ value.length := by
  have hsub := List.sublist_flatten_of_mem h
  rw [flatten_pieces] at hsub
  exact hsub.length_le

theorem ofBytes_nil : Block.ofBytes [] = [0] := by
  simp [Block.ofBytes, Varint.ofLength, Varint.ofUInt32, Varint.ofNat]

theorem toBytes_eq (size : Nat) (value : Bytes) :
    toBytes size value = ((pieces size value).map Block.ofBytes).flatten ++ [0] := by
  rw [toBytes, ofBytes_nil]

/-!
# Reading up to an empty chunk
-/

/-- Reads blocks up to an empty one. The first argument bounds their number. -/
def readerUpTo : Nat → Reader (List Bytes)
  | 0 => fault (.truncated "array")
  | n + 1 => do
      let chunk ← Block.bytes
      if chunk = [] then return []
      else
        let chunks ← readerUpTo n
        return chunk :: chunks

/-- Every chunk takes a byte at least, so the buffer bounds their number. -/
def reader : Reader (List Bytes) :=
  fun buffer => readerUpTo (buffer.length + 1) buffer

theorem reads_readerUpTo {n : Nat} {chunks : List Bytes} (hn : chunks.length ≤ n)
    (h : ∀ chunk ∈ chunks, chunk ≠ [] ∧ chunk.length < UInt32.size) :
    (readerUpTo (n + 1)).Reads ((chunks.map Block.ofBytes).flatten ++ Block.ofBytes []) chunks := by
  induction chunks generalizing n with
  | nil => exact (Block.reads_bytes (by decide)).bind_nil (reads_pure [])
  | cons chunk chunks ih =>
      rcases List.forall_mem_cons.1 h with ⟨hchunk, hchunks⟩
      rcases Nat.exists_eq_add_one.2 (Nat.lt_of_lt_of_le (Nat.succ_pos _) hn) with ⟨n, rfl⟩
      rw [List.map_cons, List.flatten_cons, List.append_assoc]
      apply (Block.reads_bytes hchunk.2).bind
      rw [if_neg hchunk.1]
      exact (ih (Nat.le_of_succ_le_succ hn) hchunks).bind_pure (List.cons chunk)

theorem length_le_length_flatten {chunks : List Bytes} (h : ∀ chunk ∈ chunks, chunk ≠ []) :
    chunks.length ≤ (chunks.map Block.ofBytes).flatten.length := by
  induction chunks with
  | nil => exact Nat.zero_le _
  | cons chunk chunks ih =>
      rcases List.forall_mem_cons.1 h with ⟨hchunk, hchunks⟩
      have hpos := List.length_pos_of_ne_nil hchunk
      have hrest := ih hchunks
      simp only [List.map_cons, List.flatten_cons, Block.ofBytes, List.length_append,
        List.length_cons] at hrest ⊢
      omega

theorem reads_reader {chunks : List Bytes}
    (h : ∀ chunk ∈ chunks, chunk ≠ [] ∧ chunk.length < UInt32.size) :
    reader.Reads ((chunks.map Block.ofBytes).flatten ++ Block.ofBytes []) chunks := by
  intro rest
  apply reads_readerUpTo _ h
  have hlength := length_le_length_flatten fun chunk hchunk => (h chunk hchunk).1
  simp only [List.length_append]
  omega

theorem reads_toBytes {value : Bytes} (h : value.length < UInt32.size) (size : Nat) :
    reader.Reads (toBytes size value) (pieces size value) :=
  reads_reader fun _ hpiece =>
    ⟨(of_mem_pieces hpiece).1, Nat.lt_of_le_of_lt (length_le_of_mem_pieces hpiece) h⟩

end Chunked

/-!
# Conditions
-/

namespace WriteCondition

/-- The condition that a server takes a version for. -/
def ofWireVersion (v : UInt64) : WriteCondition :=
  if v = 0 then always
  else if v = 0xFFFFFFFFFFFFFFFF then ifAbsent
  else ifVersion v

/-- The first condition, on the version of an entry, is sent as the second one, which is on none. -/
inductive SentAs : WriteCondition → WriteCondition → Prop where
  | least : SentAs (ifVersion 0) always
  | greatest : SentAs (ifVersion 0xFFFFFFFFFFFFFFFF) ifAbsent

theorem wireVersion_eq_iff {c d : WriteCondition} (h : c ≠ d) :
    c.wireVersion = d.wireVersion ↔ c.SentAs d ∨ d.SentAs c := by
  constructor
  · intro hversion
    cases c with
    | always =>
        cases d with
        | always => exact absurd rfl h
        | ifAbsent => exact absurd hversion (by decide)
        | ifVersion v =>
            cases hversion
            exact .inr .least
    | ifAbsent =>
        cases d with
        | always => exact absurd hversion (by decide)
        | ifAbsent => exact absurd rfl h
        | ifVersion v =>
            cases hversion
            exact .inr .greatest
    | ifVersion v =>
        cases d with
        | always =>
            cases hversion
            exact .inl .least
        | ifAbsent =>
            cases hversion
            exact .inl .greatest
        | ifVersion w => exact absurd (congrArg ifVersion hversion) h
  · rintro (hsent | hsent)
    · cases hsent <;> rfl
    · cases hsent <;> rfl

/-- The condition as a server gets to know it. -/
def arriving (c : WriteCondition) : WriteCondition :=
  ofWireVersion c.wireVersion

theorem sentAs_iff {c d : WriteCondition} : c.SentAs d ↔ c ≠ d ∧ c.arriving = d := by
  constructor
  · rintro (_ | _)
    · exact ⟨nofun, rfl⟩
    · exact ⟨nofun, rfl⟩
  · rintro ⟨hne, rfl⟩
    cases c with
    | always => exact absurd rfl hne
    | ifAbsent => exact absurd rfl hne
    | ifVersion v =>
        by_cases hleast : v = 0
        · subst hleast
          exact .least
        · by_cases hgreatest : v = 0xFFFFFFFFFFFFFFFF
          · subst hgreatest
            exact .greatest
          · have hkept : (ifVersion v).arriving = ifVersion v := by
              show ofWireVersion v = ifVersion v
              rw [ofWireVersion, if_neg hleast, if_neg hgreatest]
            exact absurd hkept.symm hne

end WriteCondition

/-!
# Requests
-/

namespace Operation

variable {key value : Bytes} {c d : WriteCondition} {e : Expiration} {size : Nat}

theorem body_putStream (key value : Bytes) (c : WriteCondition) (e : Expiration) (size : Nat) :
    (putStream key value c e size).body = Block.ofBytes key ++
      (e.toBytes ++ (Bytes.ofUInt64 c.wireVersion ++ Chunked.toBytes size value)) :=
  rfl

theorem body_putStream_eq_iff :
    (putStream key value c e size).body = (putStream key value d e size).body ↔
      c.wireVersion = d.wireVersion := by
  constructor
  · intro h
    have hversion := List.append_cancel_right
      (List.append_cancel_left (List.append_cancel_left h))
    apply UInt64.toNat_inj.1
    rw [← Bytes.toNat_ofUInt64, hversion, Bytes.toNat_ofUInt64]
  · intro h
    rw [body_putStream, body_putStream, h]

/-- What a server reads of a write in chunks before it comes to the chunks. -/
def streamHeadReader : Reader (Bytes × Expiration × WriteCondition) := do
  let key ← Block.bytes
  let expiration ← Expiration.reader
  let version ← Reader.uint64
  return (key, expiration, .ofWireVersion version)

theorem streamHeadReader_body (h : key.length < UInt32.size) :
    streamHeadReader (putStream key value c e size).body =
      (.ok (key, e.arriving, c.arriving), Chunked.toBytes size value) := by
  have hreads : streamHeadReader.Reads
      (Block.ofBytes key ++ (e.toBytes ++ Bytes.ofUInt64 c.wireVersion))
      (key, e.arriving, c.arriving) :=
    (Block.reads_bytes h).bind (e.reads_arriving.bind ((reads_uint64 c.wireVersion).bind_pure _))
  have hread := hreads (Chunked.toBytes size value)
  rwa [List.append_assoc, List.append_assoc] at hread

/-- Every frame of the request is a ping that refreshes the topology, or it is headed as a write in
chunks and read as one, with the condition that arrives. -/
theorem told_of_writes {cache : RemoteCache} {t : Topology} {ctx : CallContext} {frame : Bytes}
    (hkey : key.length < UInt32.size)
    (hwrites : (Bound.single (cache.request t ctx (cache.putStream key value c e)).1).Writes frame) :
    ∃ (header : RequestHeader) (rest : Bytes), frame = header.toBytes ++ rest ∧
      (header.opCode = OpCode.ping.code ∧ rest = [] ∨
        header.opCode = OpCode.putStream.code ∧ streamHeadReader rest =
          (.ok (key, e.arriving, c.arriving), Chunked.toBytes cache.config.chunkSize value)) := by
  rcases hwrites with ⟨deadline, trace, stand, hrun, hframe⟩
  rcases Call.frame_of_only (Request.only_executeUntil _ deadline) hrun hframe with
    ⟨other, a, id, version, hdispatched, rfl⟩
  refine ⟨a.header id version, a.operation.body, rfl, ?_⟩
  cases hdispatched with
  | ping t => exact .inl ⟨rfl, rfl⟩
  | @own r hflags hoperation t target =>
      have hbody : (r.attempt t target deadline).operation.body =
          (cache.putStream key value c e).body := congrArg body hoperation
      rw [hbody]
      exact .inr ⟨rfl, streamHeadReader_body hkey⟩

/-- Whatever else two writes share, different conditions give them the same body exactly if one is
on version 0 and the other one is none, or one is on the greatest version and the other one that
there is no entry. A server takes these two versions for the other conditions, and all other
conditions for what they are. So it reads each frame that is written for a request, other than the
pings that refresh the topology. -/
theorem conditions_confused_iff (key value : Bytes) (e : Expiration) :
    (∀ c d size, c ≠ d →
      ((putStream key value c e size).body = (putStream key value d e size).body ↔
        c.SentAs d ∨ d.SentAs c)) ∧
    (∀ c d : WriteCondition, c.SentAs d ↔ c ≠ d ∧ c.arriving = d) ∧
    ∀ (cache : RemoteCache) t ctx c frame, key.length < UInt32.size →
      (Bound.single (cache.request t ctx (cache.putStream key value c e)).1).Writes frame →
        ∃ (header : RequestHeader) (rest : Bytes), frame = header.toBytes ++ rest ∧
          (header.opCode = OpCode.ping.code ∧ rest = [] ∨
            header.opCode = OpCode.putStream.code ∧ streamHeadReader rest =
              (.ok (key, e.arriving, c.arriving),
                Chunked.toBytes cache.config.chunkSize value)) := by
  refine ⟨?_, fun _ _ => WriteCondition.sentAs_iff, ?_⟩
  · intro c d size hne
    rw [body_putStream_eq_iff, WriteCondition.wireVersion_eq_iff hne]
  · intro cache t ctx c frame hkey hwrites
    exact told_of_writes hkey hwrites

/-- The frame of a write on the condition that the entry has version 0. -/
def versionlessFrame : Bytes :=
  [0xA0, 1, 31, 0x39, 5, 98, 111, 111, 107, 115, 1, 1, 255, 255, 255, 255, 15, 0, 0,
    1, 1, 0x77, 0, 0, 0, 0, 0, 0, 0, 0, 1, 2, 0]

theorem conditions_confused_iff_versionless :
    (putStream [1] [2] (.ifVersion 0) {} 8).body = (putStream [1] [2] .always {} 8).body ∧
      (Bound.single (CallContext.returningCache.request (.initial .basic []) {}
        (CallContext.returningCache.putStream [1] [2] (.ifVersion 0) {})).1).Writes
          versionlessFrame ∧
      ∃ (header : RequestHeader) (rest : Bytes), versionlessFrame = header.toBytes ++ rest ∧
        (header.opCode = OpCode.ping.code ∧ rest = [] ∨
          header.opCode = OpCode.putStream.code ∧
            streamHeadReader rest = (.ok ([1], {}, .always), [1, 2, 0])) := by
  rcases conditions_confused_iff [1] [2] {} with ⟨hsame, -, htold⟩
  have hwrites : (Bound.single (CallContext.returningCache.request (.initial .basic []) {}
      (CallContext.returningCache.putStream [1] [2] (.ifVersion 0) {})).1).Writes
        versionlessFrame := by
    -- the first attempt has got its channel and waits for its frame to be written
    refine ⟨9, [], _, .waiting trivial, _, List.mem_singleton_self _, _, _, .attempt _,
      [⟨.messageId, 1⟩, ⟨.acquire .any 9, .ready (.ok ⟨1, ⟨"a", 1⟩, .v31⟩)⟩,
        ⟨.enter .channelAcquired, ()⟩], _,
      .answered _ (.answered _ (.answered _ (.waiting trivial))), List.mem_singleton.2 ?_⟩
    decide +kernel
  have hchunks : Chunked.toBytes 8192 [2] = [1, 2, 0] := by
    decide +kernel
  refine ⟨(hsame (.ifVersion 0) .always 8 nofun).2 (.inl .least), hwrites, ?_⟩
  rw [← hchunks]
  exact htold CallContext.returningCache (.initial .basic []) {} (.ifVersion 0) versionlessFrame
    (by decide) hwrites

/-- Behind the key, the expiration and the version, a body has the chunks of the value, and a zero
byte as its last one. A server that reads up to the first empty chunk takes just these bytes,
whatever follows them, and has the value when it puts its chunks together. All of them but the last
one have the full size, which is one byte at least. -/
theorem chunks_reassemble (key : Bytes) {value : Bytes} (c : WriteCondition) (e : Expiration)
    (size : Nat) (h : value.length < UInt32.size) :
    ∃ (stream : Bytes) (chunks : List Bytes),
      (putStream key value c e size).body =
        Block.ofBytes key ++ (e.toBytes ++ (Bytes.ofUInt64 c.wireVersion ++ stream)) ∧
      stream = (chunks.map Block.ofBytes).flatten ++ [0] ∧
      (∀ tail, Chunked.reader (stream ++ tail) = (.ok chunks, tail)) ∧
      (∀ chunk ∈ chunks, chunk ≠ [] ∧ chunk.length ≤ max size 1) ∧
      (∀ chunk ∈ chunks.dropLast, chunk.length = max size 1) ∧
      chunks.flatten = value := by
  refine ⟨Chunked.toBytes size value, Chunked.pieces size value, body_putStream key value c e size,
    Chunked.toBytes_eq size value, Chunked.reads_toBytes h size, ?_, ?_, Chunked.flatten_pieces size value⟩
  · intro chunk hchunk
    exact Chunked.of_mem_pieces hchunk
  · intro chunk hchunk
    exact Chunked.length_of_mem_dropLast hchunk

/-- Two whole chunks and what is left. -/
theorem chunks_reassemble_remainder :
    ∃ chunks : List Bytes,
      (putStream [107] [97, 98, 99, 100, 101] .ifAbsent {} 2).body =
        Block.ofBytes [107] ++ (Expiration.toBytes {} ++
          (Bytes.ofUInt64 0xFFFFFFFFFFFFFFFF ++ [2, 97, 98, 2, 99, 100, 1, 101, 0])) ∧
      Chunked.reader ([2, 97, 98, 2, 99, 100, 1, 101, 0] ++ []) = (.ok chunks, []) ∧
      (∀ chunk ∈ chunks.dropLast, chunk.length = max 2 1) ∧
      chunks.flatten = [97, 98, 99, 100, 101] := by
  have hvalue : ([97, 98, 99, 100, 101] : Bytes).length < UInt32.size := by
    decide
  have hbytes : Chunked.toBytes 2 [97, 98, 99, 100, 101] = [2, 97, 98, 2, 99, 100, 1, 101, 0] := by
    decide +kernel
  rcases chunks_reassemble [107] .ifAbsent {} 2 hvalue with
    ⟨stream, chunks, hbody, -, hread, -, hwhole, hflatten⟩
  have hstream : stream = [2, 97, 98, 2, 99, 100, 1, 101, 0] := by
    rw [body_putStream, hbytes] at hbody
    exact (List.append_cancel_left (List.append_cancel_left (List.append_cancel_left hbody))).symm
  subst hstream
  exact ⟨chunks, hbody, hread [], hwhole, hflatten⟩

end Operation
end GridClient
