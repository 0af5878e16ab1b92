import GridClient.Operation.Answer
import GridClient.Proofs.Wire.Bitset
import GridClient.Proofs.Wire.RoundTrip

/-!
# Pages of an iteration

A page starts with the bits of the segments that are finished and the number of its entries. If
there are entries, the number of projections follows, the same for the whole page, and then the
entries one after another. Each of them says itself whether its metadata is there, and these say
themselves which limits the entry has. A client reads the page as it was sent, and not a byte more.
-/

namespace GridClient

open Reader

/-!
# Metadata
-/

/-- A limit is a time stamp with a span in seconds; an entry without the limit has none. -/
structure SentMetadata where
  lifespan : Option (Int64 × UInt32)
  maxIdle : Option (Int64 × UInt32)
  version : UInt64
  deriving DecidableEq

namespace SentMetadata

def limitBytes : Option (Int64 × UInt32) → Bytes
  | some (stamp, span) => Bytes.ofUInt64 stamp.toUInt64 ++ Varint.ofUInt32 span
  | none => []

/-- Bit 0 marks an infinite lifespan, bit 1 an infinite idle time. -/
def marks (m : SentMetadata) : UInt8 :=
  (if m.lifespan.isNone then 1 else 0) ||| (if m.maxIdle.isNone then 2 else 0)

def toBytes (m : SentMetadata) : Bytes :=
  m.marks :: (limitBytes m.lifespan ++ (limitBytes m.maxIdle ++ Bytes.ofUInt64 m.version))

def received (m : SentMetadata) : Metadata where
  created := m.lifespan.map Prod.fst
  lifespan := m.lifespan.map Prod.snd
  lastUsed := m.maxIdle.map Prod.fst
  maxIdle := m.maxIdle.map Prod.snd
  version := m.version

theorem marks_apart (m : SentMetadata) :
    (m.marks &&& 1 != 0) = m.lifespan.isNone ∧ (m.marks &&& 2 != 0) = m.maxIdle.isNone := by
  unfold marks
  generalize m.lifespan.isNone = immortal
  generalize m.maxIdle.isNone = restless
  revert immortal restless
  decide

theorem reads_limit (limit : Option (Int64 × UInt32)) :
    (Metadata.limit limit.isNone).Reads (limitBytes limit)
      (limit.map Prod.fst, limit.map Prod.snd) := by
  cases limit with
  | none => exact reads_pure (none, none)
  | some limit =>
      rcases limit with ⟨stamp, span⟩
      exact (reads_int64 stamp).bind ((Varint.reads_uint32 span).bind_pure _)

theorem reads_reader (m : SentMetadata) : Metadata.reader.Reads m.toBytes m.received := by
  apply Reads.byte_bind
  rw [m.marks_apart.1, m.marks_apart.2]
  exact (reads_limit m.lifespan).bind
    ((reads_limit m.maxIdle).bind ((reads_uint64 m.version).bind_pure _))

end SentMetadata

/-!
# Entries
-/

structure SentEntry where
  metadata : Option SentMetadata
  key : Bytes
  values : List Bytes
  deriving DecidableEq

namespace SentEntry

def metadataBytes : Option SentMetadata → Bytes
  | some m => 1 :: m.toBytes
  | none => [0]

def toBytes (e : SentEntry) : Bytes :=
  metadataBytes e.metadata ++ (Block.ofBytes e.key ++ (e.values.map Block.ofBytes).flatten)

/-- The first of the values is the value of the entry. All of them are kept if there are others. -/
def received (e : SentEntry) : ScanEntry where
  key := e.key
  value := e.values.headD []
  metadata := e.metadata.map SentMetadata.received
  projections := if 1 < e.values.length then e.values else []

/-- The entry has as many values as its page has projections, one at least, and lengths have 32
bits. -/
structure Fits (projections : Nat) (e : SentEntry) : Prop where
  key_lt : e.key.length < UInt32.size
  values_ne_nil : e.values ≠ []
  values_length : e.values.length = projections
  values_lt : ∀ value ∈ e.values, value.length < UInt32.size

theorem reads_entryMetadata (m : Option SentMetadata) :
    Answer.entryMetadata.Reads (metadataBytes m) (m.map SentMetadata.received) := by
  cases m with
  | none => exact Reads.byte_bind (reads_pure none)
  | some m => exact Reads.byte_bind (m.reads_reader.bind_pure some)

theorem reads_entryValues {values : List Bytes} {projections : Nat} (hne : values ≠ [])
    (hlength : values.length = projections)
    (hlt : ∀ value ∈ values, value.length < UInt32.size) :
    (Answer.entryValues projections).Reads (values.map Block.ofBytes).flatten
      (values.headD [], if 1 < values.length then values else []) := by
  subst hlength
  have hblocks : ∀ value ∈ values, Block.bytes.Reads (Block.ofBytes value) value :=
    fun value hvalue => Block.reads_bytes (hlt value hvalue)
  match values with
  | [] => exact absurd rfl hne
  | [value] => exact ((hblocks value List.mem_cons_self).bind (reads_pure (value, [])))
  | value :: other :: others =>
      rw [List.forall_mem_cons] at hblocks
      have hseveral : 1 < (value :: other :: others).length := Nat.succ_lt_succ (Nat.succ_pos _)
      rw [if_pos hseveral]
      exact hblocks.1.bind ((reads_many hblocks.2).bind_pure fun others => (value, value :: others))

theorem reads_pageEntry {projections : Nat} {e : SentEntry} (h : e.Fits projections) :
    (Answer.pageEntry projections).Reads e.toBytes e.received := by
  have hvalues := reads_entryValues h.values_ne_nil h.values_length h.values_lt
  exact (reads_entryMetadata e.metadata).bind
    ((Block.reads_bytes h.key_lt).bind (hvalues.bind_pure _))

end SentEntry

/-!
# Pages
-/

structure SentPage where
  finished : List UInt32
  /-- How many zero bytes the bits of the finished segments are filled up with. -/
  padding : Nat
  projections : Nat
  entries : List SentEntry
  deriving DecidableEq

namespace SentPage

def bits (p : SentPage) : Bytes :=
  Bitset.ofSegments p.finished ++ List.replicate p.padding 0

def entryBytes (p : SentPage) : Bytes :=
  if p.entries = [] then []
  else Varint.ofLength p.projections ++ (p.entries.map SentEntry.toBytes).flatten

def toBytes (p : SentPage) : Bytes :=
  Block.ofBytes p.bits ++ (Varint.ofLength p.entries.length ++ p.entryBytes)

structure WellFormed (p : SentPage) : Prop where
  bits_lt : p.bits.length < UInt32.size
  count_lt : p.entries.length < UInt32.size
  projections_lt : p.projections < UInt32.size
  entries_fit : ∀ e ∈ p.entries, e.Fits p.projections

def received (p : SentPage) : Page where
  finished := Bitset.toSegments p.bits
  entries := p.entries.map SentEntry.received

theorem reads_pageEntries {p : SentPage} (h : p.WellFormed) :
    Answer.pageEntries.Reads (Varint.ofLength p.entries.length ++ p.entryBytes)
      p.received.entries := by
  apply (Varint.reads_length h.count_lt).bind
  unfold entryBytes received
  by_cases hnone : p.entries = []
  · rw [hnone]
    exact reads_pure []
  · rw [if_neg hnone, if_neg (mt List.length_eq_zero_iff.1 hnone)]
    exact (Varint.reads_length h.projections_lt).bind
      (reads_many_map fun e he => SentEntry.reads_pageEntry (h.entries_fit e he))

theorem reads_page {p : SentPage} (h : p.WellFormed) : Answer.page.Reads p.toBytes p.received :=
  (Block.reads_bytes h.bits_lt).bind ((reads_pageEntries h).bind_pure _)

theorem finished_received (p : SentPage) :
    p.received.finished = Bitset.toSegments (Bitset.ofSegments p.finished) :=
  Bitset.toSegments_append_zeros (Bitset.ofSegments p.finished) p.padding

theorem isLast_received (p : SentPage) : p.received.isLast = p.entries.isEmpty :=
  List.isEmpty_map

end SentPage

namespace Operation

/-- Unless the status says that the iteration is not known, a page is read to its end and not
beyond it. It has the segments that were sent in increasing order, each once, and the entries in
their order with their keys, metadata and values; it is the last one if it has no entries. -/
theorem page_recovered {sent : SentPage} (h : sent.WellFormed) {status : Status}
    (hstatus : status.isInvalidIteration = false) (cursor : Cursor) (version : Version)
    (node : NodeAddress) (tail : Bytes) :
    ∃ page : Page,
      (iterationNext cursor).answer status version node (sent.toBytes ++ tail) =
        (.ok page, tail) ∧
      page.finished.Pairwise (· < ·) ∧ (∀ s, s ∈ page.finished ↔ s ∈ sent.finished) ∧
      page.entries = sent.entries.map SentEntry.received ∧
      (page.isLast ↔ sent.entries = []) := by
  have hread : (iterationNext cursor).answer status version node (sent.toBytes ++ tail) =
      (.ok sent.received, tail) := by
    unfold answer
    rw [hstatus]
    exact SentPage.reads_page h tail
  refine ⟨sent.received, hread, ?_, ?_, rfl, ?_⟩
  · rw [sent.finished_received]
    exact Bitset.pairwise_toSegments (Bitset.length_ofSegments_le _)
  · rw [sent.finished_received]
    exact Bitset.mem_toSegments_ofSegments sent.finished
  · rw [sent.isLast_received, List.isEmpty_iff]

/-- Two entries with two projections each, one of them with a lifespan and without a limit on its
idle time. The bits of the segments have a zero byte too many. -/
def projectedPage : SentPage where
  finished := [9, 3, 9]
  padding := 1
  projections := 2
  entries :=
    [{ metadata := some { lifespan := some (-2, 300), maxIdle := none, version := 5 },
       key := [107], values := [[118], []] },
     { metadata := none, key := [], values := [[119, 120], [121]] }]

def projectedBytes : Bytes :=
  [3, 8, 2, 0, 2, 2, 1, 2, 255, 255, 255, 255, 255, 255, 255, 254, 172, 2, 0, 0, 0, 0, 0, 0, 0, 5,
    1, 107, 1, 118, 0, 0, 0, 2, 119, 120, 1, 121]

def projectedEntries : List ScanEntry :=
  [{ key := [107], value := [118],
     metadata := some ⟨some (-2), some 300, none, none, 5⟩, projections := [[118], []] },
   { key := [], value := [119, 120], metadata := none, projections := [[119, 120], [121]] }]

theorem page_recovered_projected :
    projectedPage.WellFormed ∧ projectedPage.toBytes = projectedBytes ∧
      ∃ page : Page,
        (iterationNext ⟨"i", ⟨"a", 1⟩⟩).answer ⟨0⟩ .v31 ⟨"a", 1⟩ (projectedBytes ++ [7]) =
          (.ok page, [7]) ∧
        page.finished.Pairwise (· < ·) ∧ (∀ s, s ∈ page.finished ↔ s ∈ [9, 3, 9]) ∧
        page.entries = projectedEntries ∧ ¬ page.isLast := by
  have hwell : projectedPage.WellFormed := by
    refine ⟨by decide, by decide, by decide, ?_⟩
    simp only [projectedPage, List.forall_mem_cons]
    exact ⟨⟨by decide, by decide, rfl, by decide⟩, ⟨by decide, by decide, rfl, by decide⟩, nofun⟩
  have hbytes : projectedPage.toBytes = projectedBytes := by
    decide +kernel
  have hstatus : (⟨0⟩ : Status).isInvalidIteration = false := rfl
  rcases page_recovered hwell hstatus ⟨"i", ⟨"a", 1⟩⟩ .v31 ⟨"a", 1⟩ [7] with
    ⟨page, hread, hsorted, hfinished, hentries, hlast⟩
  rw [hbytes] at hread
  refine ⟨hwell, hbytes, page, hread, hsorted, hfinished, hentries, ?_⟩
  rw [hlast]
  nofun

end Operation
end GridClient
