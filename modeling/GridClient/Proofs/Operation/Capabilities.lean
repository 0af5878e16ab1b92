import GridClient.Operation.Answer
import GridClient.Proofs.Wire.RoundTrip

/-!
# Capabilities behind media types

From version 3.0 on, the answer to a ping names the media types of keys and values before it tells
what the server can do. The client has no use for the media types, but their shapes differ: it has
to step over each of them to its end in order to find the server's version and its operations. In
older versions the answer is empty.
-/

namespace GridClient

open Reader

/-!
# Media types
-/

inductive MediaType where
  | absent
  | predefined (id : UInt32) (params : List (String × String))
  /-- Any mark of two or more announces a name. -/
  | custom (mark : UInt8) (name : String) (params : List (String × String))
  deriving DecidableEq

namespace MediaType

def paramBytes (param : String × String) : Bytes :=
  Block.ofText param.1 ++ Block.ofText param.2

def paramsBytes (params : List (String × String)) : Bytes :=
  Varint.ofLength params.length ++ (params.map paramBytes).flatten

def toBytes : MediaType → Bytes
  | absent => [0]
  | predefined id params => 1 :: (Varint.ofUInt32 id ++ paramsBytes params)
  | custom mark name params => mark :: (Block.ofText name ++ paramsBytes params)

/-- The number of parameters and the lengths of all texts have 32 bits. -/
def ParamsFit (params : List (String × String)) : Prop :=
  params.length < UInt32.size ∧ ∀ param ∈ params,
    (Bytes.ofText param.1).length < UInt32.size ∧ (Bytes.ofText param.2).length < UInt32.size

def Fits : MediaType → Prop
  | absent => True
  | predefined _ params => ParamsFit params
  | custom mark name params =>
      2 ≤ mark ∧ (Bytes.ofText name).length < UInt32.size ∧ ParamsFit params

/-- The end of a media type that is there. -/
def paramsReader : Reader Unit := do
  let count ← Varint.length
  let _ ← many count (Answer.pairOf Block.text Block.text)
  return ()

theorem reads_paramsReader {params : List (String × String)} (h : ParamsFit params) :
    paramsReader.Reads (paramsBytes params) () := by
  have hparam : ∀ param ∈ params,
      (Answer.pairOf Block.text Block.text).Reads (paramBytes param) param := fun param hparam =>
    (Block.reads_text (h.2 param hparam).1).bind
      ((Block.reads_text (h.2 param hparam).2).bind_pure _)
  exact (Varint.reads_length h.1).bind ((reads_many hparam).bind_pure _)

/-- Whatever a media type says, it is taken as a whole. -/
theorem reads_mediaType {m : MediaType} (h : m.Fits) : Answer.mediaType.Reads m.toBytes () := by
  cases m with
  | absent => exact Reads.byte_bind (reads_pure ())
  | predefined id params =>
      apply Reads.byte_bind
      exact ((Varint.reads_uint32 id).bind_pure _).bind (reads_paramsReader h)
  | custom mark name params =>
      rcases h with ⟨hmark, hname, hparams⟩
      have habsent : mark ≠ 0 := by
        rintro rfl
        exact absurd hmark (by decide)
      have hpredefined : mark ≠ 1 := by
        rintro rfl
        exact absurd hmark (by decide)
      apply Reads.byte_bind
      rw [if_neg habsent, Answer.mediaTypeName, if_neg hpredefined]
      exact ((Block.reads_text hname).bind_pure _).bind (reads_paramsReader hparams)

end MediaType

/-!
# Answers to a ping
-/

/-- What a server answers to a ping in a version that has capabilities. -/
structure SentCapabilities where
  keyType : MediaType
  valueType : MediaType
  serverVersion : UInt8
  operations : List UInt16
  deriving DecidableEq

namespace SentCapabilities

def operationBytes (operations : List UInt16) : Bytes :=
  Varint.ofLength operations.length ++ (operations.map Bytes.ofUInt16).flatten

def toBytes (c : SentCapabilities) : Bytes :=
  c.keyType.toBytes
    ++ (c.valueType.toBytes ++ c.serverVersion :: operationBytes c.operations)

structure Fits (c : SentCapabilities) : Prop where
  keyType_fits : c.keyType.Fits
  valueType_fits : c.valueType.Fits
  count_lt : c.operations.length < UInt32.size

theorem reads_ping {c : SentCapabilities} (h : c.Fits) {version : Version}
    (hversion : version.hasPingCapabilities) :
    (Answer.ping version).Reads c.toBytes
      { serverVersion := some c.serverVersion, supportedOps := c.operations } := by
  unfold Answer.ping
  rw [if_pos hversion]
  apply (MediaType.reads_mediaType h.keyType_fits).bind
  apply (MediaType.reads_mediaType h.valueType_fits).bind
  apply Reads.byte_bind
  exact (Varint.reads_length h.count_lt).bind
    ((reads_many fun op _ => reads_uint16 op).bind_pure _)

end SentCapabilities

namespace Operation

/-- From version 3.0 on, the server's version and its operations are found behind any two media
types, and what follows them is left. In older versions nothing is read and nothing is known. -/
theorem capabilities_found (target : Option NodeAddress) (status : Status) (node : NodeAddress)
    (version : Version) (buffer : Bytes) :
    (30 ≤ version.code → ∀ sent : SentCapabilities, sent.Fits →
      (ping target).answer status version node (sent.toBytes ++ buffer) =
        (.ok { serverVersion := some sent.serverVersion, supportedOps := sent.operations },
          buffer)) ∧
    (version.code < 30 →
      (ping target).answer status version node buffer =
        (.ok { serverVersion := none, supportedOps := [] }, buffer)) := by
  constructor
  · intro hversion sent hfits
    exact SentCapabilities.reads_ping hfits (decide_eq_true hversion) buffer
  · intro hversion
    have hnone : version.hasPingCapabilities = false :=
      decide_eq_false (UInt8.not_le.2 hversion)
    show Answer.ping version buffer = _
    rw [Answer.ping, hnone]
    rfl

/-- A named media type with a parameter, and a numbered one whose parameter is empty. -/
def describedCapabilities : SentCapabilities where
  keyType := .custom 255 "ä" [("q", "1")]
  valueType := .predefined 300 [("", "")]
  serverVersion := 31
  operations := [1, 515]

def describedBytes : Bytes :=
  [255, 2, 195, 164, 1, 1, 113, 1, 49, 1, 172, 2, 1, 0, 0, 31, 2, 0, 1, 2, 3]

theorem capabilities_found_described :
    describedCapabilities.Fits ∧ describedCapabilities.toBytes = describedBytes ∧
      (ping none).answer ⟨0⟩ .v30 ⟨"a", 1⟩ (describedBytes ++ [7]) =
        (.ok { serverVersion := some 31, supportedOps := [1, 515] }, [7]) ∧
      (ping none).answer ⟨0⟩ .v29 ⟨"a", 1⟩ [7] =
        (.ok { serverVersion := none, supportedOps := [] }, [7]) := by
  have hfits : describedCapabilities.Fits := by
    refine ⟨⟨by decide, by decide, by decide, ?_⟩, ⟨by decide, ?_⟩, by decide⟩
    · simp only [List.forall_mem_singleton]
      exact ⟨by decide, by decide⟩
    · simp only [List.forall_mem_singleton]
      exact ⟨by decide, by decide⟩
  have hbytes : describedCapabilities.toBytes = describedBytes := by
    decide +kernel
  have hread := (capabilities_found none ⟨0⟩ ⟨"a", 1⟩ .v30 [7]).1 (by decide) _ hfits
  rw [hbytes] at hread
  exact ⟨hfits, hbytes, hread,
    (capabilities_found none ⟨0⟩ ⟨"a", 1⟩ .v29 [7]).2 (by decide)⟩

end Operation
end GridClient
