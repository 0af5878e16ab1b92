import GridClient.Operation.Body
import GridClient.Proofs.Wire.Bitset
import GridClient.Proofs.Wire.Lengths

/-!
# Factories of filters and converters

Registrations of listeners and starts of iterations name factories, with parameters that a single
byte counts. A registration has no other sign for a factory that is absent than an empty name. So a
server gets back what was asked for if the factories of a listener have names and no factory has
more than 255 parameters, and only then: otherwise it loses step, and misreads all that follows.
-/

namespace GridClient

open Reader

namespace Reader

variable {α : Type}

/-- What may be written is read back, and nothing else is ever read. -/
theorem Ensures.read_back_iff {r : Reader α} {P : α → Prop} (hensures : r.Ensures P)
    {taken : Bytes} {a : α} (hreads : P a → r.Reads taken a) (tail : Bytes) :
    r (taken ++ tail) = (.ok a, tail) ↔ P a :=
  ⟨hensures _ _ _, fun h => hreads h tail⟩

def flag : Reader Bool := do
  let b ← byte
  return b != 0

theorem reads_flag (b : Bool) : flag.Reads [b.toUInt8] b := by
  apply Reads.byte_bind
  have hbit : (b.toUInt8 != 0) = b := by
    cases b <;> rfl
  rw [hbit]
  exact reads_pure b

end Reader

/-!
# Factories
-/

namespace NamedFactory

/-- The parameters come behind the name. -/
def reader (name : String) : Reader NamedFactory := do
  let count ← Reader.byte
  let params ← Reader.many count.toNat Block.bytes
  return { name, params }

/-- No factory is read as one without a name. -/
def listenerReader : Reader (Option NamedFactory) := do
  let name ← Block.text
  if name = "" then return none
  else
    let f ← reader name
    return some f

def iterationReader : Reader (Option NamedFactory) := do
  match ← Block.optionalText with
  | none => return none
  | some name =>
      let f ← reader name
      return some f

/-- A byte counts the parameters, and their lengths have 32 bits. -/
def ParamsFit (f : NamedFactory) : Prop :=
  f.params.length < UInt8.size ∧ ∀ param ∈ f.params, param.length < UInt32.size

def ListenerFits (f : NamedFactory) : Prop :=
  f.name ≠ "" ∧ (Bytes.ofText f.name).length < UInt32.size ∧ f.ParamsFit

def IterationFits (f : NamedFactory) : Prop :=
  (Bytes.ofText f.name).length < 2 ^ 31 ∧ f.ParamsFit

theorem reads_reader {f : NamedFactory} (h : f.ParamsFit) :
    (reader f.name).Reads f.paramBytes f := by
  have hcount : (UInt8.ofNat f.params.length).toNat = f.params.length :=
    UInt8.toNat_ofNat_of_lt' h.1
  apply Reads.byte_bind
  rw [hcount]
  exact (reads_many fun param hparam => Block.reads_bytes (h.2 param hparam)).bind_pure _

theorem ensures_reader (name : String) :
    (reader name).Ensures fun f => f.name = name ∧ f.ParamsFit := by
  refine (ensures_true byte).bind fun count _ => (Block.ensures_bytes.many count.toNat).bind ?_
  intro params hparams
  exact ensures_pure ⟨rfl, hparams.1 ▸ count.toNat_lt, hparams.2⟩

theorem reads_listenerReader {f : Option NamedFactory} (h : ∀ g ∈ f, g.ListenerFits) :
    listenerReader.Reads (listenerBytes f) f := by
  cases f with
  | none => exact (Block.reads_text (by decide)).bind_nil (reads_pure none)
  | some g =>
      rcases h g rfl with ⟨hname, hlength, hparams⟩
      apply (Block.reads_text hlength).bind
      rw [if_neg hname]
      exact (reads_reader hparams).bind_pure some

theorem ensures_listenerReader : listenerReader.Ensures fun f => ∀ g ∈ f, g.ListenerFits := by
  refine Block.ensures_text.bind ?_
  intro name hlength
  split
  · exact ensures_pure (by simp)
  · next hname =>
    refine (ensures_reader name).bind ?_
    rintro f ⟨rfl, hparams⟩
    apply ensures_pure
    rintro _ ⟨⟩
    exact ⟨hname, hlength, hparams⟩

theorem reads_iterationReader {f : Option NamedFactory} (h : ∀ g ∈ f, g.IterationFits) :
    iterationReader.Reads (iterationBytes f) f := by
  cases f with
  | none => exact (Block.reads_optionalText (by simp)).bind_nil (reads_pure none)
  | some g =>
      rcases h g rfl with ⟨hlength, hparams⟩
      have hname : ∀ text ∈ some g.name, (Bytes.ofText text).length < 2 ^ 31 := by
        rintro _ ⟨⟩
        exact hlength
      exact (Block.reads_optionalText hname).bind ((reads_reader hparams).bind_pure some)

theorem ensures_iterationReader : iterationReader.Ensures fun f => ∀ g ∈ f, g.IterationFits := by
  refine Block.ensures_optionalText.bind ?_
  intro name hlength
  cases name with
  | none => exact ensures_pure (by simp)
  | some name =>
      refine (ensures_reader name).bind ?_
      rintro f ⟨rfl, hparams⟩
      apply ensures_pure
      rintro _ ⟨⟩
      exact ⟨hlength _ rfl, hparams⟩

end NamedFactory

/-!
# Requests
-/

/-- The start of an iteration as a server gets to know it. -/
structure IterationStart where
  segments : Option Bytes
  filter : Option NamedFactory
  batch : UInt32
  metadata : Bool
  deriving DecidableEq

namespace Operation

def registrationReader : Reader (Bytes × ListenerOptions) := do
  let id ← Block.bytes
  let includeState ← Reader.flag
  let filter ← NamedFactory.listenerReader
  let converter ← NamedFactory.listenerReader
  let rawData ← Reader.flag
  return (id, { includeState, filter, converter, rawData })

def iterationStartReader : Reader IterationStart := do
  let segments ← Block.optionalBytes
  let filter ← NamedFactory.iterationReader
  let batch ← Varint.uint32
  let metadata ← Reader.flag
  return { segments, filter, batch, metadata }

/-- The factories of a registration, and its identifier. -/
def RegistrationFits (id : Bytes) (options : ListenerOptions) : Prop :=
  id.length < UInt32.size ∧ (∀ f ∈ options.filter, f.ListenerFits) ∧
    ∀ f ∈ options.converter, f.ListenerFits

theorem reads_registrationReader {id : Bytes} {options : ListenerOptions}
    (h : RegistrationFits id options) :
    registrationReader.Reads (addClientListener id options).body (id, options) := by
  rcases h with ⟨hid, hfilter, hconverter⟩
  exact (Block.reads_bytes hid).bind ((reads_flag options.includeState).bind
    ((NamedFactory.reads_listenerReader hfilter).bind
      ((NamedFactory.reads_listenerReader hconverter).bind
        ((reads_flag options.rawData).bind_pure _))))

theorem ensures_registrationReader :
    registrationReader.Ensures fun x => RegistrationFits x.1 x.2 :=
  Block.ensures_bytes.bind fun _ hid => (ensures_true flag).bind fun _ _ =>
    NamedFactory.ensures_listenerReader.bind fun _ hfilter =>
      NamedFactory.ensures_listenerReader.bind fun _ hconverter =>
        (ensures_true flag).bind fun _ _ => ensures_pure ⟨hid, hfilter, hconverter⟩

def segmentBits (segments : Option SegmentSet) : Option Bytes :=
  segments.map fun s => Bitset.ofSegments s.toList

theorem reads_iterationStartReader {filter : Option NamedFactory}
    (h : ∀ f ∈ filter, f.IterationFits) (segments : Option SegmentSet) (batch : UInt32)
    (metadata : Bool) (target : Option NodeAddress) :
    iterationStartReader.Reads (iterationStart segments filter batch metadata target).body
      { segments := segmentBits segments, filter, batch, metadata } := by
  have hsegments : ∀ bits ∈ segmentBits segments, bits.length < 2 ^ 31 := by
    intro bits hbits
    rcases Option.map_eq_some_iff.1 hbits with ⟨s, -, rfl⟩
    exact Nat.lt_of_le_of_lt (Bitset.length_ofSegments_le s.toList) (by decide)
  exact (Block.reads_optionalBytes hsegments).bind ((NamedFactory.reads_iterationReader h).bind
    ((Varint.reads_uint32 batch).bind ((reads_flag metadata).bind_pure _)))

theorem ensures_iterationStartReader :
    iterationStartReader.Ensures fun x => ∀ f ∈ x.filter, f.IterationFits :=
  (ensures_true _).bind fun _ _ => NamedFactory.ensures_iterationReader.bind fun _ hfilter =>
    (ensures_true _).bind fun _ _ => (ensures_true _).bind fun _ _ => ensures_pure hfilter

/-- Whatever follows it, a registration is read back with its factories and all other fields, and
taken to its end, exactly if its factories have names and at most 255 parameters each; for the
start of an iteration the number of parameters alone decides. (Besides, no block is longer than
its length can say.) -/
theorem factories_read_back_iff (tail : Bytes) :
    (∀ id options, registrationReader ((addClientListener id options).body ++ tail) =
        (.ok (id, options), tail) ↔ RegistrationFits id options) ∧
    ∀ segments filter batch metadata target,
      iterationStartReader ((iterationStart segments filter batch metadata target).body ++ tail) =
          (.ok { segments := segmentBits segments, filter, batch, metadata }, tail) ↔
        ∀ f ∈ filter, f.IterationFits := by
  constructor
  · intro id options
    exact ensures_registrationReader.read_back_iff reads_registrationReader tail
  · intro segments filter batch metadata target
    exact ensures_iterationStartReader.read_back_iff
      (fun h => reads_iterationStartReader h segments batch metadata target) tail

/-- A registration with a filter that has no name, for raw data. -/
def unnamedFilter : ListenerOptions where
  filter := some { name := "", params := [] }
  rawData := true

/-- The same with a converter. -/
def unnamedConverter : ListenerOptions where
  converter := some { name := "", params := [] }
  rawData := true

def manyParams : NamedFactory where
  name := "f"
  params := List.replicate 256 [1]

/-- Of a registration whose filter has no name, a server reads neither the filter nor the wish for
raw data, and cannot tell it from one whose converter has no name. Of 256 parameters it reads none:
it takes the first two bytes of them for the size of the batch and the wish for metadata. -/
theorem factories_read_back_iff_unnamed :
    (addClientListener [9] unnamedFilter).body = (addClientListener [9] unnamedConverter).body ∧
      registrationReader ((addClientListener [9] unnamedFilter).body ++ []) =
        (.ok ([9], {}), [1]) ∧
      ¬ RegistrationFits [9] unnamedFilter ∧
      (iterationStartReader ((iterationStart none (some manyParams) 5 false none).body ++ [])).1 =
        .ok {
          segments := none
          filter := some { name := "f", params := [] }
          batch := 1
          metadata := true } ∧
      ¬ ∀ f ∈ some manyParams, f.IterationFits := by
  have hunnamed : registrationReader ((addClientListener [9] unnamedFilter).body ++ []) =
      (.ok ([9], {}), [1]) := by
    decide +kernel
  have hmany : (iterationStartReader
      ((iterationStart none (some manyParams) 5 false none).body ++ [])).1 =
        .ok {
          segments := none
          filter := some { name := "f", params := [] }
          batch := 1
          metadata := true } := by
    decide +kernel
  refine ⟨by decide +kernel, hunnamed, ?_, hmany, ?_⟩
  · intro hfits
    have hread := ((factories_read_back_iff []).1 [9] unnamedFilter).2 hfits
    rw [hunnamed] at hread
    cases hread
  · intro hfits
    have hread := ((factories_read_back_iff []).2 none (some manyParams) 5 false none).2 hfits
    rw [hread] at hmany
    cases hmany

end Operation
end GridClient
