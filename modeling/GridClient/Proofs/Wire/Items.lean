import GridClient.Proofs.Wire.Groups
import GridClient.Proofs.Wire.RoundTrip

/-!
# Items in sequence

The parts of a message follow one another without anything between them, so whoever reads them has
to know their kinds. Each kind of item has a reader that takes the bytes of one item and no other,
and a number in groups is written with as few bytes as any spelling of it has.
-/

namespace GridClient

open Reader

/-!
# Kinds of items
-/

inductive Kind where
  | uint32
  | uint64
  | int32
  | bytes
  | text
  | optionalBytes
  | optionalText

namespace Kind

abbrev Value : Kind → Type
  | uint32 => UInt32
  | uint64 => UInt64
  | int32 => Int32
  | bytes => Bytes
  | text => String
  | optionalBytes => Option Bytes
  | optionalText => Option String

def write : (k : Kind) → k.Value → Bytes
  | uint32 => Varint.ofUInt32
  | uint64 => Varint.ofUInt64
  | int32 => Varint.ofInt32
  | bytes => Block.ofBytes
  | text => Block.ofText
  | optionalBytes => Block.ofOptionalBytes
  | optionalText => Block.ofOptionalText

def reader : (k : Kind) → Reader k.Value
  | uint32 => Varint.uint32
  | uint64 => Varint.uint64
  | int32 => Varint.int32
  | bytes => Block.bytes
  | text => Block.text
  | optionalBytes => Block.optionalBytes
  | optionalText => Block.optionalText

/-- The length has 32 bits, of which one is a sign where the item may be absent. -/
def Fits : (k : Kind) → k.Value → Prop
  | uint32, _ => True
  | uint64, _ => True
  | int32, _ => True
  | bytes, b => b.length < UInt32.size
  | text, s => (Bytes.ofText s).length < UInt32.size
  | optionalBytes, b => ∀ bytes ∈ b, bytes.length < 2 ^ 31
  | optionalText, s => ∀ text ∈ s, (Bytes.ofText text).length < 2 ^ 31

theorem reads_reader {k : Kind} {v : k.Value} (h : k.Fits v) : k.reader.Reads (k.write v) v := by
  cases k with
  | uint32 => exact Varint.reads_uint32 v
  | uint64 => exact Varint.reads_uint64 v
  | int32 => exact Varint.reads_int32 v
  | bytes => exact Block.reads_bytes h
  | text => exact Block.reads_text h
  | optionalBytes => exact Block.reads_optionalBytes h
  | optionalText => exact Block.reads_optionalText h

end Kind

structure Item where
  kind : Kind
  value : kind.Value

namespace Item

def toBytes (item : Item) : Bytes :=
  item.kind.write item.value

def Fits (item : Item) : Prop :=
  item.kind.Fits item.value

/-- Reads one item of each of these kinds, in their order. -/
def readAll : List Kind → Reader (List Item)
  | [] => return []
  | k :: kinds => do
      let v ← k.reader
      let items ← readAll kinds
      return ⟨k, v⟩ :: items

def writeAll (items : List Item) : Bytes :=
  (items.map toBytes).flatten

theorem reads_readAll {items : List Item} (h : ∀ item ∈ items, item.Fits) :
    (readAll (items.map kind)).Reads (writeAll items) items := by
  induction items with
  | nil => exact reads_pure []
  | cons item items ih =>
      rcases List.forall_mem_cons.1 h with ⟨hitem, hitems⟩
      -- the rest of the items starts where the reader of the first one has stopped
      exact (Kind.reads_reader hitem).bind ((ih hitems).bind_pure (List.cons item))

end Item

/-!
# Short numbers
-/

/-- The reader makes the value of these bytes, and of no fewer bytes. -/
def Reader.Shortest {α : Type} (r : Reader α) (taken : Bytes) (a : α) : Prop :=
  r.Reads taken a ∧ ∀ buffer rest, r buffer = (.ok a, rest) → taken.length ≤ buffer.length

namespace Varint

theorem length_ofNat_le_iff {n k : Nat} : (ofNat n).length ≤ k + 1 ↔ n < 128 ^ (k + 1) := by
  induction k generalizing n with
  | zero =>
      rw [ofNat]
      split
      · next hlast => simpa using hlast
      · next hmore =>
        refine iff_of_false ?_ hmore
        rw [ofNat]
        split <;> simp
  | succ k ih =>
      rw [ofNat]
      split
      · next hlast =>
        refine iff_of_true (by simp) (Nat.lt_of_lt_of_le hlast ?_)
        exact Nat.le_self_pow (Nat.succ_ne_zero _) 128
      · next hmore =>
        rw [List.length_cons, Nat.succ_le_succ_iff, ih, Nat.div_lt_iff_lt_mul (by decide),
          ← Nat.pow_succ]

theorem length_ofUInt64_le (v : UInt64) : (ofUInt64 v).length ≤ 10 :=
  length_ofNat_le_iff.2 (Nat.lt_trans v.toNat_lt (by decide))

/-- Groups that add nothing make a number longer, but never shorter. -/
theorem shortest_ofUInt64 (v : UInt64) : uint64.Shortest (ofUInt64 v) v := by
  refine ⟨reads_uint64 v, ?_⟩
  intro buffer rest hread
  rcases uint64_eq_ok_iff.1 hread with ⟨taken, rfl, htaken, -, hv⟩
  -- the value is at most the sum of the groups, also if the high bits of the tenth one are lost
  have hsmall : v.toNat < 128 ^ taken.length := by
    rw [hv]
    exact Nat.lt_of_le_of_lt (Nat.mod_le _ _) (total_lt taken)
  have hlength : (ofUInt64 v).length ≤ taken.length := by
    cases htaken with
    | last h => exact length_ofNat_le_iff.2 hsmall
    | more h hlater => exact length_ofNat_le_iff.2 hsmall
  rw [List.length_append]
  exact Nat.le_trans hlength (Nat.le_add_right _ _)

end Varint

namespace Item

/-- Items that are written one after another are read as the same items, without touching the
bytes behind them. A number of 64 bits takes ten bytes at most, and none could be saved. -/
theorem read_in_sequence :
    (∀ items : List Item, (∀ item ∈ items, item.Fits) → ∀ rest,
      readAll (items.map kind) (writeAll items ++ rest) = (.ok items, rest)) ∧
    ∀ v : UInt64, (Varint.ofUInt64 v).length ≤ 10 ∧
      Varint.uint64.Shortest (Varint.ofUInt64 v) v :=
  ⟨fun _ hfits => reads_readAll hfits,
    fun v => ⟨Varint.length_ofUInt64_le v, Varint.shortest_ofUInt64 v⟩⟩

/-- Values at the ends of their ranges, empty and absent blocks. -/
def assorted : List Item :=
  [⟨.int32, -2147483648⟩, ⟨.uint32, 127⟩, ⟨.uint32, 128⟩, ⟨.optionalBytes, none⟩,
    ⟨.optionalBytes, some []⟩, ⟨.text, "ä"⟩, ⟨.optionalText, some ""⟩, ⟨.bytes, [255]⟩,
    ⟨.uint64, 18446744073709551615⟩]

def assortedBytes : Bytes :=
  [255, 255, 255, 255, 15, 127, 128, 1, 1, 0, 2, 195, 164, 0, 1, 255] ++
    List.replicate 9 255 ++ [1]

theorem read_in_sequence_assorted :
    (∀ item ∈ assorted, item.Fits) ∧ writeAll assorted = assortedBytes ∧
      readAll (assorted.map kind) (assortedBytes ++ [7]) = (.ok assorted, [7]) ∧
      ∀ buffer rest, Varint.uint64 buffer = (.ok 9223372036854775808, rest) →
        10 ≤ buffer.length := by
  have hfits : ∀ item ∈ assorted, item.Fits := by
    simp only [assorted, List.forall_mem_cons, Fits, Kind.Fits]
    refine ⟨trivial, trivial, trivial, nofun, ?_, by decide, ?_, by decide, trivial, nofun⟩
    · rintro _ ⟨⟩
      decide
    · rintro _ ⟨⟩
      decide
  have hbytes : writeAll assorted = assortedBytes := by
    decide +kernel
  have hten : (Varint.ofUInt64 9223372036854775808).length = 10 := by
    decide +kernel
  refine ⟨hfits, hbytes, ?_, ?_⟩
  · rw [← hbytes]
    exact read_in_sequence.1 assorted hfits [7]
  · rw [← hten]
    exact (read_in_sequence.2 9223372036854775808).2.2

end Item
end GridClient
