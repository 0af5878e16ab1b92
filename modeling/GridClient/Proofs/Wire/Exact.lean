import GridClient.Expiration
import GridClient.Proofs.Reader.Exact
import GridClient.Wire.Block

/-!
# Fields are read exactly

The fields that frames are made of: words, variable-length integers, blocks and expirations.
-/

namespace GridClient

open Reader

/-!
# Words
-/

namespace Reader

theorem exact_uint16 : Exact uint16 :=
  (exact_take 2 _).bind fun _ => exact_pure _

theorem exact_int32 : Exact int32 :=
  (exact_take 4 _).bind fun _ => exact_pure _

theorem exact_int64 : Exact int64 :=
  (exact_take 8 _).bind fun _ => exact_pure _

theorem exact_uint64 : Exact uint64 :=
  (exact_take 8 _).bind fun _ => exact_pure _

end Reader

/-!
# Variable-length integers
-/

namespace Varint

theorem exact_groups (left shift sum : Nat) : Exact (groups left shift sum) := by
  induction left generalizing shift sum with
  | zero => exact exact_fault _
  | succ left ih =>
      refine exact_byte.bind ?_
      intro b
      dsimp only
      split
      · exact exact_pure _
      · exact ih _ _

theorem exact_uint64 : Exact uint64 :=
  (exact_groups 10 0 0).bind fun _ => exact_pure _

theorem exact_uint32 : Exact uint32 := by
  refine exact_uint64.bind ?_
  intro n
  split
  · exact exact_pure _
  · exact exact_fault _

theorem exact_int32 : Exact int32 :=
  exact_uint32.bind fun _ => exact_pure _

theorem exact_length : Exact length :=
  exact_uint32.bind fun _ => exact_pure _

end Varint

/-!
# Blocks
-/

namespace Block

theorem exact_bytes : Exact bytes :=
  Varint.exact_length.bind fun n => exact_take n _

theorem exact_decodeText (b : Bytes) : Exact (decodeText b) := by
  unfold decodeText
  split
  · exact exact_pure _
  · exact exact_fault _

theorem exact_text : Exact text :=
  exact_bytes.bind exact_decodeText

theorem exact_optionalBytes : Exact optionalBytes := by
  refine Varint.exact_int32.bind ?_
  intro n
  split
  · exact exact_pure _
  · exact (exact_take _ _).bind fun _ => exact_pure _

theorem exact_optionalText : Exact optionalText := by
  refine exact_optionalBytes.bind ?_
  intro b
  cases b with
  | none => exact exact_pure _
  | some b => exact (exact_decodeText b).bind fun _ => exact_pure _

end Block

/-!
# Expirations
-/

theorem Lifetime.exact_reader (unit : UInt8) : Exact (reader unit) := by
  unfold reader
  split
  · exact exact_pure _
  · exact exact_pure _
  · exact Varint.exact_uint64.bind fun _ => exact_pure _
  · exact Varint.exact_uint64.bind fun _ => exact_pure _
  · exact Varint.exact_uint64.bind fun _ => exact_pure _
  · exact exact_fault _

theorem Expiration.exact_reader : Exact reader :=
  exact_byte.bind fun _ => (Lifetime.exact_reader _).bind fun _ =>
    (Lifetime.exact_reader _).bind fun _ => exact_pure _

end GridClient
