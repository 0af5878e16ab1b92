import GridClient.Wire.Block

/-!
# Chunked values

A large value is sent as a sequence of non-empty blocks that an empty block ends.
-/

namespace GridClient

/-- Under which condition a chunked write takes effect. -/
inductive WriteCondition where
  | always
  | ifAbsent
  | ifVersion (version : UInt64)
  deriving DecidableEq, Repr

/-- The version that stands for the condition on the wire. -/
def WriteCondition.wireVersion : WriteCondition → UInt64
  | always => 0
  | ifAbsent => 0xFFFFFFFFFFFFFFFF
  | ifVersion v => v

namespace Chunked

/-- Pieces of `size` bytes, at least one, of which only the last may be shorter. -/
def pieces (size : Nat) (value : Bytes) : List Bytes :=
  match value with
  | [] => []
  | b :: rest =>
      (b :: rest).take (max size 1) :: pieces size ((b :: rest).drop (max size 1))
termination_by value.length
decreasing_by
  simp only [List.length_drop, List.length_cons]
  omega

def toBytes (size : Nat) (value : Bytes) : Bytes :=
  ((pieces size value).map Block.ofBytes).flatten ++ Block.ofBytes []

end Chunked
end GridClient
