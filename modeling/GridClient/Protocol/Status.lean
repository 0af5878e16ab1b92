/-!
# Response statuses

The status byte of an answer. Any byte may arrive; the predicates sort the known
ones.
-/

namespace GridClient

structure Status where
  code : UInt8
  deriving DecidableEq, Repr

namespace Status

def isSuccess (s : Status) : Bool :=
  s.code == 0x00 || s.code == 0x03 || s.code == 0x06 || s.code == 0x07

def isNotExecuted (s : Status) : Bool :=
  s.code == 0x01 || s.code == 0x04 || s.code == 0x08

def isNotExist (s : Status) : Bool :=
  s.code == 0x02

/-- The body starts with the previous value. -/
def hasPrevious (s : Status) : Bool :=
  s.code == 0x03 || s.code == 0x04 || s.code == 0x07 || s.code == 0x08

def isInvalidIteration (s : Status) : Bool :=
  s.code == 0x05

def isError (s : Status) : Bool :=
  0x80 ≤ s.code

/-- The node is leaving or not ready: another attempt may succeed. -/
def isTransient (s : Status) : Bool :=
  s.code == 0x87 || s.code == 0x88

theorem isError_of_isTransient {s : Status} (h : s.isTransient) : s.isError := by
  obtain ⟨c⟩ := s
  simp only [isTransient, Bool.or_eq_true, beq_iff_eq] at h
  rcases h with rfl | rfl <;> decide

end Status
end GridClient
