import GridClient.Attempt.Basic

/-!
# Calls

What a call asks of its surroundings: the time, the current topology of a cache,
that attempts be made, singly or side by side, and that measurements be recorded.
A call may also leave a note, which says how far it has come should it be dropped
while it waits.
-/

namespace GridClient
namespace Call

/-- A round makes its attempts side by side; what each outcome adds to the metrics
is recorded as it arrives. -/
inductive Ask (σ : Type) where
  | now
  | topology (cache : Bytes)
  | record (m : Measurement)
  | note (s : σ)
  | attempt {op : OpCode} (a : Attempt op)
  | round {op : OpCode} (as : List (Attempt op)) (arrival : Outcome op.Reply → List Measurement)

/-- The answers. A round is answered by its outcomes in the order in which the
attempts ended, each with the place of its attempt. -/
abbrev Answer (σ : Type) : Ask σ → Type
  | .now => Instant
  | .topology _ => Topology
  | .record _ => Unit
  | .note _ => Unit
  | @Ask.attempt _ op _ => Outcome op.Reply
  | @Ask.round _ op _ _ => List (Nat × Outcome op.Reply)

end Call

abbrev Call (σ α : Type) : Type :=
  Program (Call.Answer σ) α

namespace Call

variable {σ : Type}

def now : Call σ Instant :=
  .ask .now .done

def topology (cache : Bytes) : Call σ Topology :=
  .ask (.topology cache) .done

def record (m : Measurement) : Call σ Unit :=
  .ask (.record m) .done

def note (s : σ) : Call σ Unit :=
  .ask (.note s) .done

def attempt {op : OpCode} (a : Attempt op) : Call σ (Outcome op.Reply) :=
  .ask (.attempt a) .done

def round {op : OpCode} (as : List (Attempt op)) (arrival : Outcome op.Reply → List Measurement) :
    Call σ (List (Nat × Outcome op.Reply)) :=
  .ask (.round as arrival) .done

end Call
end GridClient
