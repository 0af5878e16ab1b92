import GridClient.Proofs.Attempt.Frames
import GridClient.Proofs.Call.Reach
import GridClient.Proofs.Program.Gather

/-!
# Carrying out what a call asks

A call asks for attempts, singly or in rounds, and goes on with their outcomes. The outcome
of an attempt is what its own run has come to. The attempts of a round are run side by side,
and the round is over when all of them are.
-/

namespace GridClient
namespace Call

variable {σ α : Type}

/-- The attempts of a round, at their places. -/
def placed {op : OpCode} (as : List (Attempt op)) : List (Nat × Exchange (Outcome op.Reply)) :=
  as.zipIdx.map fun (a, place) => (place, a.run)

/-- The answer is what has come of carrying out the ask. -/
inductive Event.Carried : Event σ → Prop where
  | attempt {op : OpCode} {a : Attempt op} {o : Outcome op.Reply} {run : Exchange.Trace}
      (h : Exchange.Reaches a.run run (.done o)) : Carried ⟨.attempt a, o⟩
  | round {op : OpCode} {as : List (Attempt op)} {arrival : Outcome op.Reply → List Measurement}
      {outcomes : List (Nat × Outcome op.Reply)} (h : Program.Gathers (placed as) outcomes) :
      Carried ⟨.round as arrival, outcomes⟩
  | atOnce {e : Event σ} (h : ¬ e.ask.Waits) : Carried e

/-!
# Rounds
-/

/-- A round that a call has asked for. It has outcomes once it is over. -/
structure Sent where
  op : OpCode
  attempts : List (Attempt op)
  outcomes : Option (List (Nat × Outcome op.Reply))

namespace Sent

/-- The round is over: every attempt has ended, with the outcome that its run has come to. -/
structure Over (x : Sent) (outcomes : List (Nat × Outcome x.op.Reply)) : Prop where
  outcomes_eq : x.outcomes = some outcomes
  places_perm : (outcomes.map Prod.fst).Perm (List.range x.attempts.length)
  reaches : ∀ arrived ∈ outcomes, ∃ a : Attempt x.op, x.attempts[arrived.1]? = some a ∧
    ∃ run, Exchange.Reaches a.run run (.done arrived.2)

end Sent

theorem places_placed {op : OpCode} (as : List (Attempt op)) :
    (placed as).map Prod.fst = List.range as.length := by
  unfold placed
  rw [List.map_map, List.range_eq_range', ← List.zipIdx_map_snd 0 as]
  rfl

theorem over_of_carried {op : OpCode} {as : List (Attempt op)}
    {arrival : Outcome op.Reply → List Measurement} {outcomes : List (Nat × Outcome op.Reply)}
    (h : Event.Carried (⟨.round as arrival, outcomes⟩ : Event σ)) :
    Sent.Over ⟨op, as, some outcomes⟩ outcomes := by
  have hgathers : Program.Gathers (placed as) outcomes := by
    cases h with
    | round h => exact h
    | atOnce h => exact absurd trivial h
  constructor
  case outcomes_eq => rfl
  case places_perm =>
    rw [← places_placed as]
    exact hgathers.places_perm
  case reaches =>
    intro arrived harrived
    rcases hgathers.reaches Exchange.Ask.Waits arrived harrived with ⟨p, hmem, hrun⟩
    rcases List.mem_map.1 hmem with ⟨⟨a, place⟩, hplaced, heq⟩
    rcases Prod.mk.inj heq with ⟨rfl, rfl⟩
    exact ⟨a, List.mem_zipIdx_iff_getElem?.1 hplaced, hrun⟩

def Event.sent? : Event σ → Option Sent
  | ⟨.round as _, outcomes⟩ => some ⟨_, as, some outcomes⟩
  | _ => none

def Ask.sent? : Ask σ → Option Sent
  | .round as _ => some ⟨_, as, none⟩
  | _ => none

/-- The rounds that a call has asked for, in order. The last one may not be over. -/
def rounds : Trace σ → Stand σ α → List Sent
  | [], .done _ => []
  | [], .waiting q => q.sent?.toList
  | e :: rest, stand => (Event.sent? e).toList ++ rounds rest stand

/-- Everything that a call has asked for, in order. -/
def asked : Trace σ → Stand σ α → List (Ask σ)
  | [], .done _ => []
  | [], .waiting q => [q]
  | e :: rest, stand => e.ask :: asked rest stand

variable {trace : Trace σ} {stand : Stand σ α}

theorem rounds_cons (e : Event σ) (trace : Trace σ) (stand : Stand σ α) :
    rounds (e :: trace) stand = (Event.sent? e).toList ++ rounds trace stand := by
  cases trace <;> rfl

theorem asked_cons (e : Event σ) (trace : Trace σ) (stand : Stand σ α) :
    asked (e :: trace) stand = e.ask :: asked trace stand := by
  cases trace <;> rfl

theorem mem_asked {q : Ask σ} :
    q ∈ asked trace stand ↔ (∃ e ∈ trace, e.ask = q) ∨ stand = .waiting q := by
  induction trace with
  | nil => cases stand <;> simp [asked, eq_comm]
  | cons e rest ih => simp [asked_cons, ih, or_assoc, eq_comm]

theorem mem_rounds_of_mem_asked {op : OpCode} {as : List (Attempt op)}
    {arrival : Outcome op.Reply → List Measurement} (h : .round as arrival ∈ asked trace stand) :
    ∃ outcomes, ⟨op, as, outcomes⟩ ∈ rounds trace stand := by
  induction trace with
  | nil =>
      cases stand with
      | done a => cases h
      | waiting q =>
          rcases List.mem_singleton.1 h with rfl
          exact ⟨none, List.mem_singleton_self _⟩
  | cons e rest ih =>
      rw [asked_cons, List.mem_cons] at h
      rw [rounds_cons]
      rcases h with hhere | hlater
      · rcases e with ⟨ask, answer⟩
        cases hhere
        exact ⟨some answer, List.mem_append_left _ (List.mem_singleton_self _)⟩
      · rcases ih hlater with ⟨outcomes, hmem⟩
        exact ⟨outcomes, List.mem_append_right _ hmem⟩

/-!
# Frames
-/

/-- The attempts that an ask sets going. -/
inductive Ask.Makes : Ask σ → {op : OpCode} → Attempt op → Prop where
  | attempt {op : OpCode} (a : Attempt op) : Makes (.attempt a) a
  | round {op : OpCode} {as : List (Attempt op)} {a : Attempt op}
      (arrival : Outcome op.Reply → List Measurement) (h : a ∈ as) : Makes (.round as arrival) a

/-- A frame that some attempt of a call may have written by now. -/
def Writes (trace : Trace σ) (stand : Stand σ α) (frame : Bytes) : Prop :=
  ∃ q ∈ asked trace stand, ∃ (op : OpCode) (a : Attempt op), q.Makes a ∧
    ∃ run inner, Exchange.Reaches a.run run inner ∧ frame ∈ Exchange.frames run inner

/-- A frame is that of an attempt, which has been made singly or in a round. -/
theorem eq_frame_of_writes {frame : Bytes} (h : Writes trace stand frame) :
    ∃ (op : OpCode) (a : Attempt op) (id : UInt64) (version : Version),
      frame = a.frame id version ∧ (.attempt a ∈ asked trace stand ∨
        ∃ as outcomes, ⟨op, as, outcomes⟩ ∈ rounds trace stand ∧ a ∈ as) := by
  rcases h with ⟨q, hasked, op, a, hmakes, run, inner, hrun, hframe⟩
  rcases Attempt.frames_run hrun with ⟨hnone, -⟩ | ⟨id, version, hone⟩
  · rw [hnone] at hframe
    cases hframe
  · rw [hone] at hframe
    refine ⟨op, a, id, version, List.mem_singleton.1 hframe, ?_⟩
    cases hmakes with
    | attempt => exact Or.inl hasked
    | @round _ as _ arrival hmem =>
        rcases mem_rounds_of_mem_asked hasked with ⟨outcomes, hround⟩
        exact Or.inr ⟨as, outcomes, hround, hmem⟩

end Call
end GridClient
