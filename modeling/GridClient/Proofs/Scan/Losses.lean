import Mathlib.Data.List.Basic
import GridClient.Proofs.Scan.Life

/-!
# Lost pages

A page is lost when its answer is thrown away because the topology has changed, or when
its node cannot be reached. Every loss is recorded; then the call recovers from it, or
gives up.
-/

namespace GridClient
namespace Scan

/-- The cause of the loss that is recorded, if one is. -/
def lossOf (e : Event) : Option String :=
  match e.ask with
  | .record (.retry op cause) => if op = OpCode.iterationNext.name then some cause else none
  | _ => none

def losses (trace : Trace) : Nat :=
  trace.countP fun e => (lossOf e).isSome

/-- The call ends with an error right after it has recorded a loss. -/
structure Called.GivesUp (c : Called) (cause : String) : Prop where
  error : ∃ n, c.ending = .returned (.error (.topologyUnstable n s!"scan interrupted by {cause}"))
  loss : c.trace.getLast?.bind lossOf = some cause

/-!
# Where losses are recorded
-/

theorem lossOf_of_serves {op : OpCode} (hop : op.name ≠ OpCode.iterationNext.name) {e : Event}
    (h : e.ask.Serves op) : lossOf e = none := by
  rcases e with ⟨ask, answer⟩
  cases ask with
  | record m =>
      rcases h with ⟨cause, rfl⟩
      exact if_neg hop
  | _ => rfl

theorem losses_eq_zero {trace : Trace} (h : ∀ e ∈ trace, lossOf e = none) : losses trace = 0 := by
  apply List.countP_eq_zero.2
  intro e he
  rw [h e he]
  exact Bool.false_ne_true

@[simp] theorem losses_nil : losses [] = 0 :=
  rfl

@[simp] theorem losses_append (first last : Trace) :
    losses (first ++ last) = losses first + losses last :=
  List.countP_append

@[simp] theorem losses_note (s : Scan) (rest : Trace) :
    losses (⟨.note s, ()⟩ :: rest) = losses rest :=
  List.countP_cons_of_neg Bool.false_ne_true

@[simp] theorem losses_topology (cache : Bytes) (t : Topology) (rest : Trace) :
    losses (⟨.topology cache, t⟩ :: rest) = losses rest :=
  List.countP_cons_of_neg Bool.false_ne_true

@[simp] theorem losses_pulled (s : Scan) (a : ActiveIteration) (t : Topology) (time : Instant)
    (o : Outcome Page) : losses (s.pulled a t time o) = 0 :=
  rfl

@[simp] theorem losses_losing (s : Scan) (t : Topology) (cause : String) :
    losses (s.losing t cause) = 1 :=
  rfl

@[simp] theorem losses_repeats (s : Scan) (page : Page) : losses (s.repeats page) = 0 := by
  unfold repeats
  dsimp only
  split <;> rfl

theorem CarriesOut.losses_eq_zero {op : OpCode} (hop : op.name ≠ OpCode.iterationNext.name)
    {operation : Operation op} {trace : Trace} {stand : Stand (Except ClientError op.Reply)}
    (h : CarriesOut operation trace stand) : losses trace = 0 :=
  Scan.losses_eq_zero fun e he => lossOf_of_serves hop (h.serves e he)

/-!
# Which calls give up
-/

theorem not_givesUp_of_ok {trace : Trace} {page : Option (List ScanEntry)} {cause : String} :
    ¬ Called.GivesUp ⟨trace, .returned (.ok page)⟩ cause := by
  intro hup
  rcases hup with ⟨⟨n, h⟩, -⟩
  cases h

/-- A call that ends without a loss does not give up. -/
theorem not_givesUp_of_note {first rest : Trace} {s : Scan} {ending : Ending} {cause : String}
    (h : ∀ e ∈ rest, lossOf e = none) :
    ¬ Called.GivesUp ⟨first ++ ⟨.note s, ()⟩ :: rest, ending⟩ cause := by
  intro hup
  rcases hup with ⟨-, hloss⟩
  rw [List.getLast?_append_of_ne_nil _ (List.cons_ne_nil _ _),
    List.getLast?_eq_some_getLast (List.cons_ne_nil _ _)] at hloss
  have hlast := List.getLast_mem (List.cons_ne_nil (⟨.note s, ()⟩ : Event) rest)
  rcases List.mem_cons.1 hlast with hnote | hrest
  · rw [hnote] at hloss
    cases hloss
  · rw [Option.bind_some, h _ hrest] at hloss
    cases hloss

theorem givesUp_of_losing (first : Trace) (s t : Scan) (u : Topology) (cause : String) :
    Called.GivesUp ⟨first ++ s.losing u cause, .returned (t.givingUp cause)⟩ cause where
  error := ⟨t.failures, rfl⟩
  loss := by
    have hlast : (first ++ s.losing u cause).getLast? = (s.losing u cause).getLast? :=
      List.getLast?_append_of_ne_nil first (List.cons_ne_nil _ _)
    dsimp only
    rw [hlast]
    rfl

theorem Called.GivesUp.cause_eq {c : Called} {cause other : String} (h : c.GivesUp cause)
    (h' : c.GivesUp other) : cause = other :=
  Option.some_inj.1 (h.loss.symm.trans h'.loss)

end Scan
end GridClient
