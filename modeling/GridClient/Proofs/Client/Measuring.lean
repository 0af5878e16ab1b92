import GridClient.Proofs.Client.Processing

/-!
# What a client measures

A client records what it is told to record, and each topology that it is offered and can take.
It is shared, so that others have their measurements recorded in between. In the end a client
has what it had before, what others have recorded, and what has been asked of it, in some order.
-/

namespace GridClient

open Exchange

namespace Exchange

/-- What is recorded when something has been asked and answered. -/
def recorded : Program.Event Answer → List Measurement
  | ⟨.record m, _⟩ => [m]
  | ⟨.install cache u, .ok applied⟩ => [.topologyUpdate (Utf8.lossy cache) u.id applied]
  | _ => []

/-- All that is recorded along a trace, in order. -/
def measured (trace : Trace) : List Measurement :=
  trace.flatMap recorded

theorem measured_append (first last : Trace) :
    measured (first ++ last) = measured first ++ measured last :=
  List.flatMap_append

theorem recorded_of_isForeign {q : Ask} (hq : q.IsForeign) (given : Answer q) :
    recorded ⟨q, given⟩ = [] := by
  cases q with
  | messageId | record | install => exact hq.elim
  | _ => rfl

end Exchange

namespace Client

/-- What a client has recorded after an answer. -/
theorem measurements_answer (q : Ask) (c : Client) :
    (answer q c).2.measurements = recorded ⟨q, (answer q c).1⟩ ++ c.measurements := by
  cases q with
  | install cache u =>
      change (c.install cache u).2.measurements =
        recorded ⟨.install cache u, (c.install cache u).1⟩ ++ c.measurements
      unfold install
      cases c.registry.apply cache u <;> rfl
  | _ => rfl

/-- A client answers what concerns it in a trace, and is left as another one. In between others
may have worked with it, and have had measurements recorded. -/
inductive Measures : Client → Exchange.Trace → List Measurement → Client → Prop where
  | nil (c : Client) : Measures c [] [] c
  | meanwhile {c d e : Client} {trace : Exchange.Trace} {more others : List Measurement}
      (hevolves : c.registry.Evolves d.registry)
      (hmore : d.measurements = more ++ c.measurements) (h : Measures d trace others e) :
      Measures c trace (more ++ others) e
  | answered {c e : Client} {q : Ask} {rest : Exchange.Trace} {others : List Measurement}
      (h : Measures (answer q c).2 rest others e) :
      Measures c (⟨q, (answer q c).1⟩ :: rest) others e
  | foreign {c e : Client} {q : Ask} {given : Exchange.Answer q} {rest : Exchange.Trace}
      {others : List Measurement} (hq : q.IsForeign) (h : Measures c rest others e) :
      Measures c (⟨q, given⟩ :: rest) others e

namespace Measures

variable {c e : Client} {trace : Exchange.Trace} {others : List Measurement}

/-- Nothing is lost and nothing is recorded twice. -/
theorem perm (h : c.Measures trace others e) :
    e.measurements.Perm (measured trace ++ (others ++ c.measurements)) := by
  induction h with
  | nil c => exact .refl _
  | @meanwhile c d e trace more others hevolves hmore h ih =>
      rw [hmore] at ih
      rw [List.append_assoc]
      exact ih.trans ((List.perm_append_comm_assoc others more _).append_left _)
  | @answered c e q rest others h ih =>
      rw [measurements_answer] at ih
      rw [measured, List.flatMap_cons, List.append_assoc]
      exact ih.trans (((List.perm_append_comm_assoc others _ _).append_left _).trans
        (List.perm_append_comm_assoc _ _ _))
  | @foreign c e q given rest others hq h ih =>
      rw [measured, List.flatMap_cons, recorded_of_isForeign hq]
      exact ih

theorem serves (h : c.Measures trace others e) : c.Serves trace e := by
  induction h with
  | nil c => exact .nil c
  | meanwhile hevolves hmore h ih => exact .meanwhile hevolves ih
  | @answered c e q rest others h ih =>
      cases q with
      | messageId => exact .numbers ih
      | record m => exact .records ih
      | install cache u => exact .installs ih
      | _ => exact .foreign trivial ih
  | foreign hq h ih => exact .foreign hq ih

end Measures

end Client
end GridClient
