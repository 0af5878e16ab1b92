import GridClient.Proofs.Attempt.Frames
import GridClient.Proofs.Client.Serving

/-!
# How a client processes a response

A response is taken by the attempt that waits for it or, when the attempt has been given up, by
the wait for late responses. What it makes of the topologies that the client knows is the same:
the topology of a response with the number of the request is offered for the cache of the
request. All other responses change nothing.
-/

namespace GridClient

/-- A program that is followed by another one is answered one after the other. -/
theorem Program.play_bind {Ask : Type} {Answer : Ask → Type} {α β μ : Type}
    (answer : (q : Ask) → μ → Answer q × μ) (p : Program Answer α) (f : α → Program Answer β)
    (m : μ) :
    ((p >>= f).play answer m).2 =
      ((f (p.play answer m).2.1).play answer (p.play answer m).2.2).2 := by
  induction p generalizing m with
  | done a => rfl
  | ask q next ih => exact ih _ (answer q m).2

namespace Client

variable {α β : Type}

/-- The answers of a client by itself: nothing comes from the nodes. -/
def answer : (q : Exchange.Ask) → Client → Exchange.Answer q × Client
  | .messageId, c => c.number
  | .enter _, c => ((), c)
  | .record m, c => ((), c.record m)
  | .acquire _ _, c => (.late, c)
  | .write _ _ _, c => (.late, c)
  | .read _ _, c => (.late, c)
  | .giveBack _ _, c => ((), c)
  | .install cache u, c => c.install cache u
  | .drain _, c => ((), c)

/-- The client when it has answered an exchange. -/
def after (c : Client) (p : Exchange α) : Client :=
  (p.play answer c).2.2

theorem after_bind (c : Client) (p : Exchange α) (f : α → Exchange β) :
    c.after (p >>= f) = (c.after p).after (f (p.play answer c).2.1) :=
  congrArg Prod.snd (Program.play_bind answer p f c)

end Client

/-!
# What is heard
-/

/-- What a registry has become when a frame has been processed on behalf of a request, which
is known by its number. -/
structure Registry.Heard (r : Registry) (intelligence : Intelligence) (cache : Bytes)
    (id : UInt64) (frame : Bytes) (s : Registry) : Prop where
  garbled : ∀ e, (ResponseHeader.reader intelligence).value frame = .error e → s = r
  stray : ∀ h, (ResponseHeader.reader intelligence).value frame = .ok h → h.messageId ≠ id → s = r
  plain : ∀ h, (ResponseHeader.reader intelligence).value frame = .ok h → h.topology = none → s = r
  refused : ∀ h u e, (ResponseHeader.reader intelligence).value frame = .ok h →
    h.topology = some u → Topology.ofUpdate u r.intelligence = .error e → s = r
  offered : ∀ h u t, (ResponseHeader.reader intelligence).value frame = .ok h →
    h.messageId = id → h.topology = some u → Topology.ofUpdate u r.intelligence = .ok t →
      s = (r.offer cache t).2

namespace Client

variable {op : OpCode} {c : Client}

theorem registry_install_refused {u : TopologyUpdate} {e : ClientError}
    (h : Topology.ofUpdate u c.registry.intelligence = .error e) (cache : Bytes) :
    (c.install cache u).2.registry = c.registry := by
  unfold install Registry.apply
  rw [h]
  rfl

/-- The registry when a frame has been processed, by what its header says. -/
def hear (c : Client) (intelligence : Intelligence) (cache : Bytes) (id : UInt64)
    (frame : Bytes) : Registry :=
  match (ResponseHeader.reader intelligence).value frame with
  | .error _ => c.registry
  | .ok h =>
      if h.messageId = id then
        match h.topology with
        | none => c.registry
        | some u => (c.install cache u).2.registry
      else c.registry

theorem heard_hear (c : Client) (intelligence : Intelligence) (cache : Bytes) (id : UInt64)
    (frame : Bytes) :
    c.registry.Heard intelligence cache id frame (c.hear intelligence cache id frame) := by
  unfold hear
  constructor
  case garbled =>
    intro e hread
    rw [hread]
  case stray =>
    intro h hread hid
    rw [hread]
    exact if_neg hid
  case plain =>
    intro h hread htopology
    rw [hread]
    dsimp only
    rw [htopology]
    exact ite_self c.registry
  case refused =>
    intro h u e hread htopology hu
    rw [hread]
    dsimp only
    rw [htopology]
    dsimp only
    rw [registry_install_refused hu]
    exact ite_self c.registry
  case offered =>
    intro h u t hread hid htopology hu
    rw [hread]
    dsimp only
    rw [if_pos hid, htopology]
    exact registry_install hu

/-!
# In time and late
-/

theorem registry_interpret (c : Client) (a : Attempt op) (id : UInt64) (channel : Channel)
    (frame : Bytes) :
    (c.after (a.interpret id channel frame)).registry =
      c.hear a.intelligence a.cache id frame := by
  have hvalue : (ResponseHeader.reader a.intelligence).value frame =
      ((ResponseHeader.reader a.intelligence).run frame).1 := rfl
  unfold Attempt.interpret hear
  rw [hvalue]
  rcases (ResponseHeader.reader a.intelligence).run frame with ⟨e | h, body⟩
  · rfl
  · dsimp only
    split
    · unfold Attempt.settle
      cases h.topology with
      | none => rfl
      | some u =>
          dsimp only
          rw [after_bind]
          rcases ((Exchange.install a.cache u).play answer c).2.1 with e | applied
          · rfl
          · dsimp only
            split <;> rfl
    · rfl

/-- What follows the interpretation of a response does not concern topologies. -/
theorem registry_conclude (c : Client) (a : Attempt op) (id : UInt64) (g : Guard)
    (frame : Bytes) :
    (c.after (a.conclude id g frame)).registry = c.hear a.intelligence a.cache id frame := by
  rw [← registry_interpret c a id g.channel]
  unfold Attempt.conclude
  rw [after_bind]
  rcases ((a.interpret id g.channel frame).play answer c).2.1 with e | o
  · rfl
  · cases o <;> rfl

theorem registry_take (c : Client) (r : LateResponse) (g : Guard) (frame : Bytes) :
    (c.after (r.take g frame)).registry = c.hear r.intelligence r.cache r.messageId frame := by
  unfold LateResponse.take hear
  cases (ResponseHeader.reader r.intelligence).value frame with
  | error e => rfl
  | ok h =>
      dsimp only
      split
      · cases h.topology with
        | none => rfl
        | some u => rfl
      · rfl

end Client
end GridClient
