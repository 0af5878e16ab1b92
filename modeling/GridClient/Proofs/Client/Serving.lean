import GridClient.Proofs.Attempt.Frames
import GridClient.Proofs.Frame.Faults
import GridClient.Proofs.Topology.Evolution

/-!
# How a client serves its exchanges

A client numbers the requests of its exchanges, records their measurements and installs the
topologies that they bring. It is shared, so that between two asks of an exchange others may
have worked with it.
-/

namespace GridClient

namespace Registry

variable {r s t : Registry}

theorem Evolves.trans (h : r.Evolves s) (h' : s.Evolves t) : r.Evolves t := by
  induction h' with
  | refl => exact h
  | touch h' cache ih => exact ih.touch cache
  | offer h' cache u ih => exact ih.offer cache u

theorem owns_touch (r : Registry) (cache : Bytes) : (r.touch cache).Owns cache := by
  unfold touch
  split
  · next h => rwa [Bool.or_eq_true, decide_eq_true_eq] at h
  · refine Or.inr ?_
    rw [Table.contains_insert, decide_eq_true rfl, Bool.true_or]

theorem owns_offer (r : Registry) (cache : Bytes) (t : Topology) :
    (r.offer cache t).2.Owns cache := by
  unfold offer
  dsimp only
  split
  · exact (owns_touch r cache).install cache t
  · exact owns_touch r cache

theorem intelligence_touch (r : Registry) (cache : Bytes) :
    (r.touch cache).intelligence = r.intelligence := by
  unfold touch
  split <;> rfl

theorem intelligence_offer (r : Registry) (cache : Bytes) (t : Topology) :
    (r.offer cache t).2.intelligence = r.intelligence := by
  unfold offer install
  dsimp only
  split
  · split <;> exact intelligence_touch r cache
  · exact intelligence_touch r cache

theorem Evolves.intelligence_eq (h : r.Evolves s) : s.intelligence = r.intelligence := by
  induction h with
  | refl => rfl
  | touch h cache ih => rw [intelligence_touch, ih]
  | offer h cache t ih => rw [intelligence_offer, ih]

/-!
# The table of caches

The default cache has no place in the table of the other caches.
-/

theorem get?_touch (h : r.caches.get? [] = none) (cache : Bytes) :
    (r.touch cache).caches.get? [] = none := by
  unfold touch
  split
  · exact h
  · next hnew =>
    rw [Bool.or_eq_true, decide_eq_true_eq, not_or] at hnew
    dsimp only
    rw [Table.get?_insert, if_neg (Ne.symm hnew.1)]
    exact h

theorem get?_install (h : r.caches.get? [] = none) (cache : Bytes) (t : Topology) :
    (r.install cache t).caches.get? [] = none := by
  unfold install
  split
  · exact h
  · next hcache =>
    dsimp only
    rw [Table.get?_insert, if_neg (Ne.symm hcache)]
    exact h

theorem Evolves.get?_default (h : r.Evolves s) (hr : r.caches.get? [] = none) :
    s.caches.get? [] = none := by
  induction h with
  | refl => exact hr
  | touch h cache ih => exact get?_touch ih cache
  | offer h cache t ih =>
      unfold Registry.offer
      dsimp only
      split
      · exact get?_install (get?_touch ih cache) cache t
      · exact get?_touch ih cache

theorem current_install (h : r.caches.get? [] = none) (cache : Bytes) (t : Topology) :
    (r.install cache t).current cache = t := by
  unfold install current
  split
  · next hcache =>
    subst hcache
    dsimp only
    rw [h]
    rfl
  · dsimp only
    rw [Table.get?_insert, if_pos rfl]
    rfl

/-- A topology newer than the one that a cache has takes its place. -/
theorem current_offer (h : r.caches.get? [] = none) {cache : Bytes} {t : Topology}
    (hnewer : ((r.touch cache).current cache).epoch < t.epoch) :
    (r.offer cache t).2.current cache = t := by
  unfold offer
  dsimp only
  rw [if_pos hnewer]
  exact current_install (get?_touch h cache) cache t

/-- After an offer the cache has a topology that is at least as new. -/
theorem epoch_le_current_offer (h : r.caches.get? [] = none) (cache : Bytes) (t : Topology) :
    t.epoch ≤ ((r.offer cache t).2.current cache).epoch := by
  by_cases hnewer : ((r.touch cache).current cache).epoch < t.epoch
  · rw [current_offer h hnewer]
    exact Int32.le_refl _
  · unfold offer
    dsimp only
    rw [if_neg hnewer]
    exact Int32.not_lt.1 hnewer

end Registry

/-- What is not asked of the client: it concerns the nodes, the clock or the background. -/
def Exchange.Ask.IsForeign : Exchange.Ask → Prop
  | .messageId => False
  | .record _ => False
  | .install _ _ => False
  | _ => True

namespace Client

/-- The asks in a trace are served by a client, which is left as another one. -/
inductive Serves : Client → Exchange.Trace → Client → Prop where
  | nil (c : Client) : Serves c [] c
  | meanwhile {c d e : Client} {trace : Exchange.Trace} (hevolves : c.registry.Evolves d.registry)
      (h : Serves d trace e) : Serves c trace e
  | numbers {c e : Client} {rest : Exchange.Trace} (h : Serves c.number.2 rest e) :
      Serves c (⟨.messageId, c.number.1⟩ :: rest) e
  | records {c e : Client} {rest : Exchange.Trace} {m : Measurement}
      (h : Serves (c.record m) rest e) : Serves c (⟨.record m, ()⟩ :: rest) e
  | installs {c e : Client} {rest : Exchange.Trace} {cache : Bytes} {u : TopologyUpdate}
      (h : Serves (c.install cache u).2 rest e) :
      Serves c (⟨.install cache u, (c.install cache u).1⟩ :: rest) e
  | foreign {c e : Client} {q : Exchange.Ask} {answer : Exchange.Answer q} {rest : Exchange.Trace}
      (hq : q.IsForeign) (h : Serves c rest e) : Serves c (⟨q, answer⟩ :: rest) e

namespace Serves

variable {c e : Client} {trace : Exchange.Trace}

theorem evolves (h : Serves c trace e) : c.registry.Evolves e.registry := by
  induction h with
  | nil c => exact .refl
  | meanwhile hevolves h ih => exact hevolves.trans ih
  | numbers h ih => exact ih
  | records h ih => exact ih
  | installs h ih => exact (evolves_install _ _ _).trans ih
  | foreign hq h ih => exact ih

/-- Every installation is made by the client in some state that it has gone through. -/
theorem install_of_mem {cache : Bytes} {u : TopologyUpdate} {answer : Except ClientError Bool}
    (h : Serves c trace e) (hmem : ⟨.install cache u, answer⟩ ∈ trace) :
    ∃ d : Client, c.registry.Evolves d.registry ∧ answer = (d.install cache u).1 ∧
      (d.install cache u).2.registry.Evolves e.registry := by
  induction h with
  | nil c => cases hmem
  | meanwhile hevolves h ih =>
      rcases ih hmem with ⟨d, hbefore, hanswer, hafter⟩
      exact ⟨d, hevolves.trans hbefore, hanswer, hafter⟩
  | numbers h ih =>
      rcases List.mem_cons.1 hmem with heq | hmem
      · cases heq
      · exact ih hmem
  | records h ih =>
      rcases List.mem_cons.1 hmem with heq | hmem
      · cases heq
      · exact ih hmem
  | installs h ih =>
      rcases List.mem_cons.1 hmem with heq | hmem
      · cases heq
        exact ⟨_, .refl, rfl, h.evolves⟩
      · rcases ih hmem with ⟨d, hbefore, hanswer, hafter⟩
        exact ⟨d, (evolves_install _ _ _).trans hbefore, hanswer, hafter⟩
  | foreign hq h ih =>
      rcases List.mem_cons.1 hmem with heq | hmem
      · cases heq
        exact hq.elim
      · exact ih hmem

/-- A client refuses a topology only if it breaks the protocol. -/
theorem isFault_of_mem {cache : Bytes} {u : TopologyUpdate} {refusal : ClientError}
    (h : Serves c trace e) (hmem : ⟨.install cache u, .error refusal⟩ ∈ trace) :
    refusal.IsFault := by
  rcases h.install_of_mem hmem with ⟨d, -, hanswer, -⟩
  exact d.onlyFaults_install cache u refusal hanswer.symm

end Serves

/-!
# What an installation leaves
-/

theorem registry_install {c : Client} {cache : Bytes} {u : TopologyUpdate} {t : Topology}
    (ht : Topology.ofUpdate u c.registry.intelligence = .ok t) :
    (c.install cache u).2.registry = (c.registry.offer cache t).2 := by
  unfold install Registry.apply
  rw [ht]
  rfl

theorem install_refused {c : Client} {u : TopologyUpdate} {refusal : ClientError}
    (h : Topology.ofUpdate u c.registry.intelligence = .error refusal) (cache : Bytes) :
    (c.install cache u).1 = .error refusal := by
  unfold install Registry.apply
  rw [h]
  rfl

theorem install_taken {c : Client} {u : TopologyUpdate} {t : Topology}
    (h : Topology.ofUpdate u c.registry.intelligence = .ok t) (cache : Bytes) :
    (c.install cache u).1 = .ok (c.registry.offer cache t).1 := by
  unfold install Registry.apply
  rw [h]
  rfl

/-- A topology that cannot be installed is refused at any time. -/
theorem Serves.refused {c e : Client} {trace : Exchange.Trace} {cache : Bytes}
    {u : TopologyUpdate} {answer : Except ClientError Bool} {refusal : ClientError}
    (h : Serves c trace e) (hmem : ⟨.install cache u, answer⟩ ∈ trace)
    (hu : Topology.ofUpdate u c.registry.intelligence = .error refusal) :
    answer = .error refusal := by
  rcases h.install_of_mem hmem with ⟨d, hbefore, hanswer, -⟩
  rw [← hbefore.intelligence_eq] at hu
  exact hanswer.trans (install_refused hu cache)

/-- A valid topology is taken at any time. -/
theorem Serves.taken {c e : Client} {trace : Exchange.Trace} {cache : Bytes}
    {u : TopologyUpdate} {answer : Except ClientError Bool} {t : Topology}
    (h : Serves c trace e) (hmem : ⟨.install cache u, answer⟩ ∈ trace)
    (hu : Topology.ofUpdate u c.registry.intelligence = .ok t) :
    ∃ applied, answer = .ok applied := by
  rcases h.install_of_mem hmem with ⟨d, hbefore, hanswer, -⟩
  rw [← hbefore.intelligence_eq] at hu
  exact ⟨_, hanswer.trans (install_taken hu cache)⟩

/-- A valid topology that was asked to be installed has been, if it was newer than the one
that the cache had then. At the end the cache has one that is at least as new. -/
theorem Serves.installed {c e : Client} {trace : Exchange.Trace} {cache : Bytes}
    {u : TopologyUpdate} {answer : Except ClientError Bool} {t : Topology}
    (h : Serves c trace e) (hclean : c.registry.caches.get? [] = none)
    (hmem : ⟨.install cache u, answer⟩ ∈ trace)
    (ht : Topology.ofUpdate u c.registry.intelligence = .ok t) :
    (∃ d : Client, c.registry.Evolves d.registry ∧
      (d.install cache u).2.registry.Evolves e.registry ∧
        (((d.registry.touch cache).current cache).epoch < t.epoch →
          (d.install cache u).2.registry.current cache = t)) ∧
      t.epoch ≤ (e.registry.current cache).epoch := by
  rcases h.install_of_mem hmem with ⟨d, hbefore, -, hafter⟩
  have hd := hbefore.get?_default hclean
  have hregistry : (d.install cache u).2.registry = (d.registry.offer cache t).2 :=
    registry_install (by rw [hbefore.intelligence_eq, ht])
  rw [hregistry] at hafter
  constructor
  · refine ⟨d, hbefore, ?_, ?_⟩
    · rwa [hregistry]
    · intro hnewer
      rw [hregistry]
      exact Registry.current_offer hd hnewer
  · exact Int32.le_trans (Registry.epoch_le_current_offer hd cache t)
      (Registry.epoch_le_of_evolves (Registry.owns_offer _ cache t) hafter)

end Client
end GridClient
