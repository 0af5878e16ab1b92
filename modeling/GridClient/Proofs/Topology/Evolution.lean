import GridClient.Client

/-!
# How a registry evolves

A registry is shared by all calls of a client. Whatever they do to it, caches are used
for the first time and topologies are offered. Once a cache has a topology of its own,
the epoch of that topology never falls.
-/

namespace GridClient
namespace Registry

/-- The cache has a topology of its own; the default cache always has one. -/
def Owns (r : Registry) (cache : Bytes) : Prop :=
  cache = [] ∨ r.caches.contains cache = true

/-- What may have become of a registry. -/
inductive Evolves (r : Registry) : Registry → Prop where
  | refl : Evolves r r
  | touch {s : Registry} (h : Evolves r s) (cache : Bytes) : Evolves r (s.touch cache)
  | offer {s : Registry} (h : Evolves r s) (cache : Bytes) (t : Topology) :
      Evolves r (s.offer cache t).2

variable {r s : Registry} {cache other : Bytes}

/-!
# Using a cache
-/

theorem Owns.touch (h : r.Owns cache) (other : Bytes) : (r.touch other).Owns cache := by
  unfold Registry.touch
  split
  · exact h
  · refine h.imp_right ?_
    intro hmem
    rw [Table.contains_insert, hmem, Bool.or_true]

theorem Owns.install (h : r.Owns cache) (other : Bytes) (t : Topology) :
    (r.install other t).Owns cache := by
  unfold Registry.install
  split
  · exact h
  · refine h.imp_right ?_
    intro hmem
    rw [Table.contains_insert, hmem, Bool.or_true]

theorem Owns.offer (h : r.Owns cache) (other : Bytes) (t : Topology) :
    (r.offer other t).2.Owns cache := by
  unfold Registry.offer
  dsimp only
  split
  · exact (h.touch other).install other t
  · exact h.touch other

theorem Owns.evolves (h : r.Owns cache) (hevolves : Evolves r s) : s.Owns cache := by
  induction hevolves with
  | refl => exact h
  | touch _ other ih => exact ih.touch other
  | offer _ other t ih => exact ih.offer other t

/-- The first use of another cache does not concern a cache with a topology of its own. -/
theorem current_touch (h : r.Owns cache) (other : Bytes) :
    (r.touch other).current cache = r.current cache := by
  unfold touch
  split
  · rfl
  · next hnew =>
    have hne : cache ≠ other := by
      rintro rfl
      apply hnew
      rw [Bool.or_eq_true, decide_eq_true_eq]
      exact h
    unfold current
    rw [Table.get?_insert, if_neg hne]

/-!
# Epochs
-/

theorem current_install_of_ne (h : r.Owns cache) (hne : cache ≠ other) (t : Topology) :
    (r.install other t).current cache = r.current cache := by
  unfold install current
  split
  · next hother =>
    rcases h with rfl | h
    · exact absurd hother.symm hne
    · rcases Option.isSome_iff_exists.1 h with ⟨own, hown⟩
      dsimp only
      rw [hown]
      rfl
  · rw [Table.get?_insert, if_neg hne]

theorem epoch_le_install {t : Topology} (h : r.Owns cache)
    (hnewer : (r.current other).epoch < t.epoch) :
    (r.current cache).epoch ≤ ((r.install other t).current cache).epoch := by
  by_cases hne : cache = other
  · subst hne
    unfold install current at *
    split
    · dsimp only
      cases hown : r.caches.get? cache with
      | none =>
          rw [hown] at hnewer
          exact Int32.le_of_lt hnewer
      | some own => exact Int32.le_refl _
    · rw [Table.get?_insert, if_pos rfl]
      exact Int32.le_of_lt hnewer
  · rw [current_install_of_ne h hne]
    exact Int32.le_refl _

theorem epoch_le_offer (h : r.Owns cache) (other : Bytes) (t : Topology) :
    (r.current cache).epoch ≤ ((r.offer other t).2.current cache).epoch := by
  unfold offer
  dsimp only
  split
  · next hnewer =>
    rw [← current_touch h other]
    exact epoch_le_install (h.touch other) hnewer
  · rw [current_touch h]
    exact Int32.le_refl _

/-- The epoch that a cache is at never falls. -/
theorem epoch_le_of_evolves (h : r.Owns cache) (hevolves : Evolves r s) :
    (r.current cache).epoch ≤ (s.current cache).epoch := by
  induction hevolves with
  | refl => exact Int32.le_refl _
  | touch hbefore other ih =>
      rw [current_touch (h.evolves hbefore)]
      exact ih
  | offer hbefore other t ih =>
      exact Int32.le_trans ih (epoch_le_offer (h.evolves hbefore) other t)

end Registry

/-!
# What responses do
-/

namespace Client

/-- A topology that a response or a push brings is offered, or is refused as a whole. -/
theorem evolves_install (c : Client) (cache : Bytes) (u : TopologyUpdate) :
    c.registry.Evolves (c.install cache u).2.registry := by
  unfold install Registry.apply
  cases hu : Topology.ofUpdate u c.registry.intelligence with
  | error e => exact .refl
  | ok t => exact .offer .refl cache t

end Client
end GridClient
