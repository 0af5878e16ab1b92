import GridClient.Proofs.Topology.Standing

/-!
# Topologies that are not installed

A topology that is no newer than the one a cache has is dropped. But a cache is used when a
topology is offered for it, so that it has one of its own from then on. This makes a difference
to a cache that has read the default topology, once that one is of any epoch: what the cache is
left with are the servers of the default topology, before any epoch.
-/

namespace GridClient
namespace Registry

variable {intelligence : Intelligence} {servers : List NodeAddress} {commands : List Command}
  {r s : Registry} {cache : Bytes} {n : Notice}

/-- The cache reads a default topology of some epoch, for want of one of its own. -/
def Borrows (r : Registry) (cache : Bytes) : Prop :=
  r.own? cache = none ∧ noEpoch < r.default.epoch

theorem current_touch_eq (h : r.caches.get? [] = none) (cache other : Bytes) :
    (r.touch cache).current other = if other = cache then r.used cache else r.current other := by
  split
  · next heq =>
    subst heq
    exact current_touch_self h other
  · next hne =>
    rw [current_eq (get?_touch h cache), current_eq h, own?_touch, if_neg hne]
    unfold touch
    split <;> rfl

namespace Stands

/-- A rejected notice has the cache used, and no more. -/
theorem eq_touch_of_rejected (h : Stands intelligence commands r)
    (hrejected : r.notify cache n = .ok (false, s)) : s = r.touch cache := by
  cases hn : n.content intelligence with
  | error e =>
      rw [Registry.notify_eq, h.intelligence_eq, hn] at hrejected
      cases hrejected
  | ok t =>
      rw [(h.notify_eq hn cache).1, Except.ok.injEq, offer_eq h.unlisted] at hrejected
      split at hrejected
      · cases hrejected
      · cases hrejected
        rfl

/-- Before any epoch the default topology is what a cache starts from. -/
theorem default_eq (h : Stands intelligence commands r) (hepoch : ¬noEpoch < r.default.epoch) :
    r.default = .initial intelligence r.default.servers := by
  have hdefault : r.used [] = r.default := rfl
  rcases h.used_eq [] with ht | ⟨-, servers, hinitial⟩
  · rw [hdefault] at ht
    exact absurd (newest?_eq_some ht).1 hepoch
  · rw [hdefault] at hinitial
    rw [hinitial]
    rfl

/-- The first use of a cache is seen if it has read a default topology of some epoch. -/
theorem used_eq_current_iff (h : Stands intelligence commands r) (cache : Bytes) :
    r.used cache = r.current cache ↔ ¬r.Borrows cache := by
  rw [current_eq h.unlisted]
  unfold used Borrows
  cases hown : r.own? cache with
  | some t => simp
  | none =>
      rw [h.intelligence_eq, eq_self, true_and]
      constructor
      · intro hsame hepoch
        change Topology.initial intelligence r.default.servers = r.default at hsame
        rw [← hsame] at hepoch
        exact Int32.lt_irrefl hepoch
      · intro hepoch
        exact (h.default_eq hepoch).symm

end Stands

/-- Whatever a registry has been asked to do, a notice that it rejects leaves the current
topology of every cache as it is, except that of the notice's own cache if it has been borrowing
the default topology. That cache is left without an epoch. -/
theorem rejected_unchanged_iff (intelligence : Intelligence) (servers : List NodeAddress)
    (commands : List Command) {cache : Bytes} {n : Notice} {s : Registry}
    (hrejected : ((ofServers intelligence servers).runAll commands).notify cache n =
      .ok (false, s)) :
    (∀ other, s.current other = ((ofServers intelligence servers).runAll commands).current other ↔
      ¬(other = cache ∧ ((ofServers intelligence servers).runAll commands).Borrows cache)) ∧
    (((ofServers intelligence servers).runAll commands).Borrows cache →
      s.current cache = .initial intelligence
        ((ofServers intelligence servers).runAll commands).default.servers) := by
  have hstands := Stands.runAll intelligence servers commands
  generalize (ofServers intelligence servers).runAll commands = r at hstands hrejected ⊢
  rw [hstands.eq_touch_of_rejected hrejected]
  constructor
  · intro other
    rw [current_touch_eq hstands.unlisted]
    split
    · next heq =>
      subst heq
      rw [eq_self, true_and]
      exact hstands.used_eq_current_iff other
    · next hne => exact iff_of_true rfl fun h => hne h.1
  · intro hborrows
    rw [current_touch_self hstands.unlisted]
    unfold used
    rw [hborrows.1, hstands.intelligence_eq]
    rfl

/-- A registry that has been told of the default topology only. -/
def toldDefault : Registry :=
  (ofServers .basic [⟨"s", 1⟩]).runAll [.notify [] (.update ⟨4, [⟨"a", 1⟩], 0, none⟩)]

/-- The default topology is at epoch 4 when a topology without an epoch is offered for another
cache, which is taken back to before any epoch. -/
theorem rejected_unchanged_iff_toldDefault :
    toldDefault.notify [98] (.update ⟨-1, [⟨"b", 1⟩], 0, none⟩) =
        .ok (false, toldDefault.touch [98]) ∧
      (toldDefault.current [98]).epoch = 4 ∧
      (toldDefault.touch [98]).current [98] = .initial .basic [⟨"a", 1⟩] ∧
      (toldDefault.touch [98]).current [] = toldDefault.current [] := by
  have hrejected : toldDefault.notify [98] (.update ⟨-1, [⟨"b", 1⟩], 0, none⟩) =
      .ok (false, toldDefault.touch [98]) := rfl
  rcases rejected_unchanged_iff .basic [⟨"s", 1⟩] _ hrejected with ⟨hunchanged, hborrowed⟩
  refine ⟨hrejected, rfl, hborrowed ⟨rfl, by decide⟩, (hunchanged []).2 ?_⟩
  rintro ⟨hname, -⟩
  cases hname

end Registry
end GridClient
