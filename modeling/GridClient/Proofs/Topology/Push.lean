import GridClient.Proofs.Topology.Standing

/-!
# Topologies that are pushed

A server may push a topology without being asked. The bytes are read and the topology is checked
before a registry is touched, so that a push that fails leaves no trace. A push that is taken over
concerns the cache that it names; the default cache has those follow that have no topology of
their own.
-/

namespace GridClient

open Registry

/-!
# Pushes and notices
-/

namespace Client

variable {c : Client} {cache payload : Bytes}

/-- A failed push leaves the client as it is: no cache is used for the first time and nothing is
recorded. -/
theorem push_of_error {e : ClientError} (h : c.registry.push cache payload = .error e) :
    c.push cache payload = (.error e, c) := by
  unfold Registry.push at h
  unfold push
  cases hread : (TopologyUpdate.reader c.registry.intelligence).value payload with
  | error f =>
      rw [hread] at h
      cases h
      rfl
  | ok u =>
      rw [hread] at h
      have hinvalid : c.registry.apply cache u = .error e := h
      unfold install
      dsimp only
      rw [hinvalid]

theorem push_of_ok {applied : Bool} {s : Registry}
    (h : c.registry.push cache payload = .ok (applied, s)) :
    (c.push cache payload).1 = .ok applied ∧ (c.push cache payload).2.registry = s := by
  unfold Registry.push at h
  unfold push
  cases hread : (TopologyUpdate.reader c.registry.intelligence).value payload with
  | error f =>
      rw [hread] at h
      cases h
  | ok u =>
      rw [hread] at h
      have hvalid : c.registry.apply cache u = .ok (applied, s) := h
      unfold install
      dsimp only
      rw [hvalid]
      exact ⟨rfl, rfl⟩

end Client

namespace Registry

variable {r : Registry} {cache other : Bytes} {t : Topology}

/-!
# Topologies that are taken over
-/

theorem owns_iff : r.Owns cache ↔ ∃ t, r.own? cache = some t := by
  unfold Owns own?
  split
  · next h => simp [h]
  · next h =>
    rw [or_iff_right h]
    exact Option.isSome_iff_exists

theorem current_of_own? (h : r.caches.get? [] = none) (hown : r.own? cache = some t) :
    r.current cache = t := by
  rw [current_eq h, hown]
  rfl

theorem current_of_not_owns (h : r.caches.get? [] = none) (hnew : ¬ r.Owns cache) :
    r.current cache = r.default := by
  rw [owns_iff, ← Option.isSome_iff_exists, Option.not_isSome_iff_eq_none] at hnew
  rw [current_eq h, hnew]
  rfl

theorem offer_eq_true_iff (h : r.caches.get? [] = none) :
    (r.offer cache t).1 = true ↔ (r.used cache).epoch < t.epoch := by
  rw [offer_eq h]
  split
  · next hnewer => exact iff_of_true rfl hnewer
  · next hstale => exact iff_of_false Bool.false_ne_true hstale

section Offer

variable (h : r.caches.get? [] = none) (hnewer : (r.used cache).epoch < t.epoch)

include h hnewer

theorem own?_offer_of_newer (other : Bytes) :
    (r.offer cache t).2.own? other = if other = cache then some t else r.own? other := by
  rw [own?_offer h, if_pos hnewer]

theorem current_offer_self : (r.offer cache t).2.current cache = t :=
  current_of_own? (get?_offer h cache t) (by rw [own?_offer_of_newer h hnewer, if_pos rfl])

theorem owns_offer_iff : (r.offer cache t).2.Owns other ↔ r.Owns other ∨ other = cache := by
  rw [owns_iff, owns_iff, own?_offer_of_newer h hnewer]
  split
  · next heq => simp [heq]
  · next hne => simp [hne]

theorem current_offer_of_owns (hne : other ≠ cache) (howns : r.Owns other) :
    (r.offer cache t).2.current other = r.current other := by
  rcases owns_iff.1 howns with ⟨u, hu⟩
  rw [current_of_own? h hu]
  apply current_of_own? (get?_offer h cache t)
  rw [own?_offer_of_newer h hnewer, if_neg hne, hu]

/-- A cache without a topology of its own goes by the default one, which is replaced or not. -/
theorem current_offer_of_not_owns (hne : other ≠ cache) (hnew : ¬ r.Owns other) :
    (r.offer cache t).2.current other = if cache = [] then t else r.current other := by
  have hdefault : some (r.offer cache t).2.default =
      if [] = cache then some t else some r.default := own?_offer_of_newer h hnewer []
  have hstill : ¬ (r.offer cache t).2.Owns other := by
    rw [owns_offer_iff h hnewer, not_or]
    exact ⟨hnew, hne⟩
  rw [current_of_not_owns (get?_offer h cache t) hstill, current_of_not_owns h hnew]
  by_cases hname : cache = []
  · rw [if_pos hname.symm] at hdefault
    rw [if_pos hname]
    exact Option.some.inj hdefault
  · rw [if_neg (Ne.symm hname)] at hdefault
    rw [if_neg hname]
    exact Option.some.inj hdefault

end Offer

/-- A registry has taken a topology over for a cache. Under the name of any other cache only that
cache goes by it; under the empty name all caches do that have none of their own. -/
structure TakenOver (r : Registry) (cache : Bytes) (t : Topology) (s : Registry) : Prop where
  newer : (r.used cache).epoch < t.epoch
  owns_iff : ∀ other, s.Owns other ↔ r.Owns other ∨ other = cache
  named : cache ≠ [] → ∀ other, s.current other = if other = cache then t else r.current other
  default_iff : cache = [] →
    ∀ other, s.current other ≠ r.current other ↔ other = [] ∨ ¬ r.Owns other
  default_eq : cache = [] → ∀ other, other = [] ∨ ¬ r.Owns other → s.current other = t

theorem takenOver_offer (h : r.caches.get? [] = none) (hnewer : (r.used cache).epoch < t.epoch) :
    r.TakenOver cache t (r.offer cache t).2 := by
  have hdefault_eq : cache = [] → ∀ other, other = [] ∨ ¬ r.Owns other →
      (r.offer cache t).2.current other = t := by
    rintro rfl other hfollows
    by_cases hname : other = []
    · rw [hname, current_offer_self h hnewer]
    · rw [current_offer_of_not_owns h hnewer hname (hfollows.resolve_left hname), if_pos rfl]
  constructor
  case newer => exact hnewer
  case owns_iff =>
    intro other
    exact owns_offer_iff h hnewer
  case named =>
    intro hname other
    split
    · next heq => rw [heq, current_offer_self h hnewer]
    · next hne =>
      by_cases howns : r.Owns other
      · exact current_offer_of_owns h hnewer hne howns
      · rw [current_offer_of_not_owns h hnewer hne howns, if_neg hname]
  case default_iff =>
    intro hname other
    by_cases hfollows : other = [] ∨ ¬ r.Owns other
    · have hbefore : r.current other = r.default := by
        rcases hfollows with rfl | hnew
        · exact current_of_own? h rfl
        · exact current_of_not_owns h hnew
      rw [hdefault_eq hname other hfollows, hbefore]
      refine iff_of_true ?_ hfollows
      rintro rfl
      subst hname
      exact Int32.lt_irrefl hnewer
    · refine iff_of_false (not_not_intro ?_) hfollows
      rw [not_or, not_not] at hfollows
      exact current_offer_of_owns h hnewer (hname ▸ hfollows.1) hfollows.2
  case default_eq => exact hdefault_eq

end Registry

/-!
# Pushes that are confined
-/

namespace Client

variable {intelligence : Intelligence} {servers : List NodeAddress} {commands : List Command}

/-- Whatever a registry has been asked to do before: a push fails exactly if its bytes cannot be
read or tell of no valid topology, and then it leaves everything as it is. It is taken over
exactly if it tells of a topology that is newer than that of the cache it names, and then this
topology is what that cache goes by, and those that follow it. -/
theorem push_confined {c : Client}
    (hc : c.registry = (Registry.ofServers intelligence servers).runAll commands)
    (cache payload : Bytes) :
    (∀ e, (c.push cache payload).1 = .error e ↔
      (Notice.payload payload).content intelligence = .error e) ∧
    (∀ e, (c.push cache payload).1 = .error e → (c.push cache payload).2 = c) ∧
    ((c.push cache payload).1 = .ok true ↔
      ∃ t, (Notice.payload payload).content intelligence = .ok t ∧
        c.registry.TakenOver cache t (c.push cache payload).2.registry) := by
  have hstands : Stands intelligence commands c.registry :=
    hc ▸ Stands.runAll intelligence servers commands
  have hpush : c.registry.push cache payload =
      ((Notice.payload payload).content intelligence).map (c.registry.offer cache) := by
    rw [← hstands.intelligence_eq]
    exact Registry.notify_eq c.registry cache (.payload payload)
  cases hcontent : (Notice.payload payload).content intelligence with
  | error f =>
      rw [hcontent] at hpush
      rw [push_of_error hpush]
      simp
  | ok t =>
      rw [hcontent] at hpush
      have hdone : (c.push cache payload).1 = .ok (c.registry.offer cache t).1 ∧
          (c.push cache payload).2.registry = (c.registry.offer cache t).2 :=
        push_of_ok hpush
      rw [hdone.1, hdone.2, Except.ok.injEq, offer_eq_true_iff hstands.unlisted]
      refine ⟨by simp, by simp, ?_⟩
      constructor
      · intro hnewer
        exact ⟨t, rfl, takenOver_offer hstands.unlisted hnewer⟩
      · intro h
        rcases h with ⟨u, hu, htaken⟩
        cases hu
        exact htaken.newer

/-- The default topology is at epoch 4 and one cache has a topology of its own, at epoch 3. -/
def mixed : Client where
  registry := (Registry.ofServers .hashDistributionAware [⟨"s", 1⟩]).runAll
    [.notify [98] (.update ⟨3, [⟨"b", 1⟩], 0, none⟩),
      .notify [] (.update ⟨4, [⟨"d", 1⟩], 0, none⟩)]

/-- Topology 9: one segment, owned by the only server. -/
def ninth : Bytes :=
  [9, 1, 1, 97, 0, 1, 3, 1, 1, 0]

def ninthRead : Topology :=
  ⟨9, .hashDistributionAware, [⟨"a", 1⟩], some ⟨[[⟨"a", 1⟩]], by decide⟩⟩

/-- Bytes that end early, a host that is not UTF-8, an owner that is no server, no segments. -/
def spoilt : List Bytes :=
  [[9, 1, 1, 97, 0], [9, 1, 1, 255, 0, 1, 0], [9, 1, 1, 97, 0, 1, 3, 1, 1, 1],
    [9, 1, 1, 97, 0, 1, 3, 0]]

theorem push_confined_mixed :
    (∀ payload ∈ spoilt, (∃ e, (mixed.push [98] payload).1 = .error e) ∧
      (mixed.push [98] payload).2 = mixed) ∧
    (mixed.push [98] ninth).1 = .ok true ∧
    mixed.registry.TakenOver [98] ninthRead (mixed.push [98] ninth).2.registry ∧
    (mixed.push [] ninth).1 = .ok true ∧
    mixed.registry.TakenOver [] ninthRead (mixed.push [] ninth).2.registry := by
  have hreach : mixed.registry = (Registry.ofServers .hashDistributionAware [⟨"s", 1⟩]).runAll
      [.notify [98] (.update ⟨3, [⟨"b", 1⟩], 0, none⟩),
        .notify [] (.update ⟨4, [⟨"d", 1⟩], 0, none⟩)] := rfl
  have hspoilt : ∀ payload ∈ spoilt, ∃ e,
      (Notice.payload payload).content .hashDistributionAware = .error e := by
    intro payload h
    simp only [spoilt, List.mem_cons, List.not_mem_nil, or_false] at h
    rcases h with rfl | rfl | rfl | rfl
    · exact ⟨_, rfl⟩
    · exact ⟨_, rfl⟩
    · exact ⟨_, rfl⟩
    · exact ⟨_, rfl⟩
  have hninth : (Notice.payload ninth).content .hashDistributionAware = .ok ninthRead := rfl
  have hnamed : (mixed.push [98] ninth).1 = .ok true := rfl
  have hdefault : (mixed.push [] ninth).1 = .ok true := rfl
  refine ⟨?_, hnamed, ?_, hdefault, ?_⟩
  · intro payload h
    rcases hspoilt payload h with ⟨e, he⟩
    rcases push_confined hreach [98] payload with ⟨herror, hkept, -⟩
    exact ⟨⟨e, (herror e).2 he⟩, hkept e ((herror e).2 he)⟩
  · rcases (push_confined hreach [98] ninth).2.2.1 hnamed with ⟨t, ht, htaken⟩
    rw [hninth] at ht
    cases ht
    exact htaken
  · rcases (push_confined hreach [] ninth).2.2.1 hdefault with ⟨t, ht, htaken⟩
    rw [hninth] at ht
    cases ht
    exact htaken

end Client

end GridClient
