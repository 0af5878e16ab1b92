import GridClient.Proofs.Client.Serving
import Mathlib.Data.List.Induction

/-!
# Where a registry stands

A registry is told topologies of caches, in any order and in several forms: ready made, as an
update that has been read, or as the bytes of one. A topology is installed if it is newer than
all that have been told of the same cache before. So each cache that has a topology of its own
stands at the newest one that has been told of it, or at servers to start from.
-/

namespace GridClient
namespace Registry

/-- A topology that is told of a cache, in one of the forms in which it may come. -/
inductive Notice where
  | topology (t : Topology)
  | update (u : TopologyUpdate)
  | payload (bytes : Bytes)

/-- The topology that is told. Bytes may not be readable, and an update may not be valid. -/
def Notice.content (intelligence : Intelligence) : Notice → Except ClientError Topology
  | topology t => .ok t
  | update u => Topology.ofUpdate u intelligence
  | payload bytes => do
      let u ← (TopologyUpdate.reader intelligence).value bytes
      Topology.ofUpdate u intelligence

/-- What comes of a notice: whether the topology has been installed, and the registry then. -/
def notify (r : Registry) (cache : Bytes) : Notice → Except ClientError (Bool × Registry)
  | .topology t => .ok (r.offer cache t)
  | .update u => r.apply cache u
  | .payload bytes => r.push cache bytes

/-- What a registry may be asked to do: to have a cache ready for use, to show the current
topology of a cache, and to take notice of a topology. -/
inductive Command where
  | use (cache : Bytes)
  | look (cache : Bytes)
  | notify (cache : Bytes) (n : Notice)

/-- The registry after a command. To look changes nothing, nor does a notice that is refused. -/
def Command.run (r : Registry) : Command → Registry
  | use cache => r.touch cache
  | look _ => r
  | notify cache n =>
      match r.notify cache n with
      | .ok (_, s) => s
      | .error _ => r

def runAll (r : Registry) (commands : List Command) : Registry :=
  commands.foldl Command.run r

def Command.told? (intelligence : Intelligence) (cache : Bytes) : Command → Option Topology
  | notify other n => if other = cache then (n.content intelligence).toOption else none
  | _ => none

/-- The topologies that have been told of a cache, in order. -/
def told (intelligence : Intelligence) (cache : Bytes) (commands : List Command) :
    List Topology :=
  commands.filterMap (Command.told? intelligence cache)

/-- The topology that a cache has of its own. -/
def own? (r : Registry) (cache : Bytes) : Option Topology :=
  if cache = [] then some r.default else r.caches.get? cache

/-- The topology that a cache has of its own once it has been used. -/
def used (r : Registry) (cache : Bytes) : Topology :=
  (r.own? cache).getD (.initial r.intelligence r.default.servers)

/-!
# The newest topology
-/

/-- The first one of the newest topologies, if any of them has an epoch. -/
def newest? (ts : List Topology) : Option Topology :=
  ts.foldl (fun best t => if best.elim noEpoch Topology.epoch < t.epoch then some t else best) none

/-- The epoch that has been reached when some topologies have been told. -/
def reached (ts : List Topology) : Int32 :=
  (newest? ts).elim noEpoch Topology.epoch

theorem newest?_concat (ts : List Topology) (t : Topology) :
    newest? (ts ++ [t]) = if reached ts < t.epoch then some t else newest? ts :=
  List.foldl_append

theorem reached_concat (ts : List Topology) (t : Topology) :
    reached (ts ++ [t]) = if reached ts < t.epoch then t.epoch else reached ts := by
  unfold reached
  rw [newest?_concat]
  unfold reached
  split <;> rfl

theorem reached_lt_iff {ts : List Topology} {epoch : Int32} :
    reached ts < epoch ↔ noEpoch < epoch ∧ ∀ t ∈ ts, t.epoch < epoch := by
  induction ts using List.reverseRecOn with
  | nil => simp [reached, newest?]
  | append_singleton ts t ih =>
      rw [reached_concat, List.forall_mem_append, List.forall_mem_singleton, ← and_assoc, ← ih]
      split
      · next hnewer => exact (and_iff_right_of_imp (Int32.lt_trans hnewer)).symm
      · next hstale =>
        exact (and_iff_left_of_imp (Int32.lt_of_le_of_lt (Int32.not_lt.1 hstale))).symm

theorem newest?_eq_some {ts : List Topology} {t : Topology} (h : newest? ts = some t) :
    noEpoch < t.epoch ∧ ∃ before after, ts = before ++ t :: after ∧
      (∀ u ∈ before, u.epoch < t.epoch) ∧ ∀ u ∈ after, u.epoch ≤ t.epoch := by
  induction ts using List.reverseRecOn with
  | nil => cases h
  | append_singleton ts u ih =>
      rw [newest?_concat] at h
      split at h
      · next hnewer =>
        cases h
        rcases reached_lt_iff.1 hnewer with ⟨hepoch, hbefore⟩
        exact ⟨hepoch, ts, [], rfl, hbefore, by simp⟩
      · next hstale =>
        rcases ih h with ⟨hepoch, before, after, rfl, hbefore, hafter⟩
        have hreached : reached (before ++ t :: after) = t.epoch := by
          unfold reached
          rw [h]
          rfl
        rw [hreached, Int32.not_lt] at hstale
        refine ⟨hepoch, before, after ++ [u], by simp, hbefore, ?_⟩
        rw [List.forall_mem_append, List.forall_mem_singleton]
        exact ⟨hafter, hstale⟩

theorem mem_of_newest? {ts : List Topology} {t : Topology} (h : newest? ts = some t) : t ∈ ts := by
  rcases newest?_eq_some h with ⟨-, before, after, rfl, -, -⟩
  simp

/-- If anything has an epoch there is a newest topology. -/
theorem newest?_isSome_iff {ts : List Topology} : (∃ t, newest? ts = some t) ↔ noEpoch < reached ts := by
  unfold reached
  constructor
  · intro hnewest
    rcases hnewest with ⟨t, h⟩
    rw [h]
    exact (newest?_eq_some h).1
  · intro h
    cases hnewest : newest? ts with
    | none =>
        rw [hnewest] at h
        cases Int32.lt_irrefl h
    | some t => exact ⟨t, rfl⟩

/-!
# Topologies of a cache's own
-/

variable {r : Registry} {cache other : Bytes}

theorem own?_touch (r : Registry) (cache other : Bytes) :
    (r.touch cache).own? other = if other = cache then some (r.used cache) else r.own? other := by
  unfold touch
  split
  · next hold =>
    split
    · next heq =>
      subst heq
      unfold used own?
      rw [Bool.or_eq_true, decide_eq_true_eq] at hold
      rcases hold with rfl | hlisted
      · rfl
      · rcases Option.isSome_iff_exists.1 hlisted with ⟨t, ht⟩
        rw [ht]
        split <;> rfl
    · rfl
  · next hnew =>
    rw [Bool.or_eq_true, decide_eq_true_eq, not_or] at hnew
    unfold used own?
    split
    · next hother =>
      subst hother
      rw [if_neg (Ne.symm hnew.1)]
    · dsimp only
      rw [Table.get?_insert]
      split
      · next heq =>
        subst heq
        have hnone : r.caches.get? other = none := by simpa [Table.contains] using hnew.2
        rw [if_neg hnew.1, hnone]
        rfl
      · rfl

theorem own?_install (r : Registry) (cache other : Bytes) (t : Topology) :
    (r.install cache t).own? other = if other = cache then some t else r.own? other := by
  unfold install own?
  by_cases hcache : cache = []
  · subst hcache
    by_cases hother : other = [] <;> simp [hother]
  · rw [if_neg hcache]
    dsimp only
    rw [Table.get?_insert]
    by_cases hother : other = cache
    · rw [if_pos hother, if_pos hother, hother, if_neg hcache]
    · rw [if_neg hother, if_neg hother]

theorem current_eq (h : r.caches.get? [] = none) (cache : Bytes) :
    r.current cache = (r.own? cache).getD r.default := by
  unfold current own?
  split
  · next hcache =>
    rw [hcache, h]
    rfl
  · rfl

theorem current_touch_self (h : r.caches.get? [] = none) (cache : Bytes) :
    (r.touch cache).current cache = r.used cache := by
  rw [current_eq (get?_touch h cache), own?_touch, if_pos rfl]
  rfl

theorem offer_eq (h : r.caches.get? [] = none) (cache : Bytes) (t : Topology) :
    r.offer cache t =
      if (r.used cache).epoch < t.epoch then (true, (r.touch cache).install cache t)
      else (false, r.touch cache) := by
  unfold offer
  rw [← current_touch_self h]

theorem own?_offer (h : r.caches.get? [] = none) (cache other : Bytes) (t : Topology) :
    (r.offer cache t).2.own? other =
      if other = cache then some (if (r.used cache).epoch < t.epoch then t else r.used cache)
      else r.own? other := by
  rw [offer_eq h]
  split
  · rw [own?_install, own?_touch]
    split <;> rfl
  · rw [own?_touch]

theorem get?_offer (h : r.caches.get? [] = none) (cache : Bytes) (t : Topology) :
    (r.offer cache t).2.caches.get? [] = none := by
  rw [offer_eq h]
  split
  · exact get?_install (get?_touch h cache) cache t
  · exact get?_touch h cache

/-- All forms of notices come to an offer of the topology that they tell. -/
theorem notify_eq (r : Registry) (cache : Bytes) (n : Notice) :
    r.notify cache n = (n.content r.intelligence).map (r.offer cache) := by
  cases n with
  | topology t => rfl
  | update u => rfl
  | payload bytes =>
      unfold notify push Notice.content
      dsimp only
      cases (TopologyUpdate.reader r.intelligence).value bytes <;> rfl

/-!
# After any commands
-/

variable {intelligence : Intelligence} {commands : List Command}

theorem runAll_concat (r : Registry) (commands : List Command) (c : Command) :
    r.runAll (commands ++ [c]) = c.run (r.runAll commands) :=
  List.foldl_append

theorem told_concat (intelligence : Intelligence) (cache : Bytes) (commands : List Command)
    (c : Command) :
    told intelligence cache (commands ++ [c]) =
      told intelligence cache commands ++ (c.told? intelligence cache).toList := by
  unfold told
  rw [List.filterMap_append]
  cases h : c.told? intelligence cache <;> simp [h]

theorem told_of_silent {c : Command} (h : c.told? intelligence cache = none)
    (commands : List Command) :
    told intelligence cache (commands ++ [c]) = told intelligence cache commands := by
  rw [told_concat, h]
  exact List.append_nil _

/-- A notice that cannot be read or is not valid tells nothing. -/
theorem told_of_refused {n : Notice} {e : ClientError} (hn : n.content intelligence = .error e)
    (cache other : Bytes) (commands : List Command) :
    told intelligence other (commands ++ [.notify cache n]) = told intelligence other commands := by
  refine told_of_silent ?_ commands
  change (if cache = other then (n.content intelligence).toOption else none) = none
  rw [hn]
  exact ite_self none

theorem told_of_content {n : Notice} {t : Topology} (hn : n.content intelligence = .ok t)
    (cache other : Bytes) (commands : List Command) :
    told intelligence other (commands ++ [.notify cache n]) =
      if other = cache then told intelligence other commands ++ [t]
      else told intelligence other commands := by
  rw [told_concat]
  change _ ++ (if cache = other then (n.content intelligence).toOption else none).toList = _
  rw [hn]
  by_cases heq : cache = other
  · rw [if_pos heq, if_pos heq.symm]
    rfl
  · rw [if_neg heq, if_neg (Ne.symm heq)]
    exact List.append_nil _

/-- What a registry has come to after some commands: each cache has the newest topology that
was told of it. Where there is none, it may have some servers to start from. -/
structure Stands (intelligence : Intelligence) (commands : List Command) (r : Registry) : Prop where
  intelligence_eq : r.intelligence = intelligence
  unlisted : r.caches.get? [] = none
  own : ∀ cache, r.own? cache = newest? (told intelligence cache commands) ∨
    newest? (told intelligence cache commands) = none ∧
      ∃ servers, r.own? cache = some (.initial intelligence servers)

namespace Stands

theorem ofServers (intelligence : Intelligence) (servers : List NodeAddress) :
    Stands intelligence [] (.ofServers intelligence servers) := by
  constructor
  case intelligence_eq => rfl
  case unlisted => rfl
  case own =>
    intro cache
    by_cases hcache : cache = []
    · exact Or.inr ⟨rfl, servers, if_pos hcache⟩
    · exact Or.inl (if_neg hcache)

theorem own_eq_newest (h : Stands intelligence commands r) {t : Topology}
    (ht : newest? (told intelligence cache commands) = some t) : r.own? cache = some t := by
  rcases h.own cache with hown | ⟨hnone, -⟩
  · rw [hown, ht]
  · rw [ht] at hnone
    cases hnone

/-- Once it is used, a cache has the newest topology that was told of it, or it starts anew. -/
theorem used_eq (h : Stands intelligence commands r) (cache : Bytes) :
    newest? (told intelligence cache commands) = some (r.used cache) ∨
      newest? (told intelligence cache commands) = none ∧
        ∃ servers, r.used cache = .initial intelligence servers := by
  unfold used
  cases ht : newest? (told intelligence cache commands) with
  | some t =>
      rw [h.own_eq_newest ht]
      exact Or.inl rfl
  | none =>
      refine Or.inr ⟨rfl, ?_⟩
      rw [h.intelligence_eq]
      rcases h.own cache with hown | ⟨-, servers, hown⟩
      · rw [hown, ht]
        exact ⟨_, rfl⟩
      · rw [hown]
        exact ⟨servers, rfl⟩

theorem epoch_used (h : Stands intelligence commands r) (cache : Bytes) :
    (r.used cache).epoch = reached (told intelligence cache commands) := by
  unfold reached
  rcases h.used_eq cache with ht | ⟨ht, servers, hinitial⟩
  · rw [ht]
    rfl
  · rw [ht, hinitial]
    rfl

theorem use (h : Stands intelligence commands r) (cache : Bytes) :
    Stands intelligence (commands ++ [.use cache]) (r.touch cache) := by
  constructor
  case intelligence_eq => rw [intelligence_touch, h.intelligence_eq]
  case unlisted => exact get?_touch h.unlisted cache
  case own =>
    intro other
    rw [own?_touch, told_of_silent rfl]
    split
    · next heq =>
      subst heq
      rcases h.used_eq other with ht | ⟨ht, servers, hinitial⟩
      · exact Or.inl ht.symm
      · exact Or.inr ⟨ht, servers, congrArg some hinitial⟩
    · exact h.own other

theorem offer (h : Stands intelligence commands r) {n : Notice} {t : Topology} (cache : Bytes)
    (hn : n.content intelligence = .ok t) :
    Stands intelligence (commands ++ [.notify cache n]) (r.offer cache t).2 := by
  constructor
  case intelligence_eq => rw [intelligence_offer, h.intelligence_eq]
  case unlisted => exact get?_offer h.unlisted cache t
  case own =>
    intro other
    rw [own?_offer h.unlisted, told_of_content hn]
    split
    · next heq =>
      subst heq
      rw [newest?_concat, ← h.epoch_used]
      split
      · exact Or.inl rfl
      · rcases h.used_eq other with ht | ⟨ht, servers, hinitial⟩
        · exact Or.inl ht.symm
        · exact Or.inr ⟨ht, servers, congrArg some hinitial⟩
    · exact h.own other

theorem step (h : Stands intelligence commands r) (c : Command) :
    Stands intelligence (commands ++ [c]) (c.run r) := by
  have hsilent : (∀ cache, told intelligence cache (commands ++ [c]) =
      told intelligence cache commands) → Stands intelligence (commands ++ [c]) r := by
    intro htold
    refine ⟨h.intelligence_eq, h.unlisted, ?_⟩
    intro cache
    rw [htold]
    exact h.own cache
  cases c with
  | use cache => exact h.use cache
  | look cache => exact hsilent fun other => told_of_silent rfl commands
  | notify cache n =>
      unfold Command.run
      dsimp only
      rw [notify_eq, h.intelligence_eq]
      cases hn : n.content intelligence with
      | ok t => exact h.offer cache hn
      | error e => exact hsilent fun other => told_of_refused hn cache other commands

theorem runAll (intelligence : Intelligence) (servers : List NodeAddress)
    (commands : List Command) :
    Stands intelligence commands ((Registry.ofServers intelligence servers).runAll commands) := by
  induction commands using List.reverseRecOn with
  | nil => exact ofServers intelligence servers
  | append_singleton commands c ih =>
      rw [runAll_concat]
      exact ih.step c

/-- A notice of a cache is taken over exactly if it tells of a newer epoch than all before. -/
theorem notify_eq (h : Stands intelligence commands r) {n : Notice} {t : Topology}
    (hn : n.content intelligence = .ok t) (cache : Bytes) :
    r.notify cache n = .ok (r.offer cache t) ∧ ((r.offer cache t).1 = true ↔
      noEpoch < t.epoch ∧ ∀ u ∈ told intelligence cache commands, u.epoch < t.epoch) := by
  rw [Registry.notify_eq, h.intelligence_eq, hn, ← reached_lt_iff]
  refine ⟨rfl, ?_⟩
  rw [offer_eq h.unlisted, h.epoch_used]
  split
  · next hnewer => exact iff_of_true rfl hnewer
  · next hstale => exact iff_of_false Bool.false_ne_true hstale

end Stands
end Registry
end GridClient
