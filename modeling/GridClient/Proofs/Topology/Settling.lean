import GridClient.Proofs.Topology.Standing
import Mathlib.Data.List.Nodup
import Mathlib.Data.List.Perm.Basic

/-!
# What a registry settles on

Each cache comes to be at the newest topology that has been told of it, whatever has been told
of others. Of topologies with distinct epochs the order in which they are told does not matter;
of several with one epoch the first one is kept.
-/

namespace GridClient
namespace Registry

variable {intelligence : Intelligence} {servers : List NodeAddress} {commands : List Command}
  {cache : Bytes}

/-!
# Order and other caches
-/

/-- The order in which topologies are told does not matter to the epoch that is reached. -/
theorem reached_of_perm {ts us : List Topology} (h : us.Perm ts) : reached us = reached ts := by
  have hlt : ∀ epoch, reached us < epoch ↔ reached ts < epoch := by
    intro epoch
    rw [reached_lt_iff, reached_lt_iff]
    simp only [h.mem_iff]
  apply Int32.le_antisymm
  · rw [← Int32.not_lt, ← hlt]
    exact Int32.lt_irrefl
  · rw [← Int32.not_lt, hlt]
    exact Int32.lt_irrefl

theorem newest?_of_perm {ts us : List Topology} {t : Topology} (h : us.Perm ts)
    (ht : newest? ts = some t) : ∃ u, newest? us = some u ∧ u.epoch = t.epoch := by
  have hreached := reached_of_perm h
  rcases newest?_isSome_iff.2 (hreached ▸ newest?_isSome_iff.1 ⟨t, ht⟩) with ⟨u, hu⟩
  refine ⟨u, hu, ?_⟩
  unfold reached at hreached
  rw [ht, hu] at hreached
  exact hreached

theorem newest?_eq_of_perm {ts us : List Topology} {t : Topology} (h : us.Perm ts)
    (hdistinct : (ts.map Topology.epoch).Nodup) (ht : newest? ts = some t) :
    newest? us = some t := by
  rcases newest?_of_perm h ht with ⟨u, hu, hepoch⟩
  have hmem : u ∈ ts := h.mem_iff.1 (mem_of_newest? hu)
  rw [hu, List.inj_on_of_nodup_map hdistinct hmem (mem_of_newest? ht) hepoch]

/-- The command does not tell anything of other caches. -/
def Command.isOf (cache : Bytes) : Command → Bool
  | notify other _ => other == cache
  | _ => true

theorem told_filter_isOf (intelligence : Intelligence) (cache : Bytes) (commands : List Command) :
    told intelligence cache (commands.filter (Command.isOf cache)) =
      told intelligence cache commands := by
  unfold told
  rw [List.filterMap_filter]
  refine List.filterMap_congr fun c _ => ?_
  cases c with
  | use other => rfl
  | look other => rfl
  | notify other n => by_cases heq : other = cache <;> simp [Command.isOf, Command.told?, heq]

/-!
# Settling
-/

/-- One of the commands has had a topology installed for the cache. -/
def Installed (intelligence : Intelligence) (servers : List NodeAddress) (commands : List Command)
    (cache : Bytes) : Prop :=
  ∃ before n after s, commands = before ++ .notify cache n :: after ∧
    ((ofServers intelligence servers).runAll before).notify cache n = .ok (true, s)

/-- What a cache is at after all commands. -/
structure Settled (intelligence : Intelligence) (servers : List NodeAddress)
    (commands : List Command) (cache : Bytes) (t : Topology) : Prop where
  own : ((ofServers intelligence servers).runAll commands).own? cache = some t
  first_newest : ∃ before after, told intelligence cache commands = before ++ t :: after ∧
    (∀ u ∈ before, u.epoch < t.epoch) ∧ ∀ u ∈ after, u.epoch ≤ t.epoch
  /-- In another order the commands bring the cache to the same epoch. -/
  reordered : ∀ other, other.Perm commands →
    ∃ u, ((ofServers intelligence servers).runAll other).own? cache = some u ∧ u.epoch = t.epoch
  reordered_eq : ((told intelligence cache commands).map Topology.epoch).Nodup →
    ∀ other, other.Perm commands →
      ((ofServers intelligence servers).runAll other).own? cache = some t
  /-- What is told of other caches makes no difference. -/
  alone : ((ofServers intelligence servers).runAll
    (commands.filter (Command.isOf cache))).own? cache = some t

theorem settled_of_newest {t : Topology}
    (ht : newest? (told intelligence cache commands) = some t) :
    Settled intelligence servers commands cache t := by
  have hown : ∀ {other : List Command} {u : Topology},
      newest? (told intelligence cache other) = some u →
        ((ofServers intelligence servers).runAll other).own? cache = some u :=
    (Stands.runAll intelligence servers _).own_eq_newest
  constructor
  case own => exact hown ht
  case first_newest => exact (newest?_eq_some ht).2
  case reordered =>
    intro other hperm
    rcases newest?_of_perm (hperm.filterMap _) ht with ⟨u, hu, hepoch⟩
    exact ⟨u, hown hu, hepoch⟩
  case reordered_eq =>
    intro hdistinct other hperm
    exact hown (newest?_eq_of_perm (hperm.filterMap _) hdistinct ht)
  case alone =>
    apply hown
    rw [told_filter_isOf]
    exact ht

/-- What has been installed for a cache has an epoch, so there is a newest topology. -/
theorem Installed.newest (h : Installed intelligence servers commands cache) :
    ∃ t, newest? (told intelligence cache commands) = some t := by
  rcases h with ⟨before, n, after, s, rfl, hinstalled⟩
  have hstands := Stands.runAll intelligence servers before
  cases hn : n.content intelligence with
  | error e =>
      rw [Registry.notify_eq, hstands.intelligence_eq, hn] at hinstalled
      cases hinstalled
  | ok t =>
      rcases hstands.notify_eq hn cache with ⟨hnotify, hnewer⟩
      rw [hnotify, Except.ok.injEq] at hinstalled
      rw [hinstalled, eq_self, true_iff] at hnewer
      refine newest?_isSome_iff.2 (Int32.lt_of_lt_of_le hnewer.1 ?_)
      rw [← Int32.not_lt, reached_lt_iff]
      intro hall
      refine Int32.lt_irrefl (hall.2 t (List.mem_filterMap.2 ⟨.notify cache n, by simp, ?_⟩))
      change (if cache = cache then (n.content intelligence).toOption else none) = some t
      rw [if_pos rfl, hn]
      rfl

/-- A topology that is told of a cache is installed exactly if its epoch is higher than all
before, and a cache for which any has been installed settles on the first of the newest. -/
theorem settles_on_newest (intelligence : Intelligence) (servers : List NodeAddress)
    (commands : List Command) :
    (∀ cache n t, n.content intelligence = .ok t →
      ∃ installed s,
        ((ofServers intelligence servers).runAll commands).notify cache n = .ok (installed, s) ∧
          (installed = true ↔
            noEpoch < t.epoch ∧ ∀ u ∈ told intelligence cache commands, u.epoch < t.epoch)) ∧
      ∀ cache, Installed intelligence servers commands cache →
        ∃ t, Settled intelligence servers commands cache t := by
  constructor
  · intro cache n t hn
    rcases (Stands.runAll intelligence servers commands).notify_eq hn cache with ⟨hnotify, hnewer⟩
    exact ⟨_, _, hnotify, hnewer⟩
  · intro cache hinstalled
    rcases hinstalled.newest with ⟨t, ht⟩
    exact ⟨t, settled_of_newest ht⟩

/-- A topology at an epoch, with one server. -/
def loneTopology (epoch : Int32) (server : NodeAddress) : Topology :=
  { Topology.initial .basic [server] with epoch }

/-- Three topologies of one cache, two of them at one epoch, with one of the default cache in
between, and bytes that cannot be read. -/
def raceCommands : List Command :=
  [.notify [98] (.topology (loneTopology 3 ⟨"a", 1⟩)), .look [98],
    .notify [] (.topology (loneTopology 9 ⟨"d", 1⟩)),
    .notify [98] (.topology (loneTopology 5 ⟨"b", 1⟩)), .use [99], .notify [98] (.payload [0x80]),
    .notify [98] (.update ⟨5, [⟨"c", 1⟩], 0, none⟩)]

theorem installed_raceCommands : Installed .basic [⟨"s", 1⟩] raceCommands [98] :=
  ⟨raceCommands.take 3, .topology (loneTopology 5 ⟨"b", 1⟩), raceCommands.drop 4, _, rfl, rfl⟩

theorem settles_on_newest_race :
    Installed .basic [⟨"s", 1⟩] raceCommands [98] ∧
      Settled .basic [⟨"s", 1⟩] raceCommands [98] (loneTopology 5 ⟨"b", 1⟩) := by
  refine ⟨installed_raceCommands, ?_⟩
  rcases (settles_on_newest .basic [⟨"s", 1⟩] raceCommands).2 [98] installed_raceCommands with
    ⟨t, hsettled⟩
  have hown : some (loneTopology 5 ⟨"b", 1⟩) = some t := hsettled.own
  cases hown
  exact hsettled

end Registry
end GridClient
