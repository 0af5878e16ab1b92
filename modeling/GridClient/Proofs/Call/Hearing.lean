import GridClient.Proofs.Call.Request
import GridClient.Proofs.Topology.Evolution

/-!
# What a call hears of the topology

A call reads the topology of its cache from a registry that it shares with all others.
Between two readings the registry may have evolved, through the answers to this call or
behind its back. So what a call hears never goes back to a lower epoch.
-/

namespace GridClient
namespace Call

variable {σ : Type}

/-- The topologies in a trace are read from a registry that evolves meanwhile. -/
inductive Hears : Registry → Trace σ → Prop where
  | nil (r : Registry) : Hears r []
  | topology {r s : Registry} {rest : Trace σ} (hevolves : r.Evolves s) (cache : Bytes)
      (h : Hears s rest) : Hears r (⟨.topology cache, s.current cache⟩ :: rest)
  | other {r : Registry} {e : Event σ} {rest : Trace σ} (he : ∀ cache, e.ask ≠ .topology cache)
      (h : Hears r rest) : Hears r (e :: rest)

variable {r : Registry}

/-!
# Readings
-/

def Event.reading? (cache : Bytes) : Event σ → Option Topology
  | ⟨.topology other, t⟩ => if other = cache then some t else none
  | _ => none

/-- The topologies of a cache that are read in a trace, in order. -/
def readings (cache : Bytes) (trace : Trace σ) : List Topology :=
  trace.filterMap (Event.reading? cache)

@[simp] theorem readings_nil (cache : Bytes) : readings cache ([] : Trace σ) = [] :=
  rfl

@[simp] theorem readings_append (cache : Bytes) (first last : Trace σ) :
    readings cache (first ++ last) = readings cache first ++ readings cache last :=
  List.filterMap_append

@[simp] theorem readings_topology (cache : Bytes) (t : Topology) (rest : Trace σ) :
    readings cache (⟨.topology cache, t⟩ :: rest) = t :: readings cache rest :=
  List.filterMap_cons_some (if_pos rfl)

@[simp] theorem readings_now (cache : Bytes) (time : Instant) (rest : Trace σ) :
    readings cache (⟨.now, time⟩ :: rest) = readings cache rest :=
  rfl

@[simp] theorem readings_note (cache : Bytes) (s : σ) (rest : Trace σ) :
    readings cache (⟨.note s, ()⟩ :: rest) = readings cache rest :=
  rfl

@[simp] theorem readings_attempt (cache : Bytes) {op : OpCode} (a : Attempt op)
    (o : Outcome op.Reply) (rest : Trace σ) :
    readings cache (⟨.attempt a, o⟩ :: rest) = readings cache rest :=
  rfl

@[simp] theorem readings_record (cache : Bytes) (m : Measurement) (rest : Trace σ) :
    readings cache (⟨.record m, ()⟩ :: rest) = readings cache rest :=
  rfl

/-- What is read of a cache never goes back to a lower epoch. -/
theorem epochs_readings {cache : Bytes} {trace : Trace σ} (h : Hears r trace)
    (howns : r.Owns cache) :
    (r.current cache :: readings cache trace).Pairwise fun t u => t.epoch ≤ u.epoch := by
  induction h with
  | nil r => simp
  | @topology r s rest hevolves other h ih =>
      have hlater := ih (howns.evolves hevolves)
      have hstep := Registry.epoch_le_of_evolves howns hevolves
      rw [List.pairwise_cons] at hlater
      by_cases hother : other = cache
      · subst hother
        rw [readings_topology, List.pairwise_cons, List.pairwise_cons]
        refine ⟨?_, hlater⟩
        intro t ht
        rcases List.mem_cons.1 ht with rfl | ht
        · exact hstep
        · exact Int32.le_trans hstep (hlater.1 t ht)
      · have hskip : readings cache (⟨.topology other, s.current other⟩ :: rest) =
            readings cache rest :=
          List.filterMap_cons_none (if_neg hother)
        rw [hskip, List.pairwise_cons]
        exact ⟨fun t ht => Int32.le_trans hstep (hlater.1 t ht), hlater.2⟩
  | @other r e rest he h ih =>
      have hskip : readings cache (e :: rest) = readings cache rest := by
        apply List.filterMap_cons_none
        rcases e with ⟨ask, answer⟩
        cases ask with
        | topology other => exact absurd rfl (he other)
        | _ => rfl
      rw [hskip]
      exact ih howns

/-!
# Pings between attempts
-/

/-- A ping that refreshes the topology: what it was sent under, and its outcome. -/
structure Refresh where
  topology : Topology
  outcome : Outcome OpCode.ping.Reply

namespace Refresh

def events (x : Refresh) (cache : RemoteCache) (deadline : Instant) : Trace σ :=
  [⟨.topology cache.key, x.topology⟩,
    ⟨.attempt (cache.refreshPing x.topology deadline), x.outcome⟩]

theorem of_reaches {cache : RemoteCache} {deadline : Instant} {trace : Trace σ}
    (h : Reaches (cache.refresh deadline) trace (.done ())) :
    ∃ x : Refresh, trace = x.events cache deadline := by
  rcases reaches_refresh.1 h with ⟨t, ⟨-, hstand⟩ | ⟨o, rfl, -⟩⟩
  · cases hstand
  · exact ⟨⟨t, o⟩, rfl⟩

end Refresh

end Call
end GridClient
