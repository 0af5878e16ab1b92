import GridClient.Proofs.Call.Hearing
import GridClient.Proofs.Client.Serving
import GridClient.Proofs.Program.Heeding

/-!
# Where the attempts of a call go

The attempts of a call go by the topology that the call has read last and by the nodes that it
has lost. A node is lost when an attempt at it comes to nothing for want of a connection. An
attempt for some keys goes to the first owner of each of them that is not lost, or to any node
if all owners are lost.
-/

namespace GridClient

/-!
# Targets
-/

namespace Target

/-- The target is the first owner of a key that is not gone. That is any node only if all
owners are gone. -/
def Best (t : Topology) (gone : List NodeAddress) (key : Bytes) : Target → Prop
  | address node => ∃ earlier later, t.ownersOf key = earlier ++ node :: later ∧
      (∀ owner ∈ earlier, owner ∈ gone) ∧ node ∉ gone
  | any => ∀ owner ∈ t.ownersOf key, owner ∈ gone

theorem best_forKey (key : Bytes) (t : Topology) (failed : List NodeAddress) :
    (forKey key t failed).Best t failed key := by
  unfold forKey
  split
  · next node hfind =>
    rcases List.find?_eq_some_iff_append.1 hfind with ⟨hleft, earlier, later, hsplit, hearlier⟩
    refine ⟨earlier, later, hsplit, ?_, ?_⟩
    · intro owner howner
      simpa using hearlier owner howner
    · simpa using hleft
  · next hfind =>
    intro owner howner
    simpa using List.find?_eq_none.1 hfind owner howner

variable {target : Target} {t : Topology} {failed gone : List NodeAddress} {key : Bytes}

/-- That more nodes go does not matter, as long as the target itself does not. -/
theorem Best.of_subset (h : target.Best t failed key) (hgone : ∀ node ∈ failed, node ∈ gone)
    (htarget : ∀ node, target = address node → node ∈ gone → node ∈ failed) :
    target.Best t gone key := by
  cases target with
  | any => exact fun owner howner => hgone owner (h owner howner)
  | address node =>
      rcases h with ⟨earlier, later, hsplit, hearlier, hleft⟩
      exact ⟨earlier, later, hsplit, fun owner howner => hgone owner (hearlier owner howner),
        fun hnode => hleft (htarget node rfl hnode)⟩

theorem mem_failing {node : NodeAddress} :
    node ∈ target.failing failed ↔ node ∈ failed ∨ target = address node := by
  unfold failing
  cases target with
  | any => simp
  | address other =>
      dsimp only
      rw [address.injEq]
      split
      · next hmem =>
        refine (or_iff_left_of_imp ?_).symm
        rintro rfl
        simpa using hmem
      · rw [List.mem_append, List.mem_singleton, eq_comm]

end Target

/-- The node that is lost when an attempt at a target has this outcome. -/
def Outcome.lost {α : Type} (target : Target) : Outcome α → List NodeAddress
  | .retryConnectivity _ => target.node?.toList
  | _ => []

theorem Outcome.mem_lost_retryConnectivity {α : Type} {target : Target} {e : ClientError}
    {node : NodeAddress} :
    node ∈ (retryConnectivity e : Outcome α).lost target ↔ target = .address node := by
  cases target <;> simp [lost, Target.node?, eq_comm]

namespace Call

variable {σ : Type} {op : OpCode}

/-!
# The past of a call
-/

def Event.lost : Event σ → List NodeAddress
  | ⟨.attempt a, o⟩ => o.lost a.target
  | ⟨.round as _, outcomes⟩ =>
      outcomes.flatMap fun (place, o) => as[place]?.toList.flatMap fun a => o.lost a.target
  | _ => []

/-- The nodes that have been lost. -/
def lost (past : Trace σ) : List NodeAddress :=
  past.flatMap Event.lost

/-- The topology that was read last, or else the one that the call is bound to. -/
def latest (bound : Topology) (cache : Bytes) (past : Trace σ) : Topology :=
  (readings cache past).getLast?.getD bound

/-- Nodes that are gone while some attempts are under way: all those that were lost before, and
possibly the targets of some of the attempts. -/
structure Gone (past : Trace σ) (others : List (Attempt op)) (gone : List NodeAddress) : Prop where
  lost : ∀ node ∈ lost past, node ∈ gone
  only : ∀ node ∈ gone, node ∈ Call.lost past ∨ ∃ b ∈ others, b.target = .address node

/-- The ask sets an attempt going, beside others. -/
inductive Ask.MakesBeside : Ask σ → {op : OpCode} → List (Attempt op) → Attempt op → Prop where
  | attempt {op : OpCode} (a : Attempt op) : MakesBeside (.attempt a) [] a
  | round {op : OpCode} (before after : List (Attempt op)) (a : Attempt op)
      (arrival : Outcome op.Reply → List Measurement) :
      MakesBeside (.round (before ++ a :: after) arrival) (before ++ after) a

/-- The target for a key is still the best one while other targets are tried. -/
theorem Gone.best_forKey {past : Trace σ} {others : List (Attempt op)}
    {gone failed : List NodeAddress} (h : Gone past others gone)
    (hfailed : ∀ node, node ∈ failed ↔ node ∈ Call.lost past) {key : Bytes} {t : Topology}
    (hothers : ∀ b ∈ others, b.target ≠ .forKey key t failed) :
    (Target.forKey key t failed).Best t gone key := by
  refine (Target.best_forKey key t failed).of_subset ?_ ?_
  · exact fun node hnode => h.lost node ((hfailed node).1 hnode)
  · intro node hnode hmem
    rcases h.only node hmem with hlost | ⟨b, hb, htarget⟩
    · exact (hfailed node).2 hlost
    · exact absurd (htarget.trans hnode.symm) (hothers b hb)

theorem lost_append (first last : Trace σ) : lost (first ++ last) = lost first ++ lost last :=
  List.flatMap_append

theorem lost_concat (past : Trace σ) (e : Event σ) : lost (past ++ [e]) = lost past ++ e.lost := by
  rw [lost_append]
  exact congrArg _ (List.flatMap_singleton _ _)

theorem latest_read (bound : Topology) (cache : Bytes) (past : Trace σ) (t : Topology) :
    latest bound cache (past ++ [⟨.topology cache, t⟩]) = t := by
  unfold latest
  rw [readings_append, readings_topology, readings_nil, List.getLast?_concat]
  rfl

/-- What is read is current at that moment, so it has come of what was known before. -/
theorem current_of_reading {known : Registry} {trace : Trace σ} {cache : Bytes} {t : Topology}
    (h : Hears known trace) (ht : t ∈ readings cache trace) :
    ∃ s, known.Evolves s ∧ t = s.current cache := by
  induction h with
  | nil r => cases ht
  | @topology r s rest hevolves other h ih =>
      rcases List.mem_filterMap.1 ht with ⟨e, he, hreading⟩
      rcases List.mem_cons.1 he with rfl | hlater
      · by_cases hother : other = cache
        · subst hother
          have hread : some (s.current other) = some t := (if_pos rfl).symm.trans hreading
          cases hread
          exact ⟨s, hevolves, rfl⟩
        · have hread : none = some t := (if_neg hother).symm.trans hreading
          cases hread
      · rcases ih (List.mem_filterMap.2 ⟨e, hlater, hreading⟩) with ⟨u, hu, heq⟩
        exact ⟨u, hevolves.trans hu, heq⟩
  | @other r e rest he h ih =>
      rcases List.mem_filterMap.1 ht with ⟨x, hx, hreading⟩
      rcases List.mem_cons.1 hx with rfl | hlater
      · rcases x with ⟨q, answer⟩
        cases q with
        | topology other => exact absurd rfl (he other)
        | _ => cases hreading
      · exact ih (List.mem_filterMap.2 ⟨x, hlater, hreading⟩)

/-!
# What an attempt goes by
-/

/-- An attempt of a call under a topology, when some nodes are gone: one of its own attempts,
which goes to the best target for all its keys, or a ping that refreshes the topology. -/
inductive Routed (cache : RemoteCache) (deadline : Instant)
    (sends : Operation op → List Bytes → Prop) (t : Topology) (gone : List NodeAddress) :
    {other : OpCode} → Attempt other → Prop where
  | own {r : Request op} {target : Target} {keys : List Bytes} (hcache : r.cache = cache)
      (hsends : sends r.operation keys) (hbest : ∀ key ∈ keys, target.Best t gone key) :
      Routed cache deadline sends t gone (r.attempt t target deadline)
  | ping : Routed cache deadline sends t gone (cache.refreshPing t deadline)

/-- All attempts that are asked for go by what was read last and by what has been lost. -/
def Fits (bound : Topology) (cache : RemoteCache) (deadline : Instant)
    (sends : Operation op → List Bytes → Prop) (past : Trace σ) (q : Ask σ) : Prop :=
  ∀ {other : OpCode} (a : Attempt other) (others : List (Attempt other))
    (gone : List NodeAddress), q.MakesBeside others a → Gone past others gone →
      Routed cache deadline sends (latest bound cache.key past) gone a

variable {bound : Topology} {cache : RemoteCache} {deadline : Instant}
  {sends : Operation op → List Bytes → Prop} {α : Type}
  {past : Trace σ}

/-- When the topology has been read, the call goes by it. -/
theorem heeds_read {next : Topology → Call σ α}
    (h : ∀ t later, latest bound cache.key later = t → lost later = lost past →
      Program.Heeds (Fits bound cache deadline sends) later (next t)) :
    Program.Heeds (Fits bound cache deadline sends) past (Call.topology cache.key >>= next) := by
  refine .ask (fun _ _ _ hmakes => nomatch hmakes) fun t => h t _ ?_ ?_
  · exact latest_read bound cache.key past t
  · exact (lost_concat _ _).trans (List.append_nil _)

theorem heeds_record {m : Measurement} {next : Unit → Call σ α}
    (h : ∀ later, latest bound cache.key later = latest bound cache.key past →
      lost later = lost past →
        Program.Heeds (Fits bound cache deadline sends) later (next ())) :
    Program.Heeds (Fits bound cache deadline sends) past (Call.record m >>= next) := by
  refine .ask (fun _ _ _ hmakes => nomatch hmakes) fun _ => h _ ?_ ?_
  · unfold latest
    rw [readings_append, readings_record, readings_nil, List.append_nil]
  · exact (lost_concat _ _).trans (List.append_nil _)

theorem heeds_attempt {other : OpCode} {a : Attempt other} {next : Outcome other.Reply → Call σ α}
    (ha : ∀ gone, Gone past ([] : List (Attempt other)) gone →
      Routed cache deadline sends (latest bound cache.key past) gone a)
    (h : ∀ o later, lost later = lost past ++ o.lost a.target →
      Program.Heeds (Fits bound cache deadline sends) later (next o)) :
    Program.Heeds (Fits bound cache deadline sends) past (Call.attempt a >>= next) := by
  refine .ask ?_ fun o => h o _ (lost_concat _ _)
  intro other b others gone hmakes hgone
  cases hmakes
  exact ha gone hgone

theorem heeds_round {other : OpCode} {as : List (Attempt other)}
    {arrival : Outcome other.Reply → List Measurement}
    {next : List (Nat × Outcome other.Reply) → Call σ α}
    (has : ∀ before a after gone, as = before ++ a :: after → Gone past (before ++ after) gone →
      Routed cache deadline sends (latest bound cache.key past) gone a)
    (h : ∀ outcomes later,
      lost later = lost past ++ Event.lost (⟨.round as arrival, outcomes⟩ : Event σ) →
        Program.Heeds (Fits bound cache deadline sends) later (next outcomes)) :
    Program.Heeds (Fits bound cache deadline sends) past (Call.round as arrival >>= next) := by
  refine .ask ?_ fun outcomes => h outcomes _ (lost_concat _ _)
  intro other a others gone hmakes hgone
  cases hmakes with
  | round before after a arrival => exact has before a after gone rfl hgone

/-- A ping goes to any node, so that none is lost with it. -/
theorem heeds_refresh {next : Unit → Call σ α}
    (h : ∀ later, lost later = lost past →
      Program.Heeds (Fits bound cache deadline sends) later (next ())) :
    Program.Heeds (Fits bound cache deadline sends) past (cache.refresh deadline >>= next) := by
  unfold RemoteCache.refresh Request.bind
  simp only [Program.bind_bind, Program.pure_bind]
  refine heeds_read fun t read hread hlost => heeds_attempt ?_ fun o later hlater => h later ?_
  · intro gone hgone
    rw [hread]
    exact .ping
  · rw [hlater, hlost]
    cases o <;> exact List.append_nil _

/-- The topology is read anew, possibly after a refresh. -/
theorem heeds_reread {c : Prop} [Decidable c] {next : Topology → Call σ α}
    (h : ∀ t later, latest bound cache.key later = t → lost later = lost past →
      Program.Heeds (Fits bound cache deadline sends) later (next t)) :
    Program.Heeds (Fits bound cache deadline sends) past
      (if c then cache.refresh deadline >>= fun _ => Call.topology cache.key >>= next
      else Call.topology cache.key >>= next) := by
  split
  · refine heeds_refresh fun refreshed hrefreshed => heeds_read fun t later hread hlost => ?_
    exact h t later hread (hlost.trans hrefreshed)
  · exact heeds_read h

end Call
end GridClient
