import GridClient.Proofs.Call.Hearing
import GridClient.Proofs.Call.Round

/-!
# The rounds of a call

A call makes one round after another. A round sends what the one before has left to be sent
again, grouped anew; the first sends everything. The call is over after a round with a
failure, after a round that leaves nothing to be sent again, and after the last round that
the limit allows.
-/

namespace GridClient

namespace Call

variable {σ β : Type}

theorem reaches_round {op : OpCode} {as : List (Attempt op)}
    {arrival : Outcome op.Reply → List Measurement}
    {f : List (Nat × Outcome op.Reply) → Call σ β} {trace : Trace σ} {stand : Stand σ β} :
    Reaches (round as arrival >>= f) trace stand ↔
      (trace = [] ∧ stand = .waiting (.round as arrival)) ∨
        ∃ (outcomes : List (Nat × Outcome op.Reply)) (rest : Trace σ),
          trace = ⟨.round as arrival, outcomes⟩ :: rest ∧ Reaches (f outcomes) rest stand := by
  have h : Reaches (.ask (.round as arrival) f) trace stand ↔ _ := Program.reaches_ask
  exact h.trans (or_congr_left (and_iff_right trivial))

end Call

namespace BulkRequest

variable {op : OpCode} {ι σ : Type}

namespace Round

/-- The groups of the round are those of the items, for some nodes that count as failed. -/
def Sends (b : Batching op ι) (x : Round op ι) (pending : List ι) : Prop :=
  ∃ failed, x.groups = partition b x.topology failed pending

/-- All groups have come back, each with the outcome that its attempt has come to. -/
def Over (r : BulkRequest op ι) (deadline : Instant) (x : Round op ι) : Prop :=
  ∃ outcomes : List (Nat × Outcome op.Reply), (x.sent r deadline).Over outcomes

/-- The round has not failed and leaves items to be sent again. -/
structure Unsettled (x : Round op ι) : Prop where
  failure : x.failure? = none
  retried : x.retried ≠ []

end Round

/-- What a call with so many rounds left after this one can come to without making another,
with what has been merged before. -/
inductive Ending (r : BulkRequest op ι) (deadline : Instant) (left : Nat) (merged : op.Reply)
    (x : Round op ι) : Call.Stand σ (Except ClientError op.Reply) → Prop where
  | underway (hopen : x.outcomes = none) (q : Call.Ask σ) :
      Ending r deadline left merged x (.waiting q)
  | failed {e : ClientError} (hover : x.Over r deadline) (he : x.failure? = some e) :
      Ending r deadline left merged x (.done (.error e))
  | completed (hover : x.Over r deadline) (hfailure : x.failure? = none)
      (hretried : x.retried = []) :
      Ending r deadline left merged x (.done (.ok (x.replies.foldl r.batching.merge merged)))
  | spent (hover : x.Over r deadline) (hunsettled : x.Unsettled) (hleft : left = 0)
      (text : String) :
      Ending r deadline left merged x (.done (.error (.topologyUnstable r.limit text)))
  | refreshing (hover : x.Over r deadline) (hunsettled : x.Unsettled) (q : Call.Ask σ) :
      Ending r deadline left merged x (.waiting q)

/-- The rounds that a call can make while so many are left, with the items that are still to
be sent and what has been merged before. -/
inductive Rounds (r : BulkRequest op ι) (deadline : Instant) :
    Nat → List ι → op.Reply → List (Round op ι) →
      Call.Stand σ (Except ClientError op.Reply) → Prop where
  | nothing {left : Nat} {merged : op.Reply} :
      Rounds r deadline left [] merged [] (.done (.ok merged))
  | last {left : Nat} {pending : List ι} {merged : op.Reply} {x : Round op ι}
      {stand : Call.Stand σ (Except ClientError op.Reply)} (hx : x.Sends r.batching pending)
      (h : Ending r deadline left merged x stand) :
      Rounds r deadline (left + 1) pending merged [x] stand
  | again {left : Nat} {pending : List ι} {merged : op.Reply} {x : Round op ι}
      {xs : List (Round op ι)} {stand : Call.Stand σ (Except ClientError op.Reply)}
      (hx : x.Sends r.batching pending) (hover : x.Over r deadline) (hunsettled : x.Unsettled)
      (h : Rounds r deadline (left + 1) x.retried (x.replies.foldl r.batching.merge merged) xs
        stand) :
      Rounds r deadline (left + 2) pending merged (x :: xs) stand

namespace Rounds

variable {r : BulkRequest op ι} {deadline : Instant} {left : Nat} {pending : List ι}
  {merged : op.Reply} {xs : List (Round op ι)}
  {stand : Call.Stand σ (Except ClientError op.Reply)} {result : Except ClientError op.Reply}

theorem length_le (h : Rounds r deadline left pending merged xs stand) : xs.length ≤ left := by
  induction h with
  | nothing => exact Nat.zero_le _
  | last hx h => exact Nat.succ_le_succ (Nat.zero_le _)
  | again hx hover hunsettled h ih => exact Nat.succ_le_succ ih

/-- A call does not return before its rounds are over. -/
theorem over_of_done (h : Rounds r deadline left pending merged xs stand)
    (hdone : stand = .done result) : ∀ x ∈ xs, x.Over r deadline := by
  induction h with
  | nothing => simp
  | last hx h =>
      intro y hy
      rcases List.mem_singleton.1 hy with rfl
      cases h with
      | underway hopen q => cases hdone
      | failed hover he => exact hover
      | completed hover hfailure hretried => exact hover
      | spent hover hunsettled hleft text => exact hover
      | refreshing hover hunsettled q => exact hover
  | again hx hover hunsettled h ih => exact List.forall_mem_cons.2 ⟨hover, ih hdone⟩

/-- A call returns the replies of all its rounds, merged in the order of arrival. -/
theorem value_eq (h : Rounds r deadline left pending merged xs stand) {value : op.Reply}
    (hdone : stand = .done (.ok value)) :
    value = (xs.flatMap Round.replies).foldl r.batching.merge merged := by
  induction h with
  | nothing =>
      cases hdone
      rfl
  | @last left pending merged x stand hx h =>
      rw [List.flatMap_singleton]
      cases h with
      | completed hover hfailure hretried =>
          cases hdone
          rfl
      | _ => cases hdone
  | again hx hover hunsettled h ih => rw [List.flatMap_cons, List.foldl_append, ih hdone]

/-- A failure ends the call once the round is over. -/
theorem failed (h : Rounds r deadline left pending merged xs stand) {x : Round op ι} (hx : x ∈ xs)
    {e : ClientError} (he : x.failure? = some e) : stand = .done (.error e) := by
  induction h with
  | nothing => cases hx
  | last hsends h =>
      rcases List.mem_singleton.1 hx with rfl
      cases h with
      | underway hopen q =>
          rw [Round.failure?, Round.parts, hopen] at he
          cases he
      | failed hover he' =>
          rw [he, Option.some_inj] at he'
          rw [he']
      | completed hover hfailure hretried =>
          rw [he] at hfailure
          cases hfailure
      | spent hover hunsettled hleft text =>
          exact absurd (he.symm.trans hunsettled.failure) (Option.some_ne_none e)
      | refreshing hover hunsettled q =>
          exact absurd (he.symm.trans hunsettled.failure) (Option.some_ne_none e)
  | again hsends hover hunsettled h ih =>
      rcases List.mem_cons.1 hx with rfl | hlater
      · exact absurd (he.symm.trans hunsettled.failure) (Option.some_ne_none e)
      · exact ih hlater

/-- A call ends with its last round, one way or another. -/
theorem ending (h : Rounds r deadline left pending merged xs stand) {before : List (Round op ι)}
    {x : Round op ι} (hxs : xs = before ++ [x]) :
    ∃ merged, Ending r deadline (left - xs.length) merged x stand := by
  induction h generalizing before with
  | nothing => exact absurd hxs.symm (List.append_ne_nil_of_right_ne_nil _ (List.cons_ne_nil _ _))
  | @last left pending merged y stand hsends h =>
      have hsplit : [] ++ [y] = before ++ [x] := hxs
      rcases List.append_inj' hsplit rfl with ⟨-, hlast⟩
      rw [← List.singleton_inj.1 hlast]
      exact ⟨merged, h⟩
  | @again left pending merged y ys stand hsends hover hunsettled h ih =>
      cases before with
      | nil =>
          rcases List.cons_eq_cons.1 hxs with ⟨-, rfl⟩
          generalize hretried : y.retried = pending at h
          cases h
          exact absurd hretried hunsettled.retried
      | cons z before =>
          rw [List.length_cons, Nat.succ_sub_succ]
          exact ih (List.cons_eq_cons.1 hxs).2

/-- A call that returns although its last round leaves something to be sent again has made all
the rounds that it may. -/
theorem spent (h : Rounds r deadline left pending merged xs stand) {before : List (Round op ι)}
    {x : Round op ι} (hxs : xs = before ++ [x]) (hunsettled : x.Unsettled)
    (hdone : stand = .done result) :
    xs.length = left ∧ ∃ text, result = .error (.topologyUnstable r.limit text) := by
  rcases h.ending hxs with ⟨_, hending⟩
  cases hending with
  | underway hopen q => cases hdone
  | failed hover he => exact absurd (he.symm.trans hunsettled.failure) (Option.some_ne_none _)
  | completed hover hfailure hretried => exact absurd hretried hunsettled.retried
  | spent hover hunsettled hleft text =>
      cases hdone
      exact ⟨Nat.le_antisymm h.length_le (Nat.sub_eq_zero_iff_le.1 hleft), text, rfl⟩
  | refreshing hover hunsettled q => cases hdone

/-- A call whose last round leaves nothing to be done returns a value. -/
theorem settled (h : Rounds r deadline left pending merged xs stand) {before : List (Round op ι)}
    {x : Round op ι} (hxs : xs = before ++ [x]) (hover : x.Over r deadline)
    (hfailure : x.failure? = none) (hretried : x.retried = []) :
    ∃ value, stand = .done (.ok value) := by
  rcases h.ending hxs with ⟨_, hending⟩
  cases hending with
  | underway hopen q =>
      rcases hover with ⟨outcomes, hover⟩
      exact absurd (hopen.symm.trans hover.outcomes_eq) (Option.some_ne_none _).symm
  | failed hover he => exact absurd (he.symm.trans hfailure) (Option.some_ne_none _)
  | completed hover hfailure hretried => exact ⟨_, rfl⟩
  | spent hover hunsettled hleft text => exact absurd hretried hunsettled.retried
  | refreshing hover hunsettled q => exact absurd hretried hunsettled.retried

end Rounds

/-!
# Rounds from runs
-/

/-- What a call can come to after a round. -/
inductive Sequel (r : BulkRequest op ι) (deadline : Instant) (left : Nat) (p : Progress op ι) :
    Call.Trace σ → Call.Stand σ (Except ClientError op.Reply) → Prop where
  | failed {e : ClientError} (he : p.failure = some e) :
      Sequel r deadline left p [] (.done (.error e))
  | completed (hfailure : p.failure = none) (hretry : p.retry = []) :
      Sequel r deadline left p [] (.done (.ok p.merged))
  | spent (hfailure : p.failure = none) (hretry : p.retry ≠ []) (hleft : left = 0) :
      Sequel r deadline left p [] (.done (.error (.topologyUnstable r.limit p.last)))
  | refreshing (hfailure : p.failure = none) (hretry : p.retry ≠ []) (hleft : left ≠ 0)
      (t : Topology) :
      Sequel r deadline left p [⟨.topology r.cache.key, t⟩]
        (.waiting (.attempt (r.cache.refreshPing t deadline)))
  | again {rest : Call.Trace σ} {stand : Call.Stand σ (Except ClientError op.Reply)}
      (hfailure : p.failure = none) (hretry : p.retry ≠ []) (hleft : left ≠ 0)
      (ping : Option Call.Refresh) (t : Topology)
      (h : Call.Reaches (r.rounds deadline left t (partition r.batching t p.failed p.retry) p) rest
        stand) :
      Sequel r deadline left p
        ((ping.toList.flatMap fun ping => ping.events r.cache deadline) ++
          ⟨.topology r.cache.key, t⟩ :: rest) stand

theorem sequel_of_reaches {r : BulkRequest op ι} {deadline : Instant} {left : Nat}
    {p : Progress op ι} {trace : Call.Trace σ}
    {stand : Call.Stand σ (Except ClientError op.Reply)}
    (h : Call.Reaches (r.resume deadline left p) trace stand) :
    Sequel r deadline left p trace stand := by
  unfold resume at h
  cases hfailure : p.failure with
  | some e =>
      rw [hfailure] at h
      rcases Program.reaches_pure.1 h with ⟨rfl, rfl⟩
      exact .failed hfailure
  | none =>
      rw [hfailure] at h
      dsimp only at h
      split at h
      · next hretry =>
        rcases Program.reaches_pure.1 h with ⟨rfl, rfl⟩
        exact .completed hfailure (List.isEmpty_iff.1 hretry)
      · next hretry =>
        rw [List.isEmpty_iff] at hretry
        split at h
        · next hleft =>
          rcases Program.reaches_pure.1 h with ⟨rfl, rfl⟩
          exact .spent hfailure hretry hleft
        · next hleft =>
          split at h
          · rcases Program.reaches_bind.1 h with ⟨q, hping, rfl⟩ | ⟨first, _, _, rfl, hping, hnext⟩
            · rcases Call.reaches_refresh.1 hping with ⟨t, ⟨rfl, hstand⟩ | ⟨o, -, hstand⟩⟩
              · cases hstand
                exact .refreshing hfailure hretry hleft t
              · cases hstand
            · rcases Call.Refresh.of_reaches hping with ⟨ping, rfl⟩
              rcases Call.reaches_topology.1 hnext with ⟨u, rest, rfl, hlater⟩
              have hagain := Sequel.again hfailure hretry hleft (some ping) u hlater
              simpa using hagain
          · rcases Call.reaches_topology.1 h with ⟨u, rest, rfl, hlater⟩
            exact .again hfailure hretry hleft none u hlater

/-- Outside its rounds a call makes no attempts but pings that refresh the topology. -/
def PingsOnly (r : BulkRequest op ι) (deadline : Instant) (q : Call.Ask σ) : Prop :=
  ∀ {other : OpCode} (a : Attempt other), q = .attempt a →
    ∃ t, q = .attempt (r.cache.refreshPing t deadline)

/-- An account of what a call has asked for: the rounds, and pings between them. -/
structure Asks (r : BulkRequest op ι) (deadline : Instant) (trace : Call.Trace σ)
    (stand : Call.Stand σ (Except ClientError op.Reply)) (xs : List (Round op ι)) : Prop where
  rounds_eq : Call.rounds trace stand = xs.map (Round.sent r deadline)
  pings : ∀ q ∈ Call.asked trace stand, PingsOnly r deadline q

namespace Asks

variable {r : BulkRequest op ι} {deadline : Instant} {trace : Call.Trace σ}
  {stand : Call.Stand σ (Except ClientError op.Reply)} {xs : List (Round op ι)}

theorem done (result : Except ClientError op.Reply) :
    Asks r deadline ([] : Call.Trace σ) (.done result) [] :=
  ⟨rfl, by simp [Call.asked]⟩

theorem cons {e : Call.Event σ} (he : Call.Event.sent? e = none)
    (hping : PingsOnly r deadline e.ask) (h : Asks r deadline trace stand xs) :
    Asks r deadline (e :: trace) stand xs := by
  constructor
  · rw [Call.rounds_cons, he, h.rounds_eq]
    rfl
  · rw [Call.asked_cons]
    exact List.forall_mem_cons.2 ⟨hping, h.pings⟩

theorem round {t : Topology} {groups : Table Target (List ι)}
    {outcomes : List (Nat × Outcome op.Reply)} (h : Asks r deadline trace stand xs) :
    Asks r deadline
      (⟨.round (groups.map fun (target, items) => r.attempt t deadline target items) (arrival op),
        outcomes⟩ :: trace) stand (⟨t, groups, some outcomes⟩ :: xs) := by
  constructor
  · rw [Call.rounds_cons, h.rounds_eq]
    rfl
  · rw [Call.asked_cons]
    refine List.forall_mem_cons.2 ⟨?_, h.pings⟩
    intro other a ha
    cases ha

theorem topology (cache : Bytes) (t : Topology) (h : Asks r deadline trace stand xs) :
    Asks r deadline (⟨.topology cache, t⟩ :: trace) stand xs := by
  refine h.cons rfl ?_
  intro other a ha
  cases ha

theorem refresh (ping : Option Call.Refresh) (h : Asks r deadline trace stand xs) :
    Asks r deadline ((ping.toList.flatMap fun ping => ping.events r.cache deadline) ++ trace) stand
      xs := by
  cases ping with
  | none => exact h
  | some ping =>
      refine topology r.cache.key ping.topology (cons rfl ?_ h)
      intro other a ha
      exact ⟨ping.topology, rfl⟩

end Asks

/-- The first of a call's rounds: it is under way, or it is over and has a sequel. -/
theorem rounds_of_reaches {r : BulkRequest op ι} {deadline : Instant} {left : Nat} {t : Topology}
    {failed : List NodeAddress} {pending : List ι} {p : Progress op ι} {trace : Call.Trace σ}
    {stand : Call.Stand σ (Except ClientError op.Reply)}
    (hcarried : ∀ e ∈ trace, Call.Event.Carried e)
    (h : Call.Reaches
      (r.rounds deadline (left + 1) t (partition r.batching t failed pending) p) trace stand) :
    ∃ xs, Rounds r deadline (left + 1) pending p.merged xs stand ∧
      Asks r deadline trace stand xs := by
  induction left using Nat.strongRecOn generalizing t failed pending p trace with
  | ind left ih =>
      rw [rounds_succ, Call.reaches_record] at h
      rcases h with ⟨rest, rfl, h⟩
      have hrecord : PingsOnly r deadline (.record (.fanout op.name
          (partition r.batching t failed pending).length) : Call.Ask σ) := by
        intro other a ha
        cases ha
      rw [Call.reaches_round] at h
      rcases h with ⟨rfl, rfl⟩ | ⟨outcomes, rest, rfl, h⟩
      · refine ⟨[⟨t, _, none⟩], .last ⟨failed, rfl⟩ (.underway rfl _), .cons rfl hrecord ⟨rfl, ?_⟩⟩
        intro q hq other a ha
        rcases List.mem_singleton.1 hq with rfl
        cases ha
      · rw [List.forall_mem_cons, List.forall_mem_cons] at hcarried
        rcases hcarried with ⟨-, hround, hrest⟩
        let x : Round op ι := ⟨t, partition r.batching t failed pending, some outcomes⟩
        have hx : x.Sends r.batching pending := ⟨failed, rfl⟩
        have hover : x.Over r deadline := ⟨outcomes, Call.over_of_carried hround⟩
        have hfailure := Progress.failure_takeAll (x := x) r.batching p rfl
        have hretry := Progress.retry_takeAll (x := x) r.batching p rfl
        have hmerged := Progress.merged_takeAll (x := x) r.batching p rfl
        cases sequel_of_reaches h with
        | failed he =>
            rw [hfailure] at he
            exact ⟨[x], .last hx (.failed hover he), .cons rfl hrecord (.round (.done _))⟩
        | completed hnone hempty =>
            rw [hfailure] at hnone
            rw [hretry] at hempty
            rw [hmerged hnone]
            exact ⟨[x], .last hx (.completed hover hnone hempty),
              .cons rfl hrecord (.round (.done _))⟩
        | spent hnone hsome hleft =>
            rw [hfailure] at hnone
            rw [hretry] at hsome
            exact ⟨[x], .last hx (.spent hover ⟨hnone, hsome⟩ hleft _),
              .cons rfl hrecord (.round (.done _))⟩
        | refreshing hnone hsome hleft u =>
            rw [hfailure] at hnone
            rw [hretry] at hsome
            refine ⟨[x], .last hx (.refreshing hover ⟨hnone, hsome⟩ _),
              .cons rfl hrecord (.round (.topology _ _ ⟨rfl, ?_⟩))⟩
            intro q hq other a ha
            rcases List.mem_singleton.1 hq with rfl
            exact ⟨u, rfl⟩
        | again hnone hsome hleft ping u hnext =>
            rcases Nat.exists_eq_succ_of_ne_zero hleft with ⟨left, rfl⟩
            have hlater : ∀ e ∈ _, Call.Event.Carried e := fun e he =>
              hrest e (List.mem_append_right _ (List.mem_cons_of_mem _ he))
            rcases ih left (Nat.lt_succ_self left) hlater hnext with ⟨xs, hrounds, hasks⟩
            rw [hfailure] at hnone
            rw [hretry] at hsome
            rw [hretry, hmerged hnone] at hrounds
            exact ⟨x :: xs, .again hx hover ⟨hnone, hsome⟩ hrounds,
              .cons rfl hrecord (.round (.refresh ping (.topology _ _ hasks)))⟩

end BulkRequest
end GridClient
