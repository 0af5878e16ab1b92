import GridClient.Proofs.Attempt.Answered
import GridClient.Proofs.Call.Retries

/-!
# The efforts behind a call

Behind every attempt that a call asks for there is a run of that attempt. The runs behind a
request are sorted into bouts: an attempt at the request, and the ping that may follow it. All
attempts but the last one have asked to be repeated.
-/

namespace GridClient
namespace Call

variable {σ α : Type}

/-- An attempt that has been asked for, with its run so far. -/
structure Effort where
  op : OpCode
  attempt : Attempt op
  run : Exchange.Trace
  stand : Exchange.Stand (Outcome op.Reply)

/-- The efforts behind a run of a call: every attempt has ended with its outcome, and if the
call waits for one, that one is under way. -/
inductive Performs : Trace σ → Stand σ α → List Effort → Prop where
  | done (a : α) : Performs [] (.done a) []
  | waiting {op : OpCode} {a : Attempt op} {run : Exchange.Trace} {q : Exchange.Ask}
      (hrun : Exchange.Reaches a.run run (.waiting q)) :
      Performs [] (.waiting (.attempt a)) [⟨op, a, run, .waiting q⟩]
  | attempt {op : OpCode} {a : Attempt op} {o : Outcome op.Reply} {run : Exchange.Trace}
      {rest : Trace σ} {stand : Stand σ α} {efforts : List Effort}
      (hrun : Exchange.Reaches a.run run (.done o)) (h : Performs rest stand efforts) :
      Performs (⟨.attempt a, o⟩ :: rest) stand (⟨op, a, run, .done o⟩ :: efforts)
  | atOnce {e : Event σ} {rest : Trace σ} {stand : Stand σ α} {efforts : List Effort}
      (he : ¬ e.ask.Waits) (h : Performs rest stand efforts) : Performs (e :: rest) stand efforts

variable {stand : Stand σ α} {rest : Trace σ} {efforts : List Effort}

theorem performs_done {a : α} (h : Performs ([] : Trace σ) (.done a) efforts) : efforts = [] := by
  cases h
  rfl

theorem performs_waiting {op : OpCode} {a : Attempt op}
    (h : Performs ([] : Trace σ) (.waiting (.attempt a) : Stand σ α) efforts) :
    ∃ run q, efforts = [⟨op, a, run, .waiting q⟩] ∧ Exchange.Reaches a.run run (.waiting q) := by
  cases h with
  | waiting hrun => exact ⟨_, _, rfl, hrun⟩

theorem performs_attempt {op : OpCode} {a : Attempt op} {o : Outcome op.Reply}
    (h : Performs (⟨.attempt a, o⟩ :: rest) stand efforts) :
    ∃ run later, efforts = ⟨op, a, run, .done o⟩ :: later ∧ Exchange.Reaches a.run run (.done o) ∧
      Performs rest stand later := by
  cases h with
  | attempt hrun h => exact ⟨_, _, rfl, hrun, h⟩
  | atOnce he h => exact absurd trivial he

theorem performs_atOnce {e : Event σ} (he : ¬ e.ask.Waits)
    (h : Performs (e :: rest) stand efforts) : Performs rest stand efforts := by
  cases h with
  | attempt hrun h => exact absurd trivial he
  | atOnce _ h => exact h

end Call

theorem Outcome.isRetry_of_isConnectivity {α : Type} {o : Outcome α}
    (h : o.isConnectivity = true) : o.isRetry = true := by
  cases o with
  | retryConnectivity e => rfl
  | _ => cases h

namespace Request

variable {op : OpCode} {σ : Type} {r : Request op} {deadline : Instant}

/-- An attempt at a request with its run so far, and the ping that may have followed. -/
structure Bout (op : OpCode) where
  attempt : Attempt op
  run : Exchange.Trace
  stand : Exchange.Stand (Outcome op.Reply)
  ping : Option Call.Effort

def Bout.efforts (b : Bout op) : List Call.Effort :=
  ⟨op, b.attempt, b.run, b.stand⟩ :: b.ping.toList

/-- A ping by which a request refreshes the topology. -/
structure Refreshes (r : Request op) (deadline : Instant) (x : Call.Effort) : Prop where
  attempt : ∃ t, ⟨x.op, x.attempt⟩ = (⟨.ping, r.cache.refreshPing t deadline⟩ : Sigma Attempt)
  reaches : Exchange.Reaches x.attempt.run x.run x.stand

/-- The bouts of a request, and the stand they have brought its call to. -/
inductive Bouts (r : Request op) (deadline : Instant) :
    List (Bout op) → Call.Stand σ (Except ClientError op.Reply) → Prop where
  | spent (text : String) : Bouts r deadline [] (.done (.error (.topologyUnstable r.limit text)))
  | underWay {t : Topology} {target : Target} {run : Exchange.Trace} {q : Exchange.Ask}
      (hrun : Exchange.Reaches (r.attempt t target deadline).run run (.waiting q)) :
      Bouts r deadline [⟨r.attempt t target deadline, run, .waiting q, none⟩]
        (.waiting (.attempt (r.attempt t target deadline)))
  | settled {t : Topology} {target : Target} {run : Exchange.Trace} {o : Outcome op.Reply}
      {result : Except ClientError op.Reply}
      (hrun : Exchange.Reaches (r.attempt t target deadline).run run (.done o))
      (ho : o.result? = some result) :
      Bouts r deadline [⟨r.attempt t target deadline, run, .done o, none⟩] (.done result)
  | pinging {t : Topology} {target : Target} {run : Exchange.Trace} {o : Outcome op.Reply}
      {ping : Call.Effort} {a : Attempt .ping}
      (hrun : Exchange.Reaches (r.attempt t target deadline).run run (.done o))
      (ho : o.isConnectivity = true) (hping : Refreshes r deadline ping) :
      Bouts r deadline [⟨r.attempt t target deadline, run, .done o, some ping⟩]
        (.waiting (.attempt a))
  | again {t : Topology} {target : Target} {run : Exchange.Trace} {o : Outcome op.Reply}
      {ping : Option Call.Effort} {bouts : List (Bout op)}
      {stand : Call.Stand σ (Except ClientError op.Reply)}
      (hrun : Exchange.Reaches (r.attempt t target deadline).run run (.done o))
      (ho : o.isRetry = true)
      (hping : ∀ x ∈ ping, o.isConnectivity = true ∧ Refreshes r deadline x)
      (h : Bouts r deadline bouts stand) :
      Bouts r deadline (⟨r.attempt t target deadline, run, .done o, ping⟩ :: bouts) stand

/-- A refresh is under way, or its ping has been made and the call has gone on. -/
theorem refreshes_of_reaches {α : Type} {next : Unit → Call σ α} {trace : Call.Trace σ}
    {stand : Call.Stand σ α} {efforts : List Call.Effort}
    (h : Call.Reaches (r.cache.refresh deadline >>= next) trace stand)
    (hperforms : Call.Performs trace stand efforts) :
    ∃ ping, Refreshes r deadline ping ∧
      ((efforts = [ping] ∧ ∃ a : Attempt .ping, stand = .waiting (.attempt a)) ∨
        ∃ later rest, efforts = ping :: later ∧ Call.Reaches (next ()) rest stand ∧
          Call.Performs rest stand later) := by
  rcases Program.reaches_bind.1 h with ⟨q, hping, rfl⟩ | ⟨first, _, rest, rfl, hping, hnext⟩
  · rcases Call.reaches_refresh.1 hping with ⟨u, ⟨rfl, hwaiting⟩ | ⟨o, -, hdone⟩⟩
    · cases hwaiting
      rcases Call.performs_waiting (Call.performs_atOnce id hperforms) with ⟨run, q, rfl, hrun⟩
      exact ⟨_, ⟨⟨u, rfl⟩, hrun⟩, Or.inl ⟨rfl, _, rfl⟩⟩
    · cases hdone
  · rcases Call.Refresh.of_reaches hping with ⟨ping, rfl⟩
    rcases Call.performs_attempt (Call.performs_atOnce id hperforms) with
      ⟨run, later, rfl, hrun, hlater⟩
    exact ⟨_, ⟨⟨ping.topology, rfl⟩, hrun⟩, Or.inr ⟨later, rest, rfl, hnext, hlater⟩⟩

/-- An attempt at a request is the last bout of the call, or it has asked to be repeated and
the call goes on with one attempt less. -/
theorem bout_of_reaches {left : Nat} {t : Topology} {failed : List NodeAddress} {text : String}
    {trace : Call.Trace σ} {stand : Call.Stand σ (Except ClientError op.Reply)}
    {efforts : List Call.Effort}
    (h : Call.Reaches (r.attempts deadline (left + 1) t failed text) trace stand)
    (hperforms : Call.Performs trace stand efforts) :
    ∃ (b : Bout op) (later : List Call.Effort), efforts = b.efforts ++ later ∧
      ((later = [] ∧ Bouts r deadline [b] stand) ∨
        ∃ u failing reason rest,
          (∀ bouts, Bouts r deadline bouts stand → Bouts r deadline (b :: bouts) stand) ∧
            Call.Reaches (r.attempts deadline left u failing reason) rest stand ∧
              Call.Performs rest stand later) := by
  rw [attempts, Call.reaches_attempt] at h
  rcases h with ⟨rfl, rfl⟩ | ⟨o, rest, rfl, h⟩
  · rcases Call.performs_waiting hperforms with ⟨run, q, rfl, hrun⟩
    exact ⟨_, [], rfl, Or.inl ⟨rfl, .underWay hrun⟩⟩
  · rcases Call.performs_attempt hperforms with ⟨run, later, rfl, hrun, hlater⟩
    cases o with
    | completed reply =>
        rcases Program.reaches_pure.1 h with ⟨rfl, rfl⟩
        cases Call.performs_done hlater
        exact ⟨⟨_, run, .done (.completed reply), none⟩, [], rfl, Or.inl ⟨rfl, .settled hrun rfl⟩⟩
    | failed e =>
        rcases Program.reaches_pure.1 h with ⟨rfl, rfl⟩
        cases Call.performs_done hlater
        exact ⟨⟨_, run, .done (.failed e), none⟩, [], rfl, Or.inl ⟨rfl, .settled hrun rfl⟩⟩
    | retryTopology =>
        rw [Call.reaches_record] at h
        rcases h with ⟨rest, rfl, h⟩
        rw [Call.reaches_topology] at h
        rcases h with ⟨u, rest, rfl, hnext⟩
        have hrest := Call.performs_atOnce id (Call.performs_atOnce id hlater)
        exact ⟨⟨_, run, .done .retryTopology, none⟩, later, rfl,
          Or.inr ⟨u, _, _, rest, fun _ => .again hrun rfl (by simp), hnext, hrest⟩⟩
    | retryConnectivity e =>
        simp only at h
        rw [Call.reaches_record] at h
        rcases h with ⟨rest, rfl, h⟩
        have hrest := Call.performs_atOnce id hlater
        split at h
        · rcases refreshes_of_reaches h hrest with
            ⟨ping, hping, ⟨rfl, a, rfl⟩ | ⟨later, rest, rfl, h, hlater⟩⟩
          · exact ⟨⟨_, run, .done (.retryConnectivity e), some ping⟩, [], rfl,
              Or.inl ⟨rfl, .pinging hrun rfl hping⟩⟩
          · rcases Call.reaches_topology.1 h with ⟨u, rest, rfl, hnext⟩
            refine ⟨⟨_, run, .done (.retryConnectivity e), some ping⟩, later, rfl,
              Or.inr ⟨u, _, _, rest, ?_, hnext, Call.performs_atOnce id hlater⟩⟩
            exact fun _ => .again hrun rfl (by rintro _ ⟨⟩; exact ⟨rfl, hping⟩)
        · rcases Call.reaches_topology.1 h with ⟨u, rest, rfl, hnext⟩
          exact ⟨⟨_, run, .done (.retryConnectivity e), none⟩, later, rfl,
            Or.inr ⟨u, _, _, rest, fun _ => .again hrun rfl (by simp), hnext,
              Call.performs_atOnce id hrest⟩⟩

/-- The efforts behind a request come in bouts. -/
theorem bouts_of_reaches {left : Nat} {t : Topology} {failed : List NodeAddress} {text : String}
    {trace : Call.Trace σ} {stand : Call.Stand σ (Except ClientError op.Reply)}
    {efforts : List Call.Effort}
    (h : Call.Reaches (r.attempts deadline left t failed text) trace stand)
    (hperforms : Call.Performs trace stand efforts) :
    ∃ bouts, efforts = bouts.flatMap Bout.efforts ∧ Bouts r deadline bouts stand := by
  induction left generalizing t failed text trace efforts with
  | zero =>
      rcases Program.reaches_pure.1 h with ⟨rfl, rfl⟩
      exact ⟨[], Call.performs_done hperforms, .spent text⟩
  | succ left ih =>
      rcases bout_of_reaches h hperforms with
        ⟨b, later, rfl, ⟨rfl, hlast⟩ | ⟨u, failing, reason, rest, hagain, hnext, hlater⟩⟩
      · exact ⟨[b], by simp, hlast⟩
      · rcases ih hnext hlater with ⟨bouts, rfl, hbouts⟩
        exact ⟨b :: bouts, by simp, hagain bouts hbouts⟩

namespace Bouts

variable {before after : List (Bout op)} {b : Bout op}
  {stand : Call.Stand σ (Except ClientError op.Reply)}

/-- The bouts from one of them on are bouts too. -/
theorem suffix (h : Bouts r deadline (before ++ b :: after) stand) :
    Bouts r deadline (b :: after) stand := by
  induction before with
  | nil => exact h
  | cons first before ih =>
      rw [List.cons_append] at h
      generalize hrest : before ++ b :: after = rest at h ih
      cases h with
      | underWay hrun => simp at hrest
      | settled hrun ho => simp at hrest
      | pinging hrun ho hping => simp at hrest
      | again hrun ho hping h => exact ih h

theorem reaches (h : Bouts r deadline (b :: after) stand) :
    (∃ t target, b.attempt = r.attempt t target deadline) ∧
      Exchange.Reaches b.attempt.run b.run b.stand := by
  cases h with
  | underWay hrun => exact ⟨⟨_, _, rfl⟩, hrun⟩
  | settled hrun ho => exact ⟨⟨_, _, rfl⟩, hrun⟩
  | pinging hrun ho hping => exact ⟨⟨_, _, rfl⟩, hrun⟩
  | again hrun ho hping h => exact ⟨⟨_, _, rfl⟩, hrun⟩

/-- An attempt that has not asked to be repeated is the last effort, and if it has ended it
settles the call. -/
theorem last_of_not_retry (h : Bouts r deadline (b :: after) stand)
    (hlast : ∀ o, b.stand = .done o → o.isRetry = false) :
    after = [] ∧ b.ping = none ∧
      ∀ o, b.stand = .done o → ∃ result, o.result? = some result ∧ stand = .done result := by
  cases h with
  | underWay hrun => exact ⟨rfl, rfl, nofun⟩
  | settled hrun ho =>
      refine ⟨rfl, rfl, ?_⟩
      rintro _ ⟨⟩
      exact ⟨_, ho, rfl⟩
  | pinging hrun ho hping =>
      have hretry := Outcome.isRetry_of_isConnectivity ho
      exact absurd (hretry.symm.trans (hlast _ rfl)) Bool.noConfusion
  | again hrun ho hping h => exact absurd (ho.symm.trans (hlast _ rfl)) Bool.noConfusion

end Bouts

end Request
end GridClient
