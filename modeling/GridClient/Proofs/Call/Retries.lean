import GridClient.Proofs.Call.Hearing

/-!
# Attempts and retries

A call makes one attempt after another. All but the last ask to be repeated, and after each
of them the topology is read anew; if the node was out of reach, some node is pinged before.
The number of attempts is bounded from the outset, and the topologies they are sent under
never go back to a lower epoch.
-/

namespace GridClient

namespace Outcome

variable {α : Type}

/-- What a repetition is put down to. -/
def cause? : Outcome α → Option String
  | retryTopology => some "topology"
  | retryConnectivity _ => some "connectivity"
  | _ => none

def isConnectivity : Outcome α → Bool
  | retryConnectivity _ => true
  | _ => false

end Outcome

namespace Request

variable {op : OpCode} {σ : Type}

/-- An attempt at a request with its outcome. If the attempt is to be repeated, a ping may
have been made after it, and the topology for what comes next has been read. -/
structure Try (op : OpCode) where
  topology : Topology
  target : Target
  outcome : Outcome op.Reply
  ping : Option Call.Refresh
  read : Option Topology

namespace Try

def attempt (x : Try op) (r : Request op) (deadline : Instant) : Attempt op :=
  r.attempt x.topology x.target deadline

/-- All that is asked from the attempt up to the next one. -/
def events (r : Request op) (deadline : Instant) (x : Try op) : Call.Trace σ :=
  ⟨.attempt (x.attempt r deadline), x.outcome⟩ ::
    ((x.outcome.cause?.toList.map fun cause => ⟨.record (.retry op.name cause), ()⟩) ++
      ((x.ping.toList.flatMap fun ping => ping.events r.cache deadline) ++
        x.read.toList.map fun t => ⟨.topology r.cache.key, t⟩))

/-- The topologies that the attempt and the ping after it are sent under. -/
def topologies (x : Try op) : List Topology :=
  x.topology :: x.ping.toList.map Call.Refresh.topology

/-- What is remembered of an attempt that is to be repeated. -/
def text (x : Try op) : String :=
  match x.outcome with
  | .retryTopology => x.target.changedUnder
  | .retryConnectivity e => e.message
  | _ => ""

/-- The nodes that count as failed after the attempt. -/
def failing (x : Try op) (failed : List NodeAddress) : List NodeAddress :=
  if x.outcome.isConnectivity then x.target.failing failed else failed

/-- What a call with this limit returns if the attempt is its last one. -/
def verdict (limit : Nat) (x : Try op) : Except ClientError op.Reply :=
  match x.outcome with
  | .completed reply => .ok reply
  | .failed e => .error e
  | _ => .error (.topologyUnstable limit x.text)

end Try

@[simp] theorem readings_events (r : Request op) (deadline : Instant) (x : Try op) :
    Call.readings r.cache.key (x.events r deadline : Call.Trace σ) =
      x.ping.toList.map Call.Refresh.topology ++ x.read.toList := by
  rcases x with ⟨t, target, o, ping, read⟩
  cases o <;> cases ping <;> cases read <;>
    simp [Try.events, Outcome.cause?, Call.Refresh.events]

/-!
# How a call can go
-/

/-- The next attempt of a call, under a topology and with nodes that have failed. -/
def next (r : Request op) (t : Topology) (failed : List NodeAddress) (o : Outcome op.Reply)
    (ping : Option Call.Refresh) (read : Option Topology) : Try op :=
  ⟨t, r.operation.routing.target t failed, o, ping, read⟩

theorem step_of_reaches {r : Request op} {deadline : Instant} {left : Nat} {t : Topology}
    {failed : List NodeAddress} {text : String} {trace : Call.Trace σ}
    {result : Except ClientError op.Reply}
    (h : Call.Reaches (r.attempts deadline (left + 1) t failed text) trace (.done result)) :
    ∃ o : Outcome op.Reply,
      (o.isRetry = false ∧ trace = (r.next t failed o none none).events r deadline ∧
          result = (r.next t failed o none none).verdict r.limit) ∨
        (o.isRetry = true ∧ ∃ ping u rest,
          (ping.isSome = true ↔ o.isConnectivity = true ∧ left ≠ 0) ∧
            trace = (r.next t failed o ping (some u)).events r deadline ++ rest ∧
              Call.Reaches
                (r.attempts deadline left u ((r.next t failed o ping (some u)).failing failed)
                  (r.next t failed o ping (some u)).text) rest (.done result)) := by
  rw [attempts, Call.reaches_attempt] at h
  rcases h with ⟨-, hstand⟩ | ⟨o, rest, rfl, h⟩
  · cases hstand
  · refine ⟨o, ?_⟩
    cases o with
    | completed reply =>
        rcases Program.reaches_pure.1 h with ⟨rfl, hresult⟩
        cases hresult
        exact Or.inl ⟨rfl, rfl, rfl⟩
    | failed e =>
        rcases Program.reaches_pure.1 h with ⟨rfl, hresult⟩
        cases hresult
        exact Or.inl ⟨rfl, rfl, rfl⟩
    | retryTopology =>
        rw [Call.reaches_record] at h
        rcases h with ⟨rest, rfl, h⟩
        rw [Call.reaches_topology] at h
        rcases h with ⟨u, rest, rfl, h⟩
        exact Or.inr ⟨rfl, none, u, rest, by simp [Outcome.isConnectivity], rfl, h⟩
    | retryConnectivity e =>
        simp only at h
        rw [Call.reaches_record] at h
        rcases h with ⟨rest, rfl, h⟩
        split at h
        · next hleft =>
          rcases Program.reaches_bind.1 h with ⟨q, -, hstand⟩ | ⟨first, _, _, rfl, hping, hnext⟩
          · cases hstand
          · rcases Call.Refresh.of_reaches hping with ⟨ping, rfl⟩
            rcases Call.reaches_topology.1 hnext with ⟨u, rest, rfl, hlater⟩
            exact Or.inr
              ⟨rfl, some ping, u, rest, by simp [Outcome.isConnectivity, hleft], rfl, hlater⟩
        · next hleft =>
          rw [Call.reaches_topology] at h
          rcases h with ⟨u, rest, rfl, h⟩
          exact Or.inr ⟨rfl, none, u, rest, by simp [Decidable.not_not.1 hleft], rfl, h⟩

/-- The attempts that a call can make while so many are left: the earlier ones and the last.
The first one is sent under the given topology, to a node that has not failed. -/
inductive Tries (r : Request op) :
    Nat → Topology → List NodeAddress → List (Try op) → Try op → Prop where
  | settled {left : Nat} {t : Topology} {failed : List NodeAddress} {o : Outcome op.Reply}
      (ho : o.isRetry = false) : Tries r (left + 1) t failed [] (r.next t failed o none none)
  | spent {t : Topology} {failed : List NodeAddress} {o : Outcome op.Reply} {u : Topology}
      (ho : o.isRetry = true) : Tries r 1 t failed [] (r.next t failed o none (some u))
  | again {left : Nat} {t : Topology} {failed : List NodeAddress} {o : Outcome op.Reply}
      {ping : Option Call.Refresh} {u : Topology} {earlier : List (Try op)} {last : Try op}
      (ho : o.isRetry = true) (hping : ping.isSome = o.isConnectivity)
      (h : Tries r (left + 1) u ((r.next t failed o ping (some u)).failing failed) earlier last) :
      Tries r (left + 2) t failed (r.next t failed o ping (some u) :: earlier) last

theorem tries_of_reaches {r : Request op} {deadline : Instant} {left : Nat} {t : Topology}
    {failed : List NodeAddress} {text : String} {trace : Call.Trace σ}
    {result : Except ClientError op.Reply}
    (h : Call.Reaches (r.attempts deadline (left + 1) t failed text) trace (.done result)) :
    ∃ (earlier : List (Try op)) (last : Try op),
      Tries r (left + 1) t failed earlier last ∧
        trace = (earlier ++ [last]).flatMap (Try.events r deadline) ∧
          result = last.verdict r.limit := by
  induction left generalizing t failed text trace with
  | zero =>
      rcases step_of_reaches h with ⟨o, ⟨ho, rfl, rfl⟩ | ⟨ho, ping, u, rest, hping, rfl, hnext⟩⟩
      · exact ⟨[], _, .settled ho, by simp, rfl⟩
      · rcases Program.reaches_pure.1 hnext with ⟨rfl, hresult⟩
        cases hresult
        have hnone : ping = none := by simpa using hping
        subst hnone
        refine ⟨[], r.next t failed o none (some u), .spent ho, by simp, ?_⟩
        cases o <;> first | rfl | cases ho
  | succ left ih =>
      rcases step_of_reaches h with ⟨o, ⟨ho, rfl, rfl⟩ | ⟨ho, ping, u, rest, hping, rfl, hnext⟩⟩
      · exact ⟨[], _, .settled ho, by simp, rfl⟩
      · rcases ih hnext with ⟨earlier, last, htries, rfl, rfl⟩
        refine ⟨_, last, .again ho ?_ htries, by simp, rfl⟩
        rw [Bool.eq_iff_iff, hping]
        simp

/-!
# How many attempts there are
-/

namespace Tries

variable {r : Request op} {left : Nat} {t : Topology} {failed : List NodeAddress}
  {earlier : List (Try op)} {last : Try op}

theorem length_le (h : Tries r left t failed earlier last) : earlier.length + 1 ≤ left := by
  induction h with
  | settled ho => exact Nat.succ_le_succ (Nat.zero_le _)
  | spent ho => exact Nat.le_refl 1
  | again ho hping h ih => exact Nat.succ_le_succ ih

/-- A call whose last attempt asks to be repeated has none left. -/
theorem length_eq (h : Tries r left t failed earlier last) (hlast : last.outcome.isRetry = true) :
    earlier.length + 1 = left := by
  induction h with
  | settled ho => exact absurd (ho.symm.trans hlast) Bool.false_ne_true
  | spent ho => rfl
  | again ho hping h ih => exact congrArg Nat.succ (ih hlast)

theorem isRetry (h : Tries r left t failed earlier last) :
    ∀ x ∈ earlier, x.outcome.isRetry = true := by
  induction h with
  | settled ho => simp
  | spent ho => simp
  | again ho hping h ih => exact List.forall_mem_cons.2 ⟨ho, ih⟩

theorem ping_earlier (h : Tries r left t failed earlier last) :
    ∀ x ∈ earlier, x.ping.isSome = x.outcome.isConnectivity := by
  induction h with
  | settled ho => simp
  | spent ho => simp
  | again ho hping h ih => exact List.forall_mem_cons.2 ⟨hping, ih⟩

theorem ping_last (h : Tries r left t failed earlier last) : last.ping = none := by
  induction h with
  | settled ho => rfl
  | spent ho => rfl
  | again ho hping h ih => exact ih

/-!
# What is sent along
-/

/-- Every attempt and every ping is sent under the topology that was read last. -/
theorem topologies_sublist (h : Tries r left t failed earlier last) (deadline : Instant) :
    ((earlier ++ [last]).flatMap Try.topologies).Sublist
      (t :: Call.readings r.cache.key
        ((earlier ++ [last]).flatMap (Try.events r deadline) : Call.Trace σ)) := by
  induction h with
  | settled ho => simp [Try.topologies, next]
  | spent ho => simp [Try.topologies, next]
  | @again left t failed o ping u earlier last ho hping h ih =>
      rw [List.cons_append, List.flatMap_cons, List.flatMap_cons, Call.readings_append,
        readings_events]
      refine List.Sublist.cons_cons t ?_
      rw [List.append_assoc]
      exact List.Sublist.append_left ih _

end Tries

/-!
# What a finished call amounts to
-/

/-- An account of a finished call: the attempts it has made, the last of which settled it or
was one too many. -/
structure Account (r : Request op) (deadline : Instant) (trace : Call.Trace σ)
    (result : Except ClientError op.Reply) (earlier : List (Try op)) (last : Try op) : Prop where
  /-- The attempts, with what belongs to them, are all that was asked. -/
  trace_eq : trace = (earlier ++ [last]).flatMap (Try.events r deadline)
  length_le : (earlier ++ [last]).length ≤ r.limit
  /-- The limit is settled by the topology that the call is bound to. -/
  limit_eq : r.limit = max 1 (min r.cache.config.maxRetries (r.topology.servers.length + 1))
  repeated : ∀ x ∈ earlier, x.outcome.isRetry = true
  spent : last.outcome.isRetry = true → (earlier ++ [last]).length = r.limit
  ok_iff : ∀ reply, result = .ok reply ↔ last.outcome = .completed reply
  error_iff : last.outcome.isRetry = false → ∀ e, result = .error e ↔ last.outcome = .failed e
  /-- An attempt may also have failed with an error that looks like the one for spent attempts. -/
  unstable_iff : (∃ text, result = .error (.topologyUnstable r.limit text)) ↔
    ((earlier ++ [last]).length = r.limit ∧ last.outcome.isRetry = true) ∨
      ∃ text, last.outcome = .failed (.topologyUnstable r.limit text)
  ping_earlier : ∀ x ∈ earlier, x.ping.isSome = x.outcome.isConnectivity
  ping_last : last.ping = none
  flags_eq : ∀ x ∈ earlier ++ [last], ∀ id version,
    ((x.attempt r deadline).header id version).flags = r.flags
  topologyId_eq : ∀ x ∈ earlier ++ [last], ∀ id version,
    ((x.attempt r deadline).header id version).topologyId = x.topology.epoch
  /-- The pings between the attempts are counted in. -/
  epochs : ((earlier ++ [last]).flatMap Try.topologies).Pairwise fun t u => t.epoch ≤ u.epoch

namespace Try

variable {limit : Nat} {x : Try op}

theorem verdict_eq_ok_iff {reply : op.Reply} :
    x.verdict limit = .ok reply ↔ x.outcome = .completed reply := by
  unfold verdict
  cases x.outcome <;> simp

theorem verdict_eq_error_iff (hx : x.outcome.isRetry = false) {e : ClientError} :
    x.verdict limit = .error e ↔ x.outcome = .failed e := by
  unfold verdict
  cases ho : x.outcome with
  | completed reply => simp
  | failed e => simp
  | retryTopology => simp [ho, Outcome.isRetry] at hx
  | retryConnectivity e => simp [ho, Outcome.isRetry] at hx

theorem verdict_eq_unstable_iff :
    (∃ text, x.verdict limit = .error (.topologyUnstable limit text)) ↔
      x.outcome.isRetry = true ∨ ∃ text, x.outcome = .failed (.topologyUnstable limit text) := by
  unfold verdict
  cases x.outcome <;> simp [Outcome.isRetry]

end Try

/-- A call makes at least one attempt and no more than its limit allows. It returns what its
last attempt has come to; all the others have asked to be repeated. -/
theorem attempts_bounded {r : Request op} {deadline : Instant} {known : Registry}
    {trace : Call.Trace σ} {result : Except ClientError op.Reply}
    (howns : known.Owns r.cache.key) (hbound : r.topology = known.current r.cache.key)
    (hhears : Call.Hears known trace)
    (h : Call.Reaches (r.executeUntil deadline) trace (.done result)) :
    ∃ earlier last, Account r deadline trace result earlier last := by
  have hlimit : r.limit = r.limit - 1 + 1 := (Nat.sub_add_cancel (Nat.le_max_left _ _)).symm
  unfold executeUntil at h
  rw [hlimit] at h
  rcases tries_of_reaches h with ⟨earlier, last, htries, rfl, rfl⟩
  rw [← hlimit] at htries
  have hlength : (earlier ++ [last]).length = earlier.length + 1 := List.length_append
  have hsublist := htries.topologies_sublist (σ := σ) deadline
  rw [hbound] at hsublist
  refine ⟨earlier, last, ?_⟩
  constructor
  case trace_eq => rfl
  case length_le =>
    rw [hlength]
    exact htries.length_le
  case limit_eq => rfl
  case repeated => exact htries.isRetry
  case spent =>
    rw [hlength]
    exact htries.length_eq
  case ok_iff => exact fun reply => Try.verdict_eq_ok_iff
  case error_iff => exact fun hlast e => Try.verdict_eq_error_iff hlast
  case unstable_iff =>
    rw [Try.verdict_eq_unstable_iff, hlength]
    exact or_congr_left (iff_and_self.2 htries.length_eq)
  case ping_earlier => exact htries.ping_earlier
  case ping_last => exact htries.ping_last
  case flags_eq => exact fun x hx id version => rfl
  case topologyId_eq => exact fun x hx id version => rfl
  case epochs => exact (Call.epochs_readings hhears howns).sublist hsublist

/-- A registry that knows of two servers, at an epoch. -/
def pairRegistry (epoch : Int32) : Registry where
  intelligence := .topologyAware
  default :=
    { epoch, intelligence := .topologyAware, servers := [⟨"a", 1⟩, ⟨"b", 1⟩], segments := none }
  caches := []

/-- A request that may be attempted three times. -/
def pairGet : Request .get where
  cache := { name := "", config := { maxRetries := 5 }, intelligence := .topologyAware }
  operation := .get [1]
  flags := .forceReturnValue
  topology := (pairRegistry 1).default

/-- A node is lost; the ping brings a new topology; that has changed again; then all is well. -/
def pairTrace : Call.Trace Unit :=
  let t := (pairRegistry 1).default
  let u := (pairRegistry 2).default
  let v := (pairRegistry 3).default
  [⟨.attempt (pairGet.attempt t .any 9), .retryConnectivity (.transport "gone")⟩,
    ⟨.record (.retry "get" "connectivity"), ()⟩, ⟨.topology [], t⟩,
    ⟨.attempt (pairGet.cache.refreshPing t 9), .completed ⟨none, []⟩⟩, ⟨.topology [], u⟩,
    ⟨.attempt (pairGet.attempt u .any 9), .retryTopology⟩,
    ⟨.record (.retry "get" "topology"), ()⟩, ⟨.topology [], v⟩,
    ⟨.attempt (pairGet.attempt v .any 9), .completed (some [7])⟩]

theorem reaches_pairTrace :
    Call.Reaches (pairGet.executeUntil 9) pairTrace (.done (.ok (some [7]))) :=
  .answered _ (.answered _ (.answered _ (.answered _ (.answered _ (.answered _ (.answered _
    (.answered _ (.answered _ (.done _)))))))))

theorem hears_pairTrace : Call.Hears (pairRegistry 1) pairTrace := by
  have h₁ : (pairRegistry 1).Evolves (pairRegistry 2) := .offer .refl [] (pairRegistry 2).default
  have h₂ : (pairRegistry 2).Evolves (pairRegistry 3) := .offer .refl [] (pairRegistry 3).default
  exact .other (by simp) (.other (by simp) (.topology .refl [] (.other (by simp)
    (.topology h₁ [] (.other (by simp) (.other (by simp) (.topology h₂ [] (.other (by simp)
      (.nil _)))))))))

theorem attempts_bounded_pair :
    (pairRegistry 1).Owns pairGet.cache.key ∧
      pairGet.topology = (pairRegistry 1).current pairGet.cache.key ∧
        Call.Hears (pairRegistry 1) pairTrace ∧
          Call.Reaches (pairGet.executeUntil 9) pairTrace (.done (.ok (some [7]))) ∧
            ∃ earlier last, Account pairGet 9 pairTrace (.ok (some [7])) earlier last :=
  ⟨Or.inl rfl, rfl, hears_pairTrace, reaches_pairTrace,
    attempts_bounded (Or.inl rfl) rfl hears_pairTrace reaches_pairTrace⟩

end Request
end GridClient
