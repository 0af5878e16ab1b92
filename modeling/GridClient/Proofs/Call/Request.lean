import GridClient.Proofs.Call.Reach

/-!
# The course of a request

While a request is carried out, everything that is asked serves its operation: attempts
at it, pings that refresh the topology in between, and the record of its retries. The
first attempt that is completed settles the request; until then all attempts are in vain.
-/

namespace GridClient
namespace Call

variable {σ α : Type}

/-- What may be asked while an operation with this opcode is carried out. -/
def Ask.Serves (op : OpCode) : Ask σ → Prop
  | .now => True
  | .topology _ => True
  | .record m => ∃ cause, m = .retry op.name cause
  | .note _ => False
  | @Ask.attempt _ other _ => other = op ∨ other = .ping
  | .round _ _ => False

/-- The answer completes an attempt at an operation with this opcode. -/
def Event.Completes (op : OpCode) (e : Event σ) : Prop :=
  ∃ (a : Attempt op) (reply : op.Reply), e = ⟨.attempt a, .completed reply⟩

/-- Something that served an operation without completing it. -/
structure Event.Vain (op : OpCode) (e : Event σ) : Prop where
  serves : e.ask.Serves op
  incomplete : ¬ Event.Completes op e

theorem Event.vain_topology (op : OpCode) (cache : Bytes) (t : Topology) :
    Event.Vain op (⟨.topology cache, t⟩ : Event σ) := by
  refine ⟨trivial, ?_⟩
  intro hpage
  rcases hpage with ⟨a, reply, h⟩
  cases h

theorem Event.vain_retry (op : OpCode) (cause : String) :
    Event.Vain op (⟨.record (.retry op.name cause), ()⟩ : Event σ) := by
  refine ⟨⟨cause, rfl⟩, ?_⟩
  intro hpage
  rcases hpage with ⟨a, reply, h⟩
  cases h

theorem Event.vain_ping {op : OpCode} (hop : op ≠ .ping) (a : Attempt .ping)
    (o : Outcome OpCode.ping.Reply) : Event.Vain op (⟨.attempt a, o⟩ : Event σ) := by
  refine ⟨Or.inr rfl, ?_⟩
  intro hpage
  rcases hpage with ⟨b, reply, h⟩
  cases h
  exact hop rfl

theorem Event.vain_attempt {op : OpCode} (a : Attempt op) {o : Outcome op.Reply}
    (ho : ∀ reply, o ≠ .completed reply) : Event.Vain op (⟨.attempt a, o⟩ : Event σ) := by
  refine ⟨Or.inl rfl, ?_⟩
  intro hpage
  rcases hpage with ⟨b, reply, h⟩
  cases h
  exact ho reply rfl

end Call

/-!
# Refreshing the topology
-/

def RemoteCache.refreshPing (cache : RemoteCache) (t : Topology) (deadline : Instant) :
    Attempt .ping :=
  ({ cache, operation := .ping none, flags := .none, topology := t } : Request .ping).attempt t
    .any deadline

namespace Call

variable {σ : Type}

theorem reaches_refresh {cache : RemoteCache} {deadline : Instant} {trace : Trace σ}
    {stand : Stand σ Unit} :
    Reaches (cache.refresh deadline) trace stand ↔
      ∃ t : Topology,
        (trace = [⟨.topology cache.key, t⟩] ∧
            stand = .waiting (.attempt (cache.refreshPing t deadline))) ∨
          ∃ o : Outcome OpCode.ping.Reply,
            trace = [⟨.topology cache.key, t⟩, ⟨.attempt (cache.refreshPing t deadline), o⟩] ∧
              stand = .done () := by
  unfold RemoteCache.refresh Request.bind
  simp only [Program.bind_bind, Program.pure_bind]
  rw [reaches_topology]
  constructor
  · intro hread
    rcases hread with ⟨t, rest, rfl, h⟩
    rw [reaches_attempt] at h
    rcases h with ⟨rfl, rfl⟩ | ⟨o, rest, rfl, h⟩
    · exact ⟨t, Or.inl ⟨rfl, rfl⟩⟩
    · rcases Program.reaches_pure.1 h with ⟨rfl, rfl⟩
      exact ⟨t, Or.inr ⟨o, rfl, rfl⟩⟩
  · intro hread
    rcases hread with ⟨t, ⟨rfl, rfl⟩ | ⟨o, rfl, rfl⟩⟩
    · exact ⟨t, [], rfl, reaches_attempt.2 (Or.inl ⟨rfl, rfl⟩)⟩
    · exact ⟨t, _, rfl, reaches_attempt.2 (Or.inr ⟨o, [], rfl, Program.reaches_pure.2 ⟨rfl, rfl⟩⟩)⟩

theorem vain_of_reaches_refresh (op : OpCode) (hop : op ≠ .ping) {cache : RemoteCache}
    {deadline : Instant} {trace : Trace σ} {stand : Stand σ Unit}
    (h : Reaches (cache.refresh deadline) trace stand) :
    (∀ e ∈ trace, Event.Vain op e) ∧ ∀ q, stand = .waiting q → q.Serves op := by
  rcases reaches_refresh.1 h with ⟨t, ⟨rfl, rfl⟩ | ⟨o, rfl, rfl⟩⟩
  · constructor
    · intro e he
      rcases List.mem_singleton.1 he with rfl
      exact Event.vain_topology op _ t
    · intro q hq
      cases hq
      exact Or.inr rfl
  · constructor
    · intro e he
      simp only [List.mem_cons, List.not_mem_nil, or_false] at he
      rcases he with rfl | rfl
      · exact Event.vain_topology op _ t
      · exact Event.vain_ping hop _ o
    · intro q hq
      cases hq

/-- How far a request has come: settled by the last answer, or nothing but vain asks. -/
inductive Course {op : OpCode} (r : Request op) :
    Trace σ → Stand σ (Except ClientError op.Reply) → Prop where
  | settled {trace : Trace σ} {a : Attempt op} (reply : op.Reply)
      (hvain : ∀ e ∈ trace, Event.Vain op e) (ha : a.operation = r.operation) :
      Course r (trace ++ [⟨.attempt a, .completed reply⟩]) (.done (.ok reply))
  | vain {trace : Trace σ} {stand : Stand σ (Except ClientError op.Reply)}
      (hvain : ∀ e ∈ trace, Event.Vain op e) (hopen : ∀ reply, stand ≠ .done (.ok reply))
      (hwait : ∀ q, stand = .waiting q → q.Serves op) : Course r trace stand

namespace Course

variable {op : OpCode} {r : Request op} {trace : Trace σ}
  {stand : Stand σ (Except ClientError op.Reply)}

theorem cons {e : Event σ} (he : Event.Vain op e) (h : Course r trace stand) :
    Course r (e :: trace) stand := by
  cases h with
  | settled reply hvain ha =>
      rw [← List.cons_append]
      exact .settled reply (List.forall_mem_cons.2 ⟨he, hvain⟩) ha
  | vain hvain hopen hwait => exact .vain (List.forall_mem_cons.2 ⟨he, hvain⟩) hopen hwait

theorem append {first : Trace σ} (hfirst : ∀ e ∈ first, Event.Vain op e)
    (h : Course r trace stand) : Course r (first ++ trace) stand := by
  induction first with
  | nil => exact h
  | cons e rest ih =>
      rw [List.forall_mem_cons] at hfirst
      exact cons hfirst.1 (ih hfirst.2)

theorem serves (h : Course r trace stand) : ∀ e ∈ trace, e.ask.Serves op := by
  cases h with
  | settled reply hvain ha =>
      intro e he
      rcases List.mem_append.1 he with he | he
      · exact (hvain e he).serves
      · rcases List.mem_singleton.1 he with rfl
        exact Or.inl rfl
  | vain hvain hopen hwait =>
      intro e he
      exact (hvain e he).serves

end Course

theorem course_of_reaches_attempts {op : OpCode} (hop : op ≠ .ping) (r : Request op)
    (deadline : Instant) (left : Nat) (t : Topology) (failed : List NodeAddress) (last : String)
    {trace : Trace σ} {stand : Stand σ (Except ClientError op.Reply)}
    (h : Reaches (r.attempts deadline left t failed last) trace stand) :
    Course r trace stand := by
  induction left generalizing t failed last trace with
  | zero =>
      rcases Program.reaches_pure.1 h with ⟨rfl, rfl⟩
      exact .vain (by simp) (by simp) (by simp)
  | succ left ih =>
      rw [Request.attempts, reaches_attempt] at h
      rcases h with ⟨rfl, rfl⟩ | ⟨o, rest, rfl, h⟩
      · exact .vain (by simp) (by simp) (by rintro q ⟨⟩; exact Or.inl rfl)
      · cases o with
        | completed reply =>
            rcases Program.reaches_pure.1 h with ⟨rfl, rfl⟩
            rw [← List.nil_append [_]]
            exact .settled reply (by simp) rfl
        | failed e =>
            rcases Program.reaches_pure.1 h with ⟨rfl, rfl⟩
            refine .vain ?_ (by simp) (by simp)
            intro e he
            rcases List.mem_singleton.1 he with rfl
            exact Event.vain_attempt _ (by simp)
        | retryTopology =>
            rw [reaches_record] at h
            rcases h with ⟨rest, rfl, h⟩
            rw [reaches_topology] at h
            rcases h with ⟨t', rest, rfl, h⟩
            exact .cons (Event.vain_attempt _ (by simp))
              (.cons (Event.vain_retry op _) (.cons (Event.vain_topology op _ _) (ih _ _ _ h)))
        | retryConnectivity e =>
            simp only at h
            rw [reaches_record] at h
            rcases h with ⟨rest, rfl, h⟩
            refine .cons (Event.vain_attempt _ (by simp)) (.cons (Event.vain_retry op _) ?_)
            split at h
            · rcases Program.reaches_bind.1 h with ⟨q, hping, rfl⟩ | ⟨first, _, _, rfl, hping, hnext⟩
              · have hvain := vain_of_reaches_refresh op hop hping
                exact .vain hvain.1 (by simp) (by rintro _ ⟨⟩; exact hvain.2 q rfl)
              · rcases reaches_topology.1 hnext with ⟨t', rest, rfl, hlast⟩
                exact .append (vain_of_reaches_refresh op hop hping).1
                  (.cons (Event.vain_topology op _ _) (ih _ _ _ hlast))
            · rw [reaches_topology] at h
              rcases h with ⟨t', rest, rfl, h⟩
              exact .cons (Event.vain_topology op _ _) (ih _ _ _ h)

theorem course_of_reaches {op : OpCode} (hop : op ≠ .ping) {r : Request op} {deadline : Instant}
    {trace : Trace σ} {stand : Stand σ (Except ClientError op.Reply)}
    (h : Reaches (r.executeUntil deadline) trace stand) : Course r trace stand :=
  course_of_reaches_attempts hop r deadline _ _ _ _ h

/-- A request may be settled by its first attempt, since it makes at least one. -/
theorem reaches_executeUntil {op : OpCode} (r : Request op) (deadline : Instant)
    (reply : op.Reply) :
    Reaches (r.executeUntil deadline)
      ([⟨.attempt (r.attempt r.topology r.target deadline), .completed reply⟩] : Trace σ)
      (.done (.ok reply)) := by
  have hlimit : r.limit ≠ 0 := by
    unfold Request.limit RemoteCache.retryLimit
    omega
  rcases Nat.exists_eq_succ_of_ne_zero hlimit with ⟨left, hleft⟩
  unfold Request.executeUntil
  rw [hleft, Request.attempts]
  exact reaches_attempt.2 (Or.inr ⟨.completed reply, [], rfl, .done _⟩)

end Call
end GridClient
