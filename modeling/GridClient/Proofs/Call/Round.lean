import GridClient.Proofs.Call.Carrying
import GridClient.Proofs.Call.Grouping

/-!
# One round

In a round each group of items is sent on its own, and the groups come back with their
outcomes in some order. What a round amounts to is what its parts amount to together: the
first failure, the items that are to be sent again, and the replies, in the order of
arrival.
-/

namespace GridClient
namespace BulkRequest

variable {op : OpCode} {ι σ : Type}

/-- A group that has come back with its outcome. -/
structure Part (op : OpCode) (ι : Type) where
  target : Target
  items : List ι
  outcome : Outcome op.Reply

namespace Part

/-- The items that are to be sent again. -/
def again (x : Part op ι) : List ι :=
  if x.outcome.isRetry then x.items else []

def error? (x : Part op ι) : Option ClientError :=
  match x.outcome with
  | .failed e => some e
  | _ => none

def reply? (x : Part op ι) : Option op.Reply :=
  match x.outcome with
  | .completed reply => some reply
  | _ => none

end Part

/-- A round: what it is sent under, the groups that are sent, and the outcomes with the places
of their groups once all have arrived. -/
structure Round (op : OpCode) (ι : Type) where
  topology : Topology
  groups : Table Target (List ι)
  outcomes : Option (List (Nat × Outcome op.Reply))

/-- The groups with their outcomes, in the order of arrival. -/
def arrivals (groups : Table Target (List ι)) (outcomes : List (Nat × Outcome op.Reply)) :
    List (Part op ι) :=
  outcomes.filterMap fun (place, outcome) =>
    groups[place]?.map fun (target, items) => { target, items, outcome }

namespace Round

def parts (x : Round op ι) : List (Part op ι) :=
  arrivals x.groups (x.outcomes.getD [])

def retried (x : Round op ι) : List ι :=
  x.parts.flatMap Part.again

def failure? (x : Round op ι) : Option ClientError :=
  x.parts.findSome? Part.error?

def replies (x : Round op ι) : List op.Reply :=
  x.parts.filterMap Part.reply?

/-- The round as a call asks for it. -/
def sent (r : BulkRequest op ι) (deadline : Instant) (x : Round op ι) : Call.Sent where
  op := op
  attempts := x.groups.map fun (target, items) => r.attempt x.topology deadline target items
  outcomes := x.outcomes

end Round

/-!
# Taking account of a round
-/

namespace Progress

variable {b : Batching op ι} {p : Progress op ι}

/-- The progress of a call at the start of its next round. -/
def fresh (p : Progress op ι) : Progress op ι :=
  { p with failure := none, retry := [], refresh := false }

theorem retry_take (x : Part op ι) :
    (p.take b x.target x.items x.outcome).retry = p.retry ++ x.again := by
  rcases x with ⟨target, items, o⟩
  cases o with
  | completed reply =>
      unfold take
      dsimp only
      split <;> exact (List.append_nil _).symm
  | failed e => exact (List.append_nil _).symm
  | retryTopology => rfl
  | retryConnectivity e => rfl

theorem failure_take (x : Part op ι) :
    (p.take b x.target x.items x.outcome).failure = p.failure.or x.error? := by
  rcases x with ⟨target, items, o⟩
  cases o with
  | completed reply =>
      unfold take
      dsimp only
      split <;> exact Option.or_none.symm
  | failed e => cases h : p.failure <;> simp [take, Part.error?, h]
  | retryTopology => exact Option.or_none.symm
  | retryConnectivity e => exact Option.or_none.symm

theorem merged_take (h : p.failure = none) (x : Part op ι) :
    (p.take b x.target x.items x.outcome).merged = x.reply?.toList.foldl b.merge p.merged := by
  rcases x with ⟨target, items, o⟩
  cases o with
  | completed reply => simp [take, Part.reply?, h]
  | failed e => rfl
  | retryTopology => rfl
  | retryConnectivity e => rfl

theorem takeAll_eq_foldl (groups : Table Target (List ι))
    (outcomes : List (Nat × Outcome op.Reply)) :
    p.takeAll b groups outcomes =
      (arrivals groups outcomes).foldl (fun p x => p.take b x.target x.items x.outcome) p := by
  unfold takeAll arrivals
  rw [List.foldl_filterMap]
  congr 1
  funext p arrived
  dsimp only
  cases groups[arrived.1]? with
  | none => rfl
  | some group => rfl

theorem retry_foldl_take (parts : List (Part op ι)) :
    (parts.foldl (fun p x => p.take b x.target x.items x.outcome) p).retry =
      p.retry ++ parts.flatMap Part.again := by
  induction parts generalizing p with
  | nil => exact (List.append_nil _).symm
  | cons x rest ih => rw [List.foldl_cons, ih, retry_take, List.flatMap_cons, List.append_assoc]

theorem failure_foldl_take (parts : List (Part op ι)) :
    (parts.foldl (fun p x => p.take b x.target x.items x.outcome) p).failure =
      p.failure.or (parts.findSome? Part.error?) := by
  induction parts generalizing p with
  | nil => exact Option.or_none.symm
  | cons x rest ih =>
      rw [List.foldl_cons, ih, failure_take, List.findSome?_cons, Option.or_assoc]
      cases x.error? <;> rfl

/-- Replies are merged as long as nothing has failed. -/
theorem merged_foldl_take {parts : List (Part op ι)} (hp : p.failure = none)
    (hparts : parts.findSome? Part.error? = none) :
    (parts.foldl (fun p x => p.take b x.target x.items x.outcome) p).merged =
      (parts.filterMap Part.reply?).foldl b.merge p.merged := by
  induction parts generalizing p with
  | nil => rfl
  | cons x rest ih =>
      rw [List.findSome?_eq_none_iff, List.forall_mem_cons] at hparts
      rcases hparts with ⟨hx, hrest⟩
      have htake : (p.take b x.target x.items x.outcome).failure = none := by
        rw [failure_take, hp, hx]
        rfl
      rw [List.foldl_cons, ih htake (List.findSome?_eq_none_iff.2 hrest), merged_take hp]
      cases h : x.reply? with
      | none => rw [List.filterMap_cons_none h]; rfl
      | some reply => rw [List.filterMap_cons_some h]; rfl

variable {x : Round op ι} {outcomes : List (Nat × Outcome op.Reply)}

theorem retry_takeAll (b : Batching op ι) (p : Progress op ι) (hx : x.outcomes = some outcomes) :
    (p.fresh.takeAll b x.groups outcomes).retry = x.retried := by
  rw [takeAll_eq_foldl, retry_foldl_take, Round.retried, Round.parts, hx]
  rfl

theorem failure_takeAll (b : Batching op ι) (p : Progress op ι) (hx : x.outcomes = some outcomes) :
    (p.fresh.takeAll b x.groups outcomes).failure = x.failure? := by
  rw [takeAll_eq_foldl, failure_foldl_take, Round.failure?, Round.parts, hx]
  rfl

theorem merged_takeAll (b : Batching op ι) (p : Progress op ι) (hx : x.outcomes = some outcomes)
    (hfailure : x.failure? = none) :
    (p.fresh.takeAll b x.groups outcomes).merged = x.replies.foldl b.merge p.merged := by
  rw [Round.failure?, Round.parts, hx, Option.getD_some] at hfailure
  rw [takeAll_eq_foldl, merged_foldl_take rfl hfailure, Round.replies, Round.parts, hx]
  rfl

end Progress

/-- What a call does once a round is over. -/
def resume (r : BulkRequest op ι) (deadline : Instant) (left : Nat) (p : Progress op ι) :
    Call σ (Except ClientError op.Reply) :=
  match p.failure with
  | some e => return .error e
  | none =>
      if p.retry.isEmpty then return .ok p.merged
      else if left = 0 then return .error (.topologyUnstable r.limit p.last)
      else do
        if p.refresh then r.cache.refresh deadline
        let t ← Call.topology r.cache.key
        r.rounds deadline left t (partition r.batching t p.failed p.retry) p

theorem rounds_succ (r : BulkRequest op ι) (deadline : Instant) (left : Nat) (t : Topology)
    (groups : Table Target (List ι)) (p : Progress op ι) :
    (r.rounds deadline (left + 1) t groups p : Call σ (Except ClientError op.Reply)) =
      Call.record (.fanout op.name groups.length) >>= fun _ =>
        Call.round (groups.map fun (target, items) => r.attempt t deadline target items)
            (arrival op) >>= fun outcomes =>
          r.resume deadline left (p.fresh.takeAll r.batching groups outcomes) :=
  rfl

end BulkRequest
end GridClient
