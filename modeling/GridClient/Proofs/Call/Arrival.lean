import GridClient.Proofs.Call.Snapshot
import Mathlib.Data.List.Pairwise

/-!
# The order of arrival

The groups of a round come back in any order. What becomes of the call does not depend on it: the
verdict on the round, the items that are to be sent again, the nodes that count as failed and the
wish for a new topology are the same, and so is what has been merged if the replies agree. Only
which of several errors the call fails with, and what it remembers of the last attempt, is a matter
of the order.
-/

namespace GridClient

/-!
# Tables merged in any order
-/

namespace Table

variable {κ α : Type}

/-- No key has two values. -/
def Agree (t s : Table κ α) : Prop :=
  ∀ key v w, (key, v) ∈ t → (key, w) ∈ s → v = w

instance symm_agree : Std.Symm (Agree : Table κ α → Table κ α → Prop) :=
  ⟨fun _ _ h key v w hv hw => (h key w v hw hv).symm⟩

variable [DecidableEq κ]

theorem get?_foldl_merge (ts : List (Table κ α)) (t : Table κ α) (k : κ) :
    get? (ts.foldl merge t) k =
      ts.foldl (fun found s => (get? s.reverse k).or found) (get? t k) := by
  induction ts generalizing t with
  | nil => rfl
  | cons s rest ih => rw [List.foldl_cons, ih, get?_merge, List.foldl_cons]

/-- What agrees may be found in either order. -/
theorem Agree.or_comm {t s : Table κ α} (h : Agree t s) (k : κ) (found : Option α) :
    (get? s.reverse k).or ((get? t.reverse k).or found) =
      (get? t.reverse k).or ((get? s.reverse k).or found) := by
  cases ht : get? t.reverse k with
  | none => rfl
  | some v =>
      cases hs : get? s.reverse k with
      | none => rfl
      | some w =>
          have hv : (k, v) ∈ t := List.mem_reverse.1 (mem_of_get?_eq_some ht)
          have hw : (k, w) ∈ s := List.mem_reverse.1 (mem_of_get?_eq_some hs)
          rw [h k v w hv hw]

theorem get?_foldl_merge_perm {ts ss : List (Table κ α)} (h : ts.Perm ss)
    (hagree : ts.Pairwise Agree) (t : Table κ α) (k : κ) :
    get? (ts.foldl merge t) k = get? (ss.foldl merge t) k := by
  rw [get?_foldl_merge, get?_foldl_merge]
  refine h.foldl_eq' ?_ _
  intro u hu v hv found
  by_cases heq : u = v
  · rw [heq]
  · exact (hagree.forall hu hv heq).or_comm k found

end Table

/-!
# Replies to bulk operations
-/

inductive Batching.IsBulk : {op : OpCode} → {ι : Type} → Batching op ι → Prop where
  | getAll : IsBulk .getAll
  | putAll (expiration : Expiration) : IsBulk (.putAll expiration)

namespace OpCode

/-- No key has different values in two replies. Where a reply has no values there is nothing to
disagree on. -/
def Agree : (op : OpCode) → op.Reply → op.Reply → Prop
  | .getAll, t, s => Table.Agree t s
  | _, _, _ => True

/-- The results are the same: for every key the same value, or none. -/
def Same : (op : OpCode) → op.Reply → op.Reply → Prop
  | .getAll, t, s => ∀ key, Table.get? t key = Table.get? s key
  | _, reply, other => reply = other

end OpCode

/-- Replies that agree come to the same in any two orders. -/
theorem Batching.IsBulk.same_foldl_merge {op : OpCode} {ι : Type} {b : Batching op ι}
    (hb : b.IsBulk) {replies left right : List op.Reply} (hleft : left.Perm replies)
    (hright : right.Perm replies) (hagree : replies.Pairwise op.Agree) (merged : op.Reply) :
    op.Same (left.foldl b.merge merged) (right.foldl b.merge merged) := by
  cases hb with
  | getAll =>
      intro key
      exact (Table.get?_foldl_merge_perm hleft.symm hagree merged key).symm.trans
        (Table.get?_foldl_merge_perm hright.symm hagree merged key)
  | putAll expiration => exact rfl

/-!
# The verdict on a round
-/

namespace BulkRequest

variable {op : OpCode} {ι σ : Type}

/-- The group has not been reached. -/
def Part.isCut (x : Part op ι) : Bool :=
  match x.outcome with
  | .retryConnectivity _ => true
  | _ => false

theorem Part.failed_of_error? {x : Part op ι} {e : ClientError} (h : x.error? = some e) :
    x.outcome = .failed e := by
  rcases x with ⟨target, items, o⟩
  cases o with
  | failed other =>
      cases h
      rfl
  | _ => cases h

inductive Verdict where
  | error
  | done
  | again
  deriving DecidableEq, Repr

namespace Progress

variable {b : Batching op ι} {p : Progress op ι}

/-- A failure decides, then whether there is anything to be sent again. -/
def verdict (p : Progress op ι) : Verdict :=
  if p.failure.isSome then .error else if p.retry.isEmpty then .done else .again

theorem refresh_take (x : Part op ι) :
    (p.take b x.target x.items x.outcome).refresh = (p.refresh || x.isCut) := by
  rcases x with ⟨target, items, o⟩
  cases o with
  | completed reply =>
      unfold take
      dsimp only
      split <;> exact (Bool.or_false _).symm
  | failed e => exact (Bool.or_false _).symm
  | retryTopology => exact (Bool.or_false _).symm
  | retryConnectivity e => exact (Bool.or_true _).symm

theorem refresh_foldl_take (parts : List (Part op ι)) :
    (parts.foldl (fun p x => p.take b x.target x.items x.outcome) p).refresh =
      (p.refresh || parts.any Part.isCut) := by
  induction parts generalizing p with
  | nil => exact (Bool.or_false _).symm
  | cons x rest ih => rw [List.foldl_cons, ih, refresh_take, List.any_cons, Bool.or_assoc]

end Progress

/-!
# What a round amounts to
-/

/-- What has come of a call after a round with these parts, whatever their order. -/
structure Gathered (b : Batching op ι) (before : Progress op ι) (parts : List (Part op ι))
    (p : Progress op ι) : Prop where
  error : ∀ e, p.failure = some e → ∃ x ∈ parts, x.outcome = .failed e
  spared : p.failure = none → ∀ x ∈ parts, x.error? = none
  retry : p.retry.Perm (parts.flatMap Part.again)
  failed : ∀ node, node ∈ p.failed ↔ node ∈ before.failed ∨ node ∈ parts.flatMap Part.lost
  refresh : p.refresh = parts.any Part.isCut
  merged : p.failure = none → ∃ replies : List op.Reply,
    replies.Perm (parts.filterMap Part.reply?) ∧ p.merged = replies.foldl b.merge before.merged

variable {b : Batching op ι} {before p q : Progress op ι} {parts others : List (Part op ι)}

theorem gathered_foldl_take (b : Batching op ι) (before : Progress op ι)
    (parts : List (Part op ι)) :
    Gathered b before parts
      (parts.foldl (fun p x => p.take b x.target x.items x.outcome) before.fresh) := by
  have hfailure : (parts.foldl (fun p x => p.take b x.target x.items x.outcome)
      before.fresh).failure = parts.findSome? Part.error? := by
    rw [Progress.failure_foldl_take]
    exact Option.none_or
  constructor
  case error =>
    intro e he
    rw [hfailure] at he
    rcases List.exists_of_findSome?_eq_some he with ⟨x, hx, herror⟩
    exact ⟨x, hx, Part.failed_of_error? herror⟩
  case spared =>
    intro hnone
    rw [hfailure] at hnone
    exact List.findSome?_eq_none_iff.1 hnone
  case retry =>
    rw [Progress.retry_foldl_take]
    exact .refl _
  case failed => exact fun node => Progress.mem_failed_foldl_take parts
  case refresh =>
    rw [Progress.refresh_foldl_take]
    exact Bool.false_or _
  case merged =>
    intro hnone
    rw [hfailure] at hnone
    exact ⟨_, .refl _, Progress.merged_foldl_take rfl hnone⟩

namespace Gathered

theorem of_perm (hp : Gathered b before parts p) (h : parts.Perm others) :
    Gathered b before others p := by
  constructor
  case error =>
    intro e he
    rcases hp.error e he with ⟨x, hx, hfailed⟩
    exact ⟨x, h.mem_iff.1 hx, hfailed⟩
  case spared => exact fun hnone x hx => hp.spared hnone x (h.mem_iff.2 hx)
  case retry => exact hp.retry.trans (h.flatMap_right Part.again)
  case failed =>
    intro node
    rw [hp.failed, (h.flatMap_right Part.lost).mem_iff]
  case refresh => rw [hp.refresh, h.any_eq]
  case merged =>
    intro hnone
    rcases hp.merged hnone with ⟨replies, hreplies, hmerged⟩
    exact ⟨replies, hreplies.trans (h.filterMap Part.reply?), hmerged⟩

/-- If one account of a round has a failure, so has the other. -/
theorem failure_eq_none (hp : Gathered b before parts p) (hq : Gathered b before parts q)
    (hnone : p.failure = none) : q.failure = none := by
  cases hfailure : q.failure with
  | none => rfl
  | some e =>
      rcases hq.error e hfailure with ⟨x, hx, hfailed⟩
      have hspared := hp.spared hnone x hx
      rw [Part.error?, hfailed] at hspared
      cases hspared

theorem retry_perm (hp : Gathered b before parts p) (hq : Gathered b before parts q) :
    p.retry.Perm q.retry :=
  hp.retry.trans hq.retry.symm

theorem verdict_eq (hp : Gathered b before parts p) (hq : Gathered b before parts q) :
    p.verdict = q.verdict := by
  have hfailure : p.failure.isSome = q.failure.isSome := by
    cases hleft : p.failure with
    | none => rw [hp.failure_eq_none hq hleft]
    | some e =>
        cases hright : q.failure with
        | none => cases (hq.failure_eq_none hp hright).symm.trans hleft
        | some other => rfl
  rw [Progress.verdict, Progress.verdict, hfailure, (hp.retry_perm hq).isEmpty_eq]

theorem same_merged (hp : Gathered b before parts p) (hq : Gathered b before parts q)
    (hb : b.IsBulk) (hnone : p.failure = none)
    (hagree : (parts.filterMap Part.reply?).Pairwise op.Agree) : op.Same p.merged q.merged := by
  rcases hp.merged hnone with ⟨replies, hreplies, hmerged⟩
  rcases hq.merged (hp.failure_eq_none hq hnone) with ⟨replies', hreplies', hmerged'⟩
  rw [hmerged, hmerged']
  exact hb.same_foldl_merge hreplies hreplies' hagree before.merged

end Gathered

/-!
# What the call does then
-/

/-- The next round, under a topology that is read anew, after a refresh if there is a wish for
it. -/
def another (r : BulkRequest op ι) (deadline : Instant) (left : Nat) (p : Progress op ι) :
    Call σ (Except ClientError op.Reply) := do
  if p.refresh then r.cache.refresh deadline
  let t ← Call.topology r.cache.key
  r.rounds deadline left t (partition r.batching t p.failed p.retry) p

/-- How a call goes on by the verdict on a round with these parts. If no more rounds are left the
call ends where it would make another one. -/
inductive Follows (r : BulkRequest op ι) (deadline : Instant) (left : Nat)
    (parts : List (Part op ι)) (p : Progress op ι) :
    Verdict → Call σ (Except ClientError op.Reply) → Prop where
  | error {x : Part op ι} {e : ClientError} (hx : x ∈ parts) (he : x.outcome = .failed e) :
      Follows r deadline left parts p .error (return .error e)
  | done : Follows r deadline left parts p .done (return .ok p.merged)
  | again (hleft : left ≠ 0) :
      Follows r deadline left parts p .again (another r deadline left p)
  | spent (hleft : left = 0) :
      Follows r deadline left parts p .again (return .error (.topologyUnstable r.limit p.last))

theorem follows_resume {r : BulkRequest op ι} (deadline : Instant) (left : Nat)
    (hp : Gathered r.batching before parts p) :
    Follows r deadline left parts p p.verdict
      (r.resume deadline left p : Call σ (Except ClientError op.Reply)) := by
  unfold resume Progress.verdict
  cases hfailure : p.failure with
  | some e =>
      rcases hp.error e hfailure with ⟨x, hx, he⟩
      exact .error hx he
  | none =>
      dsimp only [Option.isSome_none]
      rw [if_neg Bool.false_ne_true]
      split
      · exact .done
      · split
        · next hleft => exact .spent hleft
        · next hleft => exact .again hleft

/-- Two accounts of a round with these parts, after which a call goes on in the same way. -/
structure Concurs (σ : Type) (r : BulkRequest op ι) (deadline : Instant) (left : Nat)
    (before : Progress op ι) (parts : List (Part op ι)) (p q : Progress op ι)
    (verdict : Verdict) : Prop where
  gathered : Gathered r.batching before parts p ∧ Gathered r.batching before parts q
  first : Follows r deadline left parts p verdict
    (r.resume deadline left p : Call σ (Except ClientError op.Reply))
  second : Follows r deadline left parts q verdict
    (r.resume deadline left q : Call σ (Except ClientError op.Reply))
  retry : p.retry.Perm q.retry
  failed : ∀ node, node ∈ p.failed ↔ node ∈ q.failed
  refresh : p.refresh = q.refresh
  merged : verdict ≠ .error → (parts.filterMap Part.reply?).Pairwise op.Agree →
    op.Same p.merged q.merged

/-- The outcomes of the same groups in another order. -/
theorem arrivals_perm (groups : Table Target (List ι))
    {outcomes outcomes' : List (Nat × Outcome op.Reply)} (h : outcomes.Perm outcomes') :
    (arrivals groups outcomes).Perm (arrivals groups outcomes') :=
  h.filterMap _

/-- In whatever order the groups of a round stand, and in whatever order their outcomes arrive,
the verdict on the round is the same. An error is that of a group that has failed. Otherwise the
call has merged the same, if the replies agree. In any case the same items are to be sent again,
the same nodes count as failed, and the topology is to be refreshed or not. -/
theorem arrival_order_irrelevant {r : BulkRequest op ι} (hb : r.batching.IsBulk)
    {groups groups' : Table Target (List ι)} {outcomes outcomes' : List (Nat × Outcome op.Reply)}
    (h : (arrivals groups outcomes).Perm (arrivals groups' outcomes')) (p : Progress op ι)
    (deadline : Instant) (left : Nat) :
    Concurs σ r deadline left p (arrivals groups outcomes)
      (p.fresh.takeAll r.batching groups outcomes) (p.fresh.takeAll r.batching groups' outcomes')
      (p.fresh.takeAll r.batching groups outcomes).verdict := by
  have hfirst := gathered_foldl_take r.batching p (arrivals groups outcomes)
  have hsecond := (gathered_foldl_take r.batching p (arrivals groups' outcomes')).of_perm h.symm
  rw [← Progress.takeAll_eq_foldl] at hfirst hsecond
  constructor
  case gathered => exact ⟨hfirst, hsecond⟩
  case first => exact follows_resume deadline left hfirst
  case second =>
    rw [hfirst.verdict_eq hsecond]
    exact follows_resume deadline left hsecond
  case retry => exact hfirst.retry_perm hsecond
  case failed =>
    intro node
    rw [hfirst.failed, hsecond.failed]
  case refresh => rw [hfirst.refresh, hsecond.refresh]
  case merged =>
    intro hverdict hagree
    refine hfirst.same_merged hsecond hb ?_ hagree
    rw [← Option.not_isSome_iff_eq_none]
    intro hfailure
    exact hverdict (if_pos hfailure)

def threeGroups : Table Target (List Bytes) :=
  [(.address ⟨"a", 1⟩, [[1]]), (.address ⟨"b", 1⟩, [[2]]), (.any, [[3]])]

/-- The second group is lost; the third has a value that the first has too. -/
def threeOutcomes : List (Nat × Outcome OpCode.getAll.Reply) :=
  [(0, .completed [([1], [7])]), (1, .retryConnectivity (.transport "gone")),
    (2, .completed [([3], [9]), ([1], [7])])]

def threeBefore : Progress .getAll Bytes where
  merged := ([] : Table Bytes Bytes)
  failed := []
  last := "no round completed"
  failure := none
  retry := []
  refresh := false

def threeAfter (outcomes : List (Nat × Outcome OpCode.getAll.Reply)) : Progress .getAll Bytes :=
  threeBefore.fresh.takeAll .getAll threeGroups outcomes

/-- The entries are merged in another order, but the table holds the same. -/
theorem arrival_order_irrelevant_reversed :
    splitGet.batching.IsBulk ∧
      (arrivals threeGroups threeOutcomes).Perm (arrivals threeGroups threeOutcomes.reverse) ∧
        Concurs Unit splitGet 9 2 threeBefore (arrivals threeGroups threeOutcomes)
          (threeAfter threeOutcomes) (threeAfter threeOutcomes.reverse) .again ∧
          (threeAfter threeOutcomes).merged = [([1], [7]), ([3], [9])] ∧
            (threeAfter threeOutcomes.reverse).merged = [([3], [9]), ([1], [7])] := by
  have hperm := arrivals_perm threeGroups (List.reverse_perm threeOutcomes).symm
  exact ⟨.getAll, hperm, arrival_order_irrelevant (r := splitGet) .getAll hperm threeBefore 9 2,
    rfl, rfl⟩

end BulkRequest
end GridClient
