import GridClient.Proofs.Call.Round

/-!
# Positions of items

A bulk request does not look at its items other than through their keys and the operations
that they make up. So its items can carry their positions along, and the call is the same:
what is said about each item of a numbered request is said about each position of the
request, even where an item occurs twice.
-/

namespace GridClient

variable {op : OpCode} {ι κ σ : Type}

/-- Sends items of another kind as what a function makes of them. -/
def Batching.comap (b : Batching op ι) (f : κ → ι) : Batching op κ where
  key item := b.key (f item)
  operation items := b.operation (items.map f)
  empty := b.empty
  merge := b.merge

namespace BulkRequest

def comap (r : BulkRequest op ι) (f : κ → ι) (items : List κ) : BulkRequest op κ where
  cache := r.cache
  batching := r.batching.comap f
  items := items
  flags := r.flags
  topology := r.topology

/-- The request with its items numbered in the order in which they are given. -/
def numbered (r : BulkRequest op ι) : BulkRequest op (ι × Nat) :=
  r.comap Prod.fst r.items.zipIdx

def relabel (f : κ → ι) (groups : Table Target (List κ)) : Table Target (List ι) :=
  groups.map fun (target, items) => (target, items.map f)

theorem relabel_alter (f : κ → ι) (groups : Table Target (List κ)) (target : Target) (item : κ) :
    relabel f (Table.alter groups target fun group => group.getD [] ++ [item]) =
      Table.alter (relabel f groups) target fun group => group.getD [] ++ [f item] := by
  induction groups with
  | nil => rfl
  | cons entry rest ih =>
      rcases entry with ⟨other, group⟩
      unfold relabel at ih ⊢
      rw [Table.alter, List.map_cons, Table.alter]
      split
      · simp
      · rw [List.map_cons, ih]

theorem relabel_partition (b : Batching op ι) (f : κ → ι) (t : Topology)
    (failed : List NodeAddress) (items : List κ) :
    relabel f (partition (b.comap f) t failed items) = partition b t failed (items.map f) := by
  induction items using List.reverseRecOn with
  | nil => rfl
  | append_singleton items item ih =>
      rw [List.map_append, List.map_singleton, partition_concat, partition_concat, relabel_alter,
        ih]
      rfl

namespace Progress

def relabel (f : κ → ι) (p : Progress op κ) : Progress op ι where
  merged := p.merged
  failed := p.failed
  last := p.last
  failure := p.failure
  retry := p.retry.map f
  refresh := p.refresh

theorem relabel_take (b : Batching op ι) (f : κ → ι) (p : Progress op κ) (target : Target)
    (items : List κ) (o : Outcome op.Reply) :
    (p.take (b.comap f) target items o).relabel f =
      (p.relabel f).take b target (items.map f) o := by
  cases o with
  | completed part =>
      unfold take
      cases hfailure : p.failure <;> simp [relabel, hfailure, Batching.comap]
  | failed e => rfl
  | retryTopology => simp [take, relabel]
  | retryConnectivity e => simp [take, relabel]

theorem relabel_takeAll (b : Batching op ι) (f : κ → ι) (groups : Table Target (List κ))
    (p : Progress op κ) (outcomes : List (Nat × Outcome op.Reply)) :
    (p.takeAll (b.comap f) groups outcomes).relabel f =
      (p.relabel f).takeAll b (BulkRequest.relabel f groups) outcomes := by
  induction outcomes generalizing p with
  | nil => rfl
  | cons arrived rest ih =>
      rcases arrived with ⟨place, o⟩
      unfold takeAll at ih ⊢
      rw [List.foldl_cons, List.foldl_cons, ih]
      congr 1
      dsimp only
      rw [BulkRequest.relabel, List.getElem?_map]
      cases groups[place]? with
      | none => rfl
      | some group => exact relabel_take b f p _ _ o

end Progress

/-- A call goes on in the same way after a round if its further rounds are the same. -/
theorem resume_comap (r : BulkRequest op ι) (f : κ → ι) (items : List κ) (deadline : Instant)
    {left : Nat}
    (hrounds : ∀ (t : Topology) (groups : Table Target (List κ)) (p : Progress op κ),
      ((r.comap f items).rounds deadline left t groups p : Call σ (Except ClientError op.Reply)) =
        r.rounds deadline left t (relabel f groups) (p.relabel f))
    (p : Progress op κ) :
    ((r.comap f items).resume deadline left p : Call σ (Except ClientError op.Reply)) =
      r.resume deadline left (p.relabel f) := by
  have hretry : (p.relabel f).retry.isEmpty = p.retry.isEmpty := List.isEmpty_map
  have hnext : ∀ t : Topology,
      ((r.comap f items).rounds deadline left t
          (partition (r.batching.comap f) t p.failed p.retry) p :
        Call σ (Except ClientError op.Reply)) =
        r.rounds deadline left t
          (partition r.batching t (p.relabel f).failed (p.relabel f).retry) (p.relabel f) := by
    intro t
    rw [hrounds, relabel_partition]
    rfl
  unfold resume
  rw [hretry]
  simp only [← hnext]
  rfl

theorem rounds_comap (r : BulkRequest op ι) (f : κ → ι) (items : List κ) (deadline : Instant)
    (left : Nat) (t : Topology) (groups : Table Target (List κ)) (p : Progress op κ) :
    ((r.comap f items).rounds deadline left t groups p : Call σ (Except ClientError op.Reply)) =
      r.rounds deadline left t (relabel f groups) (p.relabel f) := by
  induction left generalizing t groups p with
  | zero => rfl
  | succ left ih =>
      have hattempts : groups.map (fun g => (r.comap f items).attempt t deadline g.1 g.2) =
          (relabel f groups).map fun g => r.attempt t deadline g.1 g.2 := by
        unfold relabel
        rw [List.map_map]
        rfl
      have hlength : (relabel f groups).length = groups.length := List.length_map _
      rw [rounds_succ, rounds_succ, hattempts, hlength]
      refine congrArg _ (funext fun _ => congrArg _ (funext fun outcomes => ?_))
      rw [resume_comap r f items deadline ih]
      exact congrArg _ (Progress.relabel_takeAll r.batching f groups p.fresh outcomes)

/-- Carrying something along with the items makes no difference to the call. -/
theorem executeUntil_comap (r : BulkRequest op ι) {f : κ → ι} {items : List κ}
    (h : items.map f = r.items) (deadline : Instant) :
    ((r.comap f items).executeUntil deadline : Call σ (Except ClientError op.Reply)) =
      r.executeUntil deadline := by
  have hbatches : relabel f (r.comap f items).batches = r.batches := by
    unfold batches
    rw [← h]
    exact relabel_partition r.batching f r.topology [] items
  have hempty : (r.comap f items).batches.isEmpty = r.batches.isEmpty := by
    rw [← hbatches]
    exact List.isEmpty_map.symm
  unfold executeUntil
  rw [hempty, rounds_comap, hbatches]
  rfl

theorem executeUntil_numbered (r : BulkRequest op ι) (deadline : Instant) :
    (r.numbered.executeUntil deadline : Call σ (Except ClientError op.Reply)) =
      r.executeUntil deadline :=
  r.executeUntil_comap (List.zipIdx_map_fst 0 r.items) deadline

end BulkRequest
end GridClient
