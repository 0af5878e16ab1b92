import GridClient.Proofs.Call.Rounds

/-!
# How items fare

Items with one key belong together. In every round they are all sent in one group, in the
order in which they were given, until that group comes back with an outcome that does not ask
for a repetition. After that none of them is sent again.
-/

namespace GridClient
namespace BulkRequest

variable {op : OpCode} {ι σ : Type}

/-- The items of a kind all have one key. -/
def Alike (b : Batching op ι) (p : ι → Bool) (items : List ι) : Prop :=
  ∃ key, ∀ item ∈ items, p item = true → b.key item = key

namespace Round

/-- The groups of a round that hold an item of a kind. -/
def holding (x : Round op ι) (p : ι → Bool) : List (List ι) :=
  (x.groups.map Prod.snd).filter fun items => items.any p

/-- The outcomes of the groups that hold an item of a kind, in the order of arrival. -/
def fates (x : Round op ι) (p : ι → Bool) : List (Outcome op.Reply) :=
  (x.parts.filter fun part => part.items.any p).map Part.outcome

variable {r : BulkRequest op ι} {deadline : Instant} {x : Round op ι} {pending : List ι}
  {p : ι → Bool}

theorem mem_of_sends (hx : x.Sends r.batching pending) {group : Target × List ι}
    (hgroup : group ∈ x.groups) {item : ι} (hitem : item ∈ group.2) : item ∈ pending := by
  rcases hx with ⟨failed, hgroups⟩
  rw [hgroups] at hgroup
  exact mem_of_mem_partition hgroup hitem

theorem filterMap_getElem?_range {α β : Type} (xs : List α) (f : α → β) :
    ((List.range xs.length).filterMap fun place => xs[place]?.map f) = xs.map f := by
  induction xs with
  | nil => rfl
  | cons a rest ih =>
      rw [List.length_cons, List.range_succ_eq_map, List.filterMap_cons, List.filterMap_map,
        List.map_cons, ← ih]
      rfl

/-- Every group comes back. -/
theorem items_parts_perm (hover : x.Over r deadline) :
    (x.parts.map Part.items).Perm (x.groups.map Prod.snd) := by
  rcases hover with ⟨outcomes, hover⟩
  have houtcomes : x.outcomes = some outcomes := hover.outcomes_eq
  have hplaces : (outcomes.map Prod.fst).Perm (List.range x.groups.length) := by
    have hlength : (x.groups.map fun g => r.attempt x.topology deadline g.1 g.2).length =
        x.groups.length := List.length_map _
    rw [← hlength]
    exact hover.places_perm
  have hparts : x.parts.map Part.items =
      (outcomes.map Prod.fst).filterMap fun place => x.groups[place]?.map Prod.snd := by
    unfold parts arrivals
    rw [houtcomes, Option.getD_some, List.map_filterMap, List.filterMap_map]
    congr 1
    funext arrived
    rw [Function.comp_apply, Option.map_map]
    rfl
  rw [hparts, ← filterMap_getElem?_range x.groups]
  exact hplaces.filterMap _

/-- What has come back is a group of the round. -/
theorem group_of_mem_parts {part : Part op ι} (hpart : part ∈ x.parts) :
    (part.target, part.items) ∈ x.groups := by
  rcases List.mem_filterMap.1 hpart with ⟨⟨place, o⟩, -, heq⟩
  rcases Option.map_eq_some_iff.1 heq with ⟨⟨target, items⟩, hgroup, rfl⟩
  exact List.mem_of_getElem? hgroup

theorem mem_of_mem_again {part : Part op ι} {item : ι} (h : item ∈ part.again) :
    item ∈ part.items := by
  unfold Part.again at h
  split at h
  · exact h
  · cases h

theorem mem_of_mem_retried (hx : x.Sends r.batching pending) {item : ι}
    (hitem : item ∈ x.retried) : item ∈ pending := by
  rcases List.mem_flatMap.1 hitem with ⟨part, hpart, hagain⟩
  exact mem_of_sends hx (group_of_mem_parts hpart) (mem_of_mem_again hagain)

/-- Only the parts that hold items of a kind leave any of them to be sent again. -/
theorem filter_again (parts : List (Part op ι)) (p : ι → Bool) :
    (parts.flatMap Part.again).filter p =
      (parts.filter fun part => part.items.any p).flatMap fun part => part.again.filter p := by
  induction parts with
  | nil => rfl
  | cons part rest ih =>
      rw [List.flatMap_cons, List.filter_append, ih]
      cases hany : part.items.any p with
      | true => rw [List.filter_cons, if_pos hany, List.flatMap_cons]
      | false =>
          have hnone : part.again.filter p = [] := by
            rw [List.filter_eq_nil_iff]
            intro item hitem
            exact List.any_eq_false.1 hany item (mem_of_mem_again hitem)
          rw [List.filter_cons, if_neg (Bool.eq_false_iff.1 hany), hnone, List.nil_append]

/-!
# One round
-/

/-- Nothing is sent of a kind that is not to be sent. -/
theorem holding_of_absent (hx : x.Sends r.batching pending) (hpending : pending.filter p = []) :
    x.holding p = [] := by
  unfold holding
  rw [List.filter_eq_nil_iff]
  intro items hitems
  rcases List.mem_map.1 hitems with ⟨group, hgroup, rfl⟩
  rw [List.any_eq_true]
  rintro ⟨item, hitem, hp⟩
  exact List.filter_eq_nil_iff.1 hpending item (mem_of_sends hx hgroup hitem) hp

/-- Items with one key are sent in one group. -/
theorem holding_of_pending (hx : x.Sends r.batching pending) (hp : Alike r.batching p pending)
    (hpending : pending.filter p ≠ []) :
    ∃ group, x.holding p = [group] ∧ group.filter p = pending.filter p := by
  rcases hx with ⟨failed, hgroups⟩
  rcases hp with ⟨key, hp⟩
  unfold holding
  rw [hgroups]
  exact filter_partition hp hpending

theorem mem_holding {group : Target × List ι} (hgroup : group ∈ x.groups) {item : ι}
    (hitem : item ∈ group.2) (hp : p item = true) : group.2 ∈ x.holding p :=
  List.mem_filter.2 ⟨List.mem_map_of_mem hgroup, List.any_eq_true.2 ⟨item, hitem, hp⟩⟩

theorem holding_parts (hover : x.Over r deadline) (p : ι → Bool) :
    ((x.parts.filter fun part => part.items.any p).map Part.items).Perm (x.holding p) := by
  have hfilter := (items_parts_perm hover).filter fun items => items.any p
  rwa [List.filter_map] at hfilter

theorem retried_of_absent (hx : x.Sends r.batching pending) (hpending : pending.filter p = []) :
    x.retried.filter p = [] := by
  rw [List.filter_eq_nil_iff] at hpending ⊢
  intro item hitem
  exact hpending item (mem_of_mem_retried hx hitem)

/-- The one group comes back with one outcome, which says whether it is to be sent again. -/
theorem fate_of_pending (hover : x.Over r deadline) {group : List ι}
    (hgroup : x.holding p = [group]) :
    ∃ o : Outcome op.Reply, x.fates p = [o] ∧
      x.retried.filter p = if o.isRetry then group.filter p else [] := by
  have hperm := holding_parts hover p
  rw [hgroup, List.perm_singleton, List.map_eq_singleton_iff] at hperm
  rcases hperm with ⟨part, hpart, rfl⟩
  refine ⟨part.outcome, ?_, ?_⟩
  · unfold fates
    rw [hpart]
    rfl
  · unfold retried
    rw [filter_again, hpart, List.flatMap_singleton, Part.again]
    split <;> rfl

/-- The outcome of a part is what the attempt for its group has come to. -/
theorem reaches_of_mem_parts (hover : x.Over r deadline) {part : Part op ι}
    (hpart : part ∈ x.parts) :
    ∃ run, Exchange.Reaches
      (r.attempt x.topology deadline part.target part.items).run run (.done part.outcome) := by
  rcases hover with ⟨outcomes, hover⟩
  have houtcomes : x.outcomes = some outcomes := hover.outcomes_eq
  unfold parts arrivals at hpart
  rw [houtcomes, Option.getD_some] at hpart
  rcases List.mem_filterMap.1 hpart with ⟨⟨place, o⟩, harrived, heq⟩
  rcases Option.map_eq_some_iff.1 heq with ⟨⟨target, items⟩, hgroup, rfl⟩
  rcases hover.reaches (place, o) harrived with ⟨a, ha, hrun⟩
  have hattempt : (x.sent r deadline).attempts[place]? =
      some (r.attempt x.topology deadline target items) := by
    unfold sent
    rw [List.getElem?_map, hgroup]
    rfl
  rw [hattempt] at ha
  cases ha
  exact hrun

/-- The group that holds items of a kind is a part, with the outcome that these have met. -/
theorem part_of_fates (hover : x.Over r deadline) {group : List ι} {o : Outcome op.Reply}
    (hgroup : x.holding p = [group]) (hfates : x.fates p = [o]) :
    ∃ part ∈ x.parts, part.items = group ∧ part.outcome = o := by
  have hperm := holding_parts hover p
  rw [hgroup, List.perm_singleton, List.map_eq_singleton_iff] at hperm
  rcases hperm with ⟨part, hpart, hitems⟩
  rw [fates, hpart] at hfates
  have hmem : part ∈ x.parts.filter fun part => part.items.any p := by
    rw [hpart]
    exact List.mem_singleton_self part
  exact ⟨part, List.mem_of_mem_filter hmem, hitems, List.singleton_inj.1 hfates⟩

/-- In a round without a failure what is not to be sent again has been completed. -/
theorem completed_of_fates (hfailure : x.failure? = none) {o : Outcome op.Reply}
    (hfates : x.fates p = [o]) (ho : o.isRetry = false) : ∃ reply, o = .completed reply := by
  have hmem : o ∈ x.fates p := by
    rw [hfates]
    exact List.mem_singleton_self o
  rcases List.mem_map.1 hmem with ⟨part, hpart, rfl⟩
  have herror := List.findSome?_eq_none_iff.1 hfailure part (List.mem_of_mem_filter hpart)
  rcases part with ⟨target, items, o⟩
  cases o with
  | completed reply => exact ⟨reply, rfl⟩
  | failed e => cases herror
  | retryTopology => cases ho
  | retryConnectivity e => cases ho

end Round

/-!
# All rounds
-/

/-- How items that belong together fare over the rounds, and what has become of them last. -/
inductive Journey (p : ι → Bool) (load : List ι) :
    List (Round op ι) → Option (Outcome op.Reply) → Prop where
  | underway {x : Round op ι} {group : List ι} (hgroup : x.holding p = [group])
      (hload : group.filter p = load) (hfates : x.fates p = []) : Journey p load [x] none
  | last {x : Round op ι} {group : List ι} {o : Outcome op.Reply}
      (hgroup : x.holding p = [group]) (hload : group.filter p = load) (hfates : x.fates p = [o]) :
      Journey p load [x] (some o)
  | again {x : Round op ι} {xs : List (Round op ι)} {group : List ι} {o : Outcome op.Reply}
      {fate : Option (Outcome op.Reply)} (hgroup : x.holding p = [group])
      (hload : group.filter p = load) (hfates : x.fates p = [o]) (ho : o.isRetry = true)
      (h : Journey p load xs fate) : Journey p load (x :: xs) fate
  | ends {x : Round op ι} {xs : List (Round op ι)} {group : List ι} {o : Outcome op.Reply}
      (hgroup : x.holding p = [group]) (hload : group.filter p = load) (hfates : x.fates p = [o])
      (ho : o.isRetry = false) (hlater : ∀ y ∈ xs, y.holding p = []) :
      Journey p load (x :: xs) (some o)

namespace Rounds

variable {r : BulkRequest op ι} {deadline : Instant} {left : Nat} {pending : List ι}
  {merged : op.Reply} {xs : List (Round op ι)}
  {stand : Call.Stand σ (Except ClientError op.Reply)} {p : ι → Bool}

/-- What is not to be sent is never sent. -/
theorem absent (h : Rounds r deadline left pending merged xs stand)
    (hpending : pending.filter p = []) : ∀ x ∈ xs, x.holding p = [] := by
  induction h with
  | nothing => simp
  | last hx h =>
      intro y hy
      rcases List.mem_singleton.1 hy with rfl
      exact Round.holding_of_absent hx hpending
  | again hx hover hunsettled h ih =>
      refine List.forall_mem_cons.2 ⟨Round.holding_of_absent hx hpending, ?_⟩
      exact ih (Round.retried_of_absent hx hpending)

theorem journey (h : Rounds r deadline left pending merged xs stand)
    (hp : Alike r.batching p pending) (hpending : pending.filter p ≠ []) :
    ∃ fate, Journey p (pending.filter p) xs fate ∧
      ∀ value, stand = .done (.ok value) → ∃ reply, fate = some (.completed reply) := by
  induction h with
  | nothing => exact absurd rfl hpending
  | @last left pending merged x stand hx h =>
      rcases Round.holding_of_pending hx hp hpending with ⟨group, hgroup, hload⟩
      cases h with
      | underway hopen q =>
          have hfates : x.fates p = [] := by
            unfold Round.fates Round.parts
            rw [hopen]
            rfl
          exact ⟨none, .underway hgroup hload hfates, by simp⟩
      | failed hover he =>
          rcases Round.fate_of_pending hover hgroup with ⟨o, hfates, -⟩
          exact ⟨some o, .last hgroup hload hfates, by simp⟩
      | completed hover hfailure hretried =>
          rcases Round.fate_of_pending hover hgroup with ⟨o, hfates, hagain⟩
          refine ⟨some o, .last hgroup hload hfates, ?_⟩
          intro value hvalue
          have ho : o.isRetry = false := by
            rw [Bool.eq_false_iff]
            intro ho
            rw [hretried, if_pos ho, hload] at hagain
            exact hpending hagain.symm
          rcases Round.completed_of_fates hfailure hfates ho with ⟨reply, rfl⟩
          exact ⟨reply, rfl⟩
      | spent hover hunsettled hleft text =>
          rcases Round.fate_of_pending hover hgroup with ⟨o, hfates, -⟩
          exact ⟨some o, .last hgroup hload hfates, by simp⟩
      | refreshing hover hunsettled q =>
          rcases Round.fate_of_pending hover hgroup with ⟨o, hfates, -⟩
          exact ⟨some o, .last hgroup hload hfates, by simp⟩
  | @again left pending merged x xs stand hx hover hunsettled h ih =>
      rcases Round.holding_of_pending hx hp hpending with ⟨group, hgroup, hload⟩
      rcases Round.fate_of_pending hover hgroup with ⟨o, hfates, hagain⟩
      cases ho : o.isRetry with
      | true =>
          rw [if_pos ho, hload] at hagain
          have hlater : Alike r.batching p x.retried := by
            rcases hp with ⟨key, hp⟩
            exact ⟨key, fun item hitem => hp item (Round.mem_of_mem_retried hx hitem)⟩
          rw [hagain] at ih
          rcases ih hlater hpending with ⟨fate, hjourney, hfate⟩
          exact ⟨fate, .again hgroup hload hfates ho hjourney, hfate⟩
      | false =>
          rw [if_neg (Bool.eq_false_iff.1 ho)] at hagain
          refine ⟨some o, .ends hgroup hload hfates ho (h.absent hagain), ?_⟩
          intro value hvalue
          rcases Round.completed_of_fates hunsettled.failure hfates ho with ⟨reply, rfl⟩
          exact ⟨reply, rfl⟩

/-- Nothing is sent that was not to be sent. -/
theorem mem_pending (h : Rounds r deadline left pending merged xs stand) :
    ∀ x ∈ xs, ∀ group ∈ x.groups, ∀ item ∈ group.2, item ∈ pending := by
  induction h with
  | nothing => simp
  | last hx h =>
      intro y hy
      rcases List.mem_singleton.1 hy with rfl
      exact fun group hgroup item hitem => Round.mem_of_sends hx hgroup hitem
  | again hx hover hunsettled h ih =>
      refine List.forall_mem_cons.2 ⟨?_, ?_⟩
      · exact fun group hgroup item hitem => Round.mem_of_sends hx hgroup hitem
      · exact fun y hy group hgroup item hitem =>
          Round.mem_of_mem_retried hx (ih y hy group hgroup item hitem)

end Rounds

/-!
# What a journey says
-/

namespace Journey

variable {p : ι → Bool} {load : List ι} {xs : List (Round op ι)} {fate : Option (Outcome op.Reply)}

/-- Items that belong together are sent all together or not at all. -/
theorem together (h : Journey p load xs fate) :
    ∀ x ∈ xs, x.holding p = [] ∨ ∃ group, x.holding p = [group] ∧ group.filter p = load := by
  induction h with
  | underway hgroup hload hfates => simpa using Or.inr ⟨_, hgroup, hload⟩
  | last hgroup hload hfates => simpa using Or.inr ⟨_, hgroup, hload⟩
  | again hgroup hload hfates ho h ih =>
      exact List.forall_mem_cons.2 ⟨Or.inr ⟨_, hgroup, hload⟩, ih⟩
  | ends hgroup hload hfates ho hlater =>
      exact List.forall_mem_cons.2 ⟨Or.inr ⟨_, hgroup, hload⟩, fun y hy => Or.inl (hlater y hy)⟩

/-- Items whose group has come back for good are not sent again. -/
theorem never_again (h : Journey p load xs fate) {before after : List (Round op ι)}
    {x : Round op ι} (hxs : xs = before ++ x :: after) {o : Outcome op.Reply}
    (hmem : o ∈ x.fates p) (ho : o.isRetry = false) : ∀ y ∈ after, y.holding p = [] := by
  induction h generalizing before with
  | underway hgroup hload hfates =>
      rcases List.singleton_eq_append_iff.1 hxs with ⟨-, hx⟩ | ⟨-, hx⟩
      · rcases List.cons_eq_cons.1 hx with ⟨-, rfl⟩
        simp
      · cases hx
  | last hgroup hload hfates =>
      rcases List.singleton_eq_append_iff.1 hxs with ⟨-, hx⟩ | ⟨-, hx⟩
      · rcases List.cons_eq_cons.1 hx with ⟨-, rfl⟩
        simp
      · cases hx
  | again hgroup hload hfates hagain h ih =>
      cases before with
      | nil =>
          rcases List.cons_eq_cons.1 hxs with ⟨rfl, rfl⟩
          rw [hfates, List.mem_singleton] at hmem
          subst hmem
          rw [ho] at hagain
          cases hagain
      | cons y before => exact ih (List.cons_eq_cons.1 hxs).2
  | ends hgroup hload hfates hends hlater =>
      intro y hy
      apply hlater
      cases before with
      | nil =>
          rcases List.cons_eq_cons.1 hxs with ⟨-, rfl⟩
          exact hy
      | cons z before =>
          rcases List.cons_eq_cons.1 hxs with ⟨-, rfl⟩
          exact List.mem_append_right _ (List.mem_cons_of_mem _ hy)

end Journey

/-- Items that belong together have been delivered. In one round they were sent in one group,
which was completed; in all rounds before they were sent in one group, which was to be sent
again; in the rounds after they were not sent. -/
structure Delivery (p : ι → Bool) (load : List ι) (before : List (Round op ι)) (x : Round op ι)
    (after : List (Round op ι)) : Prop where
  holding_before : ∀ y ∈ before, ∃ group, y.holding p = [group] ∧ group.filter p = load
  fates_before : ∀ y ∈ before, ∃ o : Outcome op.Reply, o.isRetry = true ∧ y.fates p = [o]
  holding : ∃ group, x.holding p = [group] ∧ group.filter p = load
  fates : ∃ reply, x.fates p = [.completed reply]
  holding_after : ∀ y ∈ after, y.holding p = []

theorem Journey.delivery {p : ι → Bool} {load : List ι} {xs : List (Round op ι)}
    {fate : Option (Outcome op.Reply)} (h : Journey p load xs fate) {reply : op.Reply}
    (hfate : fate = some (.completed reply)) :
    ∃ before x after, xs = before ++ x :: after ∧ Delivery p load before x after := by
  induction h with
  | underway hgroup hload hfates => cases hfate
  | @last x group o hgroup hload hfates =>
      cases hfate
      exact ⟨[], x, [], rfl, by simp, by simp, ⟨group, hgroup, hload⟩, ⟨reply, hfates⟩, by simp⟩
  | @again x xs group o fate hgroup hload hfates ho h ih =>
      rcases ih hfate with ⟨before, y, after, rfl, hdelivery⟩
      refine ⟨x :: before, y, after, rfl, ?_, ?_, hdelivery.holding, hdelivery.fates,
        hdelivery.holding_after⟩
      · exact List.forall_mem_cons.2 ⟨⟨group, hgroup, hload⟩, hdelivery.holding_before⟩
      · exact List.forall_mem_cons.2 ⟨⟨o, ho, hfates⟩, hdelivery.fates_before⟩
  | @ends x xs group o hgroup hload hfates ho hlater =>
      cases hfate
      exact ⟨[], x, xs, rfl, by simp, by simp, ⟨group, hgroup, hload⟩, ⟨reply, hfates⟩, hlater⟩

end BulkRequest
end GridClient
