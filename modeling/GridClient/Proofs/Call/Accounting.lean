import GridClient.Proofs.Address
import GridClient.Proofs.Attempt.Bookings
import GridClient.Proofs.Call.Finality

/-!
# Metrics account for every attempt

When a call is over, and with it the waits for the late responses of its attempts, the counters of
its client tell what its attempts have come to. Each channel that an attempt has been lent counts
with one outcome and goes back once; each attempt that has overrun its deadline is abandoned once;
each attempt that asks to be repeated counts once under its cause; and each topology that can be
taken counts once.
-/

namespace GridClient

open Exchange Metrics

/-- Whatever a repetition can be put down to. -/
def Outcome.causes : List String :=
  ["topology", "connectivity"]

theorem Outcome.comma_not_mem : ∀ cause ∈ causes, ',' ∉ cause.toList := by
  decide

theorem Outcome.mem_causes {α : Type} {o : Outcome α} {cause : String} (h : o.cause? = some cause) :
    cause ∈ causes := by
  cases o <;> cases h <;> decide

theorem OpCode.name_injective : Function.Injective OpCode.name := by
  intro o o' h
  cases o <;> cases o' <;> first | rfl | simp [name] at h

theorem OpCode.comma_not_mem_name (o : OpCode) : ',' ∉ o.name.toList := by
  cases o <;> decide

namespace Call

variable {σ α : Type}

/-- An effort that is over, and what has followed it. -/
structure Finished where
  effort : Effort
  late : Exchange.Trace

namespace Finished

def events (x : Finished) : Exchange.Trace :=
  x.effort.run ++ x.late

def isCompleted (x : Finished) : Bool :=
  match x.effort.stand with
  | .done o => o.isCompleted
  | .waiting _ => false

/-- Some wait of the attempt has outlasted the deadline. -/
def overran (x : Finished) : Bool :=
  x.effort.run.any isLate

/-- The channels that an attempt has been lent, by its operation and their nodes. -/
def acquired (x : Finished) : List (OpCode × NodeAddress) :=
  (lendings x.effort.run).map fun channel => (x.effort.op, channel.node)

/-- The topologies of responses that have come, in time or late, with the number of the attempt. -/
def brought (x : Finished) : List TopologyUpdate :=
  x.events.filterMap (brought? x.effort.attempt.intelligence (numbers x.effort.run))

end Finished

/-- Some counters have been added to as often as there was reason to, by attempts that are over.
A client that knows so much of topologies takes those that it can. -/
structure Tallied (known : Intelligence) (cache : Bytes) (finished : List Finished)
    (counters : List Counter) : Prop where
  plain : ∀ c ∈ counters, c.IsPlain
  operations : ∀ (o : OpCode) (node : NodeAddress),
    counters.count (.operations o.name node.text true) +
        counters.count (.operations o.name node.text false) =
      (finished.flatMap Finished.acquired).count (o, node)
  completed : ∀ (o : OpCode) (node : NodeAddress),
    counters.count (.operations o.name node.text true) =
      ((finished.filter Finished.isCompleted).flatMap Finished.acquired).count (o, node)
  returned : ∀ node : NodeAddress,
    counters.count (.returned node.text true) + counters.count (.returned node.text false) =
      (finished.flatMap Finished.acquired).countP fun x => x.2 = node
  abandoned : ∀ o : OpCode, counters.count (.abandoned o.name) =
    finished.countP fun x => x.effort.op = o && x.overran
  retries : ∀ name cause, counters.count (.retries name cause) = 0
  updates : ∀ label, counters.count (.updates label true) + counters.count (.updates label false) =
    if label = Utf8.lossy cache then
      (finished.flatMap Finished.brought).countP fun u => (Topology.ofUpdate u known).isOk
    else 0

namespace Tallied

variable {known : Intelligence} {cache : Bytes} {first last : List Finished}
  {counters others : List Counter}

theorem nil : Tallied known cache [] [] := by
  constructor <;> simp

theorem append (h : Tallied known cache first counters) (h' : Tallied known cache last others) :
    Tallied known cache (first ++ last) (counters ++ others) := by
  constructor
  case plain => exact List.forall_mem_append.2 ⟨h.plain, h'.plain⟩
  case operations =>
    intro o node
    rw [List.flatMap_append, List.count_append, List.count_append, List.count_append,
      ← h.operations, ← h'.operations]
    omega
  case completed =>
    intro o node
    rw [List.filter_append, List.flatMap_append, List.count_append, List.count_append,
      h.completed, h'.completed]
  case returned =>
    intro node
    rw [List.flatMap_append, List.countP_append, List.count_append, List.count_append,
      ← h.returned, ← h'.returned]
    omega
  case abandoned =>
    intro o
    rw [List.countP_append, List.count_append, h.abandoned, h'.abandoned]
  case retries =>
    intro name cause
    rw [List.count_append, h.retries, h'.retries]
  case updates =>
    intro label
    have hfirst := h.updates label
    have hlast := h'.updates label
    rw [List.flatMap_append, List.countP_append, List.count_append, List.count_append]
    split at hfirst
    · next hlabel =>
      rw [if_pos hlabel] at hlast ⊢
      omega
    · next hlabel =>
      rw [if_neg hlabel] at hlast ⊢
      omega

theorem of_perm (h : Tallied known cache first counters) (hperm : others.Perm counters) :
    Tallied known cache first others := by
  constructor
  case plain => exact fun c hc => h.plain c (hperm.mem_iff.1 hc)
  case operations => simpa only [hperm.count_eq] using h.operations
  case completed => simpa only [hperm.count_eq] using h.completed
  case returned => simpa only [hperm.count_eq] using h.returned
  case abandoned => simpa only [hperm.count_eq] using h.abandoned
  case retries => simpa only [hperm.count_eq] using h.retries
  case updates => simpa only [hperm.count_eq] using h.updates

end Tallied

/-!
# One attempt
-/

/-- What counts for the channels that an attempt has been lent. -/
def postings (op : OpCode) (completed clean : Bool) (channels : List Channel) : List Counter :=
  channels.flatMap fun channel =>
    [.operations op.name channel.node.text completed, .returned channel.node.text clean]

section Postings

variable (op o : OpCode) (completed clean : Bool) (channels : List Channel)

theorem postings_cons (channel : Channel) :
    postings op completed clean (channel :: channels) =
      .operations op.name channel.node.text completed ::
        .returned channel.node.text clean :: postings op completed clean channels :=
  rfl

theorem mem_postings {c : Counter} : c ∈ postings op completed clean channels ↔
    ∃ channel ∈ channels, c = .operations op.name channel.node.text completed ∨
      c = .returned channel.node.text clean := by
  simp [postings]

theorem count_operations_postings (node : NodeAddress) (b : Bool) :
    (postings op completed clean channels).count (.operations o.name node.text b) =
      if completed = b then (channels.map fun channel => (op, channel.node)).count (o, node)
      else 0 := by
  induction channels with
  | nil => simp [postings]
  | cons channel rest ih =>
      have hiff : Counter.operations op.name channel.node.text completed =
          .operations o.name node.text b ↔ completed = b ∧ (op, channel.node) = (o, node) := by
        rw [Counter.operations.injEq, OpCode.name_injective.eq_iff,
          NodeAddress.text_injective.eq_iff, Prod.mk.injEq, ← and_assoc, and_comm]
      rw [postings_cons, List.count_cons, List.count_cons, ih, List.map_cons, List.count_cons]
      simp only [beq_iff_eq, hiff, reduceCtorEq, if_false, Nat.add_zero]
      by_cases hb : completed = b <;> simp [hb]

theorem count_returned_postings (node : NodeAddress) :
    (postings op completed clean channels).count (.returned node.text true) +
        (postings op completed clean channels).count (.returned node.text false) =
      (channels.map fun channel => (op, channel.node)).countP fun x => x.2 = node := by
  induction channels with
  | nil => simp [postings]
  | cons channel rest ih =>
      have hiff : ∀ b, Counter.returned channel.node.text clean = .returned node.text b ↔
          channel.node = node ∧ clean = b := by
        intro b
        rw [Counter.returned.injEq, NodeAddress.text_injective.eq_iff]
      rw [postings_cons, List.map_cons, List.countP_cons, ← ih]
      simp only [List.count_cons, beq_iff_eq, hiff, reduceCtorEq, if_false, Nat.add_zero]
      by_cases hnode : channel.node = node <;> cases clean <;> simp [hnode] <;> omega

theorem count_postings_eq_zero {c : Counter}
    (hoperations : ∀ name node completed, c ≠ .operations name node completed)
    (hreturned : ∀ node clean, c ≠ .returned node clean) :
    (postings op completed clean channels).count c = 0 := by
  refine List.count_eq_zero_of_not_mem fun hmem => ?_
  rcases (mem_postings op completed clean channels).1 hmem with ⟨channel, -, hc | hc⟩
  · exact hoperations _ _ _ hc
  · exact hreturned _ _ hc

end Postings

section Taken

variable {label : String} {taken : List Counter}

theorem count_taken_eq_zero (htaken : ∀ c ∈ taken, ∃ applied, c = .updates label applied)
    {c : Counter} (hc : ∀ label applied, c ≠ .updates label applied) : taken.count c = 0 := by
  refine List.count_eq_zero_of_not_mem fun hmem => ?_
  rcases htaken c hmem with ⟨applied, rfl⟩
  exact hc _ _ rfl

/-- Updates of one cache count under its name, whatever they have led to. -/
theorem count_updates (htaken : ∀ c ∈ taken, ∃ applied, c = .updates label applied)
    (shown : String) :
    taken.count (.updates shown true) + taken.count (.updates shown false) =
      if shown = label then taken.length else 0 := by
  induction taken with
  | nil => simp
  | cons c rest ih =>
      rw [List.forall_mem_cons] at htaken
      rcases htaken with ⟨⟨applied, rfl⟩, hrest⟩
      have hlater := ih hrest
      simp only [List.count_cons, beq_iff_eq, Counter.updates.injEq, List.length_cons]
      by_cases hshown : shown = label
      · subst hshown
        rw [if_pos rfl] at hlater ⊢
        cases applied <;> simp <;> omega
      · rw [if_neg hshown] at hlater ⊢
        simp [Ne.symm hshown]
        omega

end Taken

/-- What counts for an attempt by itself. -/
def abandonment (x : Finished) : List Counter :=
  if x.overran then [.abandoned x.effort.op.name] else []

theorem mem_abandonment {x : Finished} {c : Counter} :
    c ∈ abandonment x ↔ x.overran = true ∧ c = .abandoned x.effort.op.name := by
  unfold abandonment
  split <;> simp_all

theorem count_abandonment_eq_zero (x : Finished) {c : Counter}
    (hc : ∀ name, c ≠ .abandoned name) : (abandonment x).count c = 0 :=
  List.count_eq_zero_of_not_mem fun hmem => hc _ (mem_abandonment.1 hmem).2

/-- An attempt counts for what its outcome, its channel and its topologies amount to. -/
theorem tallied_pieces {known : Intelligence} {cache : Bytes} {x : Finished} (clean : Bool)
    {taken : List Counter}
    (htaken : ∀ c ∈ taken, ∃ applied, c = .updates (Utf8.lossy cache) applied)
    (hlength : taken.length = x.brought.countP fun u => (Topology.ofUpdate u known).isOk) :
    Tallied known cache [x] (abandonment x ++
      (postings x.effort.op x.isCompleted clean (lendings x.effort.run) ++ taken)) := by
  constructor
  case plain =>
    intro c hc
    rw [List.mem_append, List.mem_append, mem_abandonment, mem_postings] at hc
    rcases hc with ⟨-, rfl⟩ | ⟨channel, -, rfl | rfl⟩ | hc
    · trivial
    · exact OpCode.comma_not_mem_name _
    · trivial
    · rcases htaken c hc with ⟨applied, rfl⟩
      trivial
  case operations =>
    intro o node
    have habandoned b := count_abandonment_eq_zero x (c := .operations o.name node.text b) nofun
    have hother b := count_taken_eq_zero htaken (c := .operations o.name node.text b) nofun
    simp only [List.count_append, habandoned, hother, count_operations_postings,
      List.flatMap_cons, List.flatMap_nil, List.append_nil, Finished.acquired]
    cases x.isCompleted <;> simp
  case completed =>
    intro o node
    have habandoned := count_abandonment_eq_zero x (c := .operations o.name node.text true) nofun
    have hother := count_taken_eq_zero htaken (c := .operations o.name node.text true) nofun
    rw [List.count_append, List.count_append, habandoned, hother, count_operations_postings]
    cases hx : x.isCompleted <;> simp [hx, Finished.acquired]
  case returned =>
    intro node
    have habandoned b := count_abandonment_eq_zero x (c := .returned node.text b) nofun
    have hother b := count_taken_eq_zero htaken (c := .returned node.text b) nofun
    have hreturned := count_returned_postings x.effort.op x.isCompleted clean
      (lendings x.effort.run) node
    simp only [List.count_append, habandoned, hother, List.flatMap_cons, List.flatMap_nil,
      List.append_nil, Finished.acquired]
    omega
  case abandoned =>
    intro o
    have hposted := count_postings_eq_zero x.effort.op x.isCompleted clean
      (lendings x.effort.run) (c := .abandoned o.name) nofun nofun
    have hother := count_taken_eq_zero htaken (c := .abandoned o.name) nofun
    rw [List.count_append, List.count_append, hposted, hother]
    unfold abandonment
    cases hx : x.overran <;> simp [hx, List.count_cons, OpCode.name_injective.eq_iff]
  case retries =>
    intro name cause
    have habandoned := count_abandonment_eq_zero x (c := .retries name cause) nofun
    have hposted := count_postings_eq_zero x.effort.op x.isCompleted clean
      (lendings x.effort.run) (c := .retries name cause) nofun nofun
    have hother := count_taken_eq_zero htaken (c := .retries name cause) nofun
    rw [List.count_append, List.count_append, habandoned, hposted, hother]
  case updates =>
    intro label
    have habandoned b := count_abandonment_eq_zero x (c := .updates label b) nofun
    have hposted b := count_postings_eq_zero x.effort.op x.isCompleted clean
      (lendings x.effort.run) (c := .updates label b) nofun nofun
    have hcount := count_updates htaken label
    rw [hlength] at hcount
    simp only [List.count_append, habandoned, hposted, List.flatMap_cons, List.flatMap_nil,
      List.append_nil]
    omega

/-- So it does whatever it has done, once the wait for its late response is over as well. -/
theorem tallied_single {known : Intelligence} {x : Finished} {o : Outcome x.effort.op.Reply}
    (hstand : x.effort.stand = .done o)
    (hrun : Exchange.Reaches x.effort.attempt.run x.effort.run (.done o))
    (hfollowed : Attempt.Followed x.effort.run x.late)
    (htakes : ∀ cache u answer, ⟨.install cache u, answer⟩ ∈ x.events →
      answer.isOk = (Topology.ofUpdate u known).isOk) :
    Tallied known x.effort.attempt.cache [x] (bumps (measured x.events)) := by
  rcases Attempt.booked_of_reaches hrun hfollowed with ⟨⟨clean, hnoted⟩, hoffered⟩
  have hbrought : x.events.filterMap offered? = x.brought.map (Prod.mk x.effort.attempt.cache) :=
    hoffered
  have hcompleted : x.isCompleted = o.isCompleted := by rw [Finished.isCompleted, hstand]
  have htaken : ∀ c ∈ x.events.filterMap taken?, ∃ applied,
      c = .updates (Utf8.lossy x.effort.attempt.cache) applied := by
    intro c hc
    refine mem_taken (fun y hy => ?_) hc
    rw [hbrought] at hy
    rcases List.mem_map.1 hy with ⟨u, -, rfl⟩
    rfl
  have hlength := length_taken htakes
  rw [hbrought, List.countP_map] at hlength
  refine (tallied_pieces clean htaken hlength).of_perm ?_
  rw [hcompleted, ← List.append_assoc]
  exact (bumps_measured x.events).trans (hnoted.append_right _)

/-!
# All attempts of a call
-/

/-- What a call asks to be recorded by itself. -/
def recording? : Event σ → Option (Program.Event Exchange.Answer)
  | ⟨.record m, _⟩ => some ⟨.record m, ()⟩
  | _ => none

/-- When a call is over so are the efforts behind it. -/
theorem Performs.over {trace : Trace σ} {a : α} {efforts : List Effort}
    (h : Performs trace (.done a) efforts) :
    ∀ x ∈ efforts, ∃ o, x.stand = .done o ∧ Exchange.Reaches x.attempt.run x.run (.done o) ∧
      ⟨.attempt x.attempt, o⟩ ∈ trace := by
  generalize hstand : Program.Stand.done a = stand at h
  induction h with
  | done a => exact List.forall_mem_nil _
  | waiting hrun => cases hstand
  | attempt hrun h ih =>
      rw [List.forall_mem_cons]
      refine ⟨⟨_, rfl, hrun, List.mem_cons_self⟩, fun x hx => ?_⟩
      rcases ih hstand x hx with ⟨o, ho, hreaches, hmem⟩
      exact ⟨o, ho, hreaches, List.mem_cons_of_mem _ hmem⟩
  | atOnce he h ih =>
      intro x hx
      rcases ih hstand x hx with ⟨o, ho, hreaches, hmem⟩
      exact ⟨o, ho, hreaches, List.mem_cons_of_mem _ hmem⟩

/-- The attempts of a call add to the counters what they do one by one. -/
theorem tallied_of_performs {trace : Trace σ} {a : α} {finished : List Finished}
    {known : Intelligence} {cache : Bytes}
    (hperforms : Performs trace (.done a) (finished.map Finished.effort))
    (hcache : ∀ {op : OpCode} (a : Attempt op) (o : Outcome op.Reply),
      ⟨.attempt a, o⟩ ∈ trace → a.cache = cache)
    (hfollowed : ∀ x ∈ finished, Attempt.Followed x.effort.run x.late)
    (htakes : ∀ x ∈ finished, ∀ cache u answer, ⟨.install cache u, answer⟩ ∈ x.events →
      answer.isOk = (Topology.ofUpdate u known).isOk) :
    Tallied known cache finished (finished.flatMap fun x => bumps (measured x.events)) := by
  have hover := hperforms.over
  clear hperforms
  induction finished with
  | nil => exact .nil
  | cons x rest ih =>
      rw [List.forall_mem_cons] at hfollowed htakes
      rw [List.map_cons, List.forall_mem_cons] at hover
      rcases hover with ⟨⟨o, hstand, hrun, hmem⟩, hrest⟩
      have hx := tallied_single hstand hrun hfollowed.1 htakes.1
      rw [hcache _ _ hmem] at hx
      exact hx.append (ih hfollowed.2 htakes.2 hrest)

end Call

namespace Request

variable {op : OpCode} {σ : Type} {r : Request op} {deadline : Instant}

/-- All attempts that belong to a try are made for the cache of the request. -/
theorem Try.cache_of_mem {x : Try op} {other : OpCode} {a : Attempt other}
    {o : Outcome other.Reply}
    (h : (⟨.attempt a, o⟩ : Call.Event σ) ∈ x.events r deadline) : a.cache = r.cache.key := by
  unfold Try.events at h
  rw [List.mem_cons, List.mem_append, List.mem_append, List.mem_map, List.mem_flatMap,
    List.mem_map] at h
  rcases h with heq | ⟨cause, -, heq⟩ | ⟨ping, -, hping⟩ | ⟨t, -, heq⟩
  · cases heq
    rfl
  · cases heq
  · rw [Call.Refresh.events, List.mem_cons, List.mem_singleton] at hping
    rcases hping with heq | heq
    · cases heq
    · cases heq
      rfl
  · cases heq

/-- What counts for the repetitions of a call. -/
def repetitions (tries : List (Try op)) : List Counter :=
  (tries.filterMap fun x => x.outcome.cause?).map (Counter.retries op.name)

/-- What a call records by itself is why it has made further attempts. -/
theorem bumps_recordings (r : Request op) (deadline : Instant) (tries : List (Try op)) :
    bumps (measured (((tries.flatMap (Try.events r deadline)) : Call.Trace σ).filterMap
      Call.recording?)) =
        repetitions tries := by
  induction tries with
  | nil => rfl
  | cons x rest ih =>
      have hhere : bumps (measured ((x.events r deadline : Call.Trace σ).filterMap
          Call.recording?)) = x.outcome.cause?.toList.map (Counter.retries op.name) := by
        rcases x with ⟨t, target, o, ping, read⟩
        cases o <;> cases ping <;> cases read <;> rfl
      rw [List.flatMap_cons, List.filterMap_append, measured_append, bumps_append, ih, hhere]
      unfold repetitions
      rw [List.filterMap_cons]
      cases x.outcome.cause? <;> rfl

/-- What a call has added to the counters of its client, by the attempts that it has made itself
and by all that are over, its pings included. -/
structure Accounted (r : Request op) (known : Intelligence) (tries : List (Try op))
    (finished : List Call.Finished) (before after : List Measurement) : Prop where
  /-- The channels that attempts with a name have been lent to a node. -/
  operations : ∀ (o : OpCode) (node : NodeAddress),
    total after (.operations o.name node.text true) +
        total after (.operations o.name node.text false) =
      total before (.operations o.name node.text true) +
        total before (.operations o.name node.text false) +
          (finished.flatMap Call.Finished.acquired).count (o, node)
  /-- Those of them that were lent to attempts that have been completed. -/
  completed : ∀ (o : OpCode) (node : NodeAddress),
    total after (.operations o.name node.text true) =
      total before (.operations o.name node.text true) +
        ((finished.filter Call.Finished.isCompleted).flatMap Call.Finished.acquired).count
          (o, node)
  returned : ∀ node : NodeAddress,
    total after (.returned node.text true) + total after (.returned node.text false) =
      total before (.returned node.text true) + total before (.returned node.text false) +
        (finished.flatMap Call.Finished.acquired).countP fun x => x.2 = node
  abandoned : ∀ o : OpCode, total after (.abandoned o.name) =
    total before (.abandoned o.name) +
      finished.countP fun x => x.effort.op = o && x.overran
  retries : ∀ o : OpCode, ∀ cause ∈ Outcome.causes,
    total after (.retries o.name cause) = total before (.retries o.name cause) +
      if o = op then tries.countP fun x => x.outcome.cause? = some cause else 0
  updates : ∀ label,
    total after (.updates label true) + total after (.updates label false) =
      total before (.updates label true) + total before (.updates label false) +
        if label = Utf8.lossy r.cache.key then
          (finished.flatMap Call.Finished.brought).countP fun u => (Topology.ofUpdate u known).isOk
        else 0

theorem mem_repetitions {tries : List (Try op)} {c : Counter} (h : c ∈ repetitions tries) :
    ∃ cause ∈ Outcome.causes, c = .retries op.name cause := by
  rcases List.mem_map.1 h with ⟨cause, hcause, rfl⟩
  rcases List.mem_filterMap.1 hcause with ⟨x, -, hx⟩
  exact ⟨cause, Outcome.mem_causes hx, rfl⟩

theorem count_repetitions_eq_zero (tries : List (Try op)) {c : Counter}
    (hc : ∀ name cause, c ≠ .retries name cause) : (repetitions tries).count c = 0 := by
  refine List.count_eq_zero_of_not_mem fun hmem => ?_
  rcases mem_repetitions hmem with ⟨cause, -, rfl⟩
  exact hc _ _ rfl

theorem count_repetitions (tries : List (Try op)) (o : OpCode) (cause : String) :
    (repetitions tries).count (.retries o.name cause) =
      if o = op then tries.countP fun x => x.outcome.cause? = some cause else 0 := by
  have hiff : ∀ other, Counter.retries op.name other = .retries o.name cause ↔
      o = op ∧ other = cause := by
    intro other
    rw [Counter.retries.injEq, OpCode.name_injective.eq_iff, eq_comm]
  induction tries with
  | nil => simp [repetitions]
  | cons x rest ih =>
      unfold repetitions at ih ⊢
      rw [List.filterMap_cons, List.countP_cons]
      cases hx : x.outcome.cause? with
      | none => simpa using ih
      | some other =>
          rw [List.map_cons, List.count_cons, ih]
          by_cases ho : o = op <;> simp [hiff, ho]

/-- The keys of these counters can be told apart, so that a counter grows by its own bookings. -/
theorem accounted_of_tallied {known : Intelligence} {tries : List (Try op)}
    {finished : List Call.Finished} {before after own : List Measurement} {counters : List Counter}
    (htallied : Call.Tallied known r.cache.key finished counters)
    (hafter : after.Perm (own ++ before))
    (hown : (bumps own).Perm (repetitions tries ++ counters)) :
    Accounted r known tries finished before after := by
  have hplain : ∀ c ∈ bumps own, c.IsPlain := by
    intro c hc
    rcases List.mem_append.1 (hown.mem_iff.1 hc) with hc | hc
    · rcases mem_repetitions hc with ⟨cause, hcause, rfl⟩
      exact Outcome.comma_not_mem cause hcause
    · exact htallied.plain c hc
  have htotal : ∀ c : Counter, c.IsPlain →
      total after c = total before c + ((repetitions tries).count c + counters.count c) := by
    intro c hc
    rw [total_of_perm hafter hplain hc, hown.count_eq, List.count_append]
  constructor
  case operations =>
    intro o node
    have htotal := fun b => htotal (.operations o.name node.text b) o.comma_not_mem_name
    have hnone b := count_repetitions_eq_zero tries (c := .operations o.name node.text b) nofun
    rw [htotal, htotal, hnone, hnone, ← htallied.operations]
    omega
  case completed =>
    intro o node
    have hnone := count_repetitions_eq_zero tries (c := .operations o.name node.text true) nofun
    rw [htotal (.operations o.name node.text true) o.comma_not_mem_name, hnone,
      ← htallied.completed, Nat.zero_add]
  case returned =>
    intro node
    have htotal := fun b => htotal (.returned node.text b) trivial
    have hnone b := count_repetitions_eq_zero tries (c := .returned node.text b) nofun
    rw [htotal, htotal, hnone, hnone, ← htallied.returned]
    omega
  case abandoned =>
    intro o
    have hnone := count_repetitions_eq_zero tries (c := .abandoned o.name) nofun
    rw [htotal (.abandoned o.name) trivial, hnone, ← htallied.abandoned, Nat.zero_add]
  case retries =>
    intro o cause hcause
    rw [htotal (.retries o.name cause) (Outcome.comma_not_mem cause hcause), htallied.retries,
      count_repetitions, Nat.add_zero]
  case updates =>
    intro label
    have htotal := fun b => htotal (.updates label b) trivial
    have hnone b := count_repetitions_eq_zero tries (c := .updates label b) nofun
    rw [htotal, htotal, hnone, hnone, ← htallied.updates]
    omega

/-- Whether a topology is taken is settled from the start: it is no matter of what the client has
learnt. -/
theorem isOk_of_mem {c e : Client} {log : Exchange.Trace} {cache : Bytes} {u : TopologyUpdate}
    {answer : Except ClientError Bool} (hserves : c.Serves log e)
    (hmem : ⟨.install cache u, answer⟩ ∈ log) :
    answer.isOk = (Topology.ofUpdate u c.registry.intelligence).isOk := by
  cases hu : Topology.ofUpdate u c.registry.intelligence with
  | error refusal =>
      rw [hserves.refused hmem hu]
      rfl
  | ok t =>
      rcases hserves.taken hmem hu with ⟨applied, rfl⟩
      rfl

/-- When a call and all that it has left to the background are over, the counters of its client
account for its attempts, whatever the nodes have done. The client may have served others in
between, and in whatever order things have happened. -/
theorem metrics_accounted {trace : Call.Trace σ} {result : Except ClientError op.Reply}
    {finished : List Call.Finished} {log : Exchange.Trace} {others : List Measurement}
    {c e : Client} (h : Call.Reaches (r.executeUntil deadline) trace (.done result))
    (hperforms : Call.Performs trace
      (.done result : Call.Stand σ (Except ClientError op.Reply))
        (finished.map Call.Finished.effort))
    (hfollowed : ∀ x ∈ finished, Attempt.Followed x.effort.run x.late)
    (hlog : log.Perm (trace.filterMap Call.recording? ++
      finished.flatMap Call.Finished.events))
    (hmeasures : c.Measures log others e) :
    ∃ earlier last, Tries r r.limit r.topology [] earlier last ∧
      trace = (earlier ++ [last]).flatMap (Try.events r deadline) ∧
        result = last.verdict r.limit ∧
          Accounted r c.registry.intelligence (earlier ++ [last]) finished
            (others ++ c.measurements) e.measurements := by
  have hlimit : r.limit = r.limit - 1 + 1 := (Nat.sub_add_cancel (Nat.le_max_left _ _)).symm
  unfold executeUntil at h
  rw [hlimit] at h
  rcases tries_of_reaches h with ⟨earlier, last, htries, rfl, rfl⟩
  rw [← hlimit] at htries
  refine ⟨earlier, last, htries, rfl, rfl, ?_⟩
  have hcache : ∀ {other : OpCode} (a : Attempt other) (o : Outcome other.Reply),
      (⟨.attempt a, o⟩ : Call.Event σ) ∈ (earlier ++ [last]).flatMap (Try.events r deadline) →
        a.cache = r.cache.key := by
    intro other a o hmem
    rcases List.mem_flatMap.1 hmem with ⟨x, -, hx⟩
    exact Try.cache_of_mem hx
  have htakes : ∀ x ∈ finished, ∀ cache u answer, ⟨.install cache u, answer⟩ ∈ x.events →
      answer.isOk = (Topology.ofUpdate u c.registry.intelligence).isOk := by
    intro x hx cache u answer hmem
    have hlogged : ⟨.install cache u, answer⟩ ∈ log :=
      hlog.mem_iff.2 (List.mem_append_right _ (List.mem_flatMap.2 ⟨x, hx, hmem⟩))
    exact isOk_of_mem hmeasures.serves hlogged
  have htallied := Call.tallied_of_performs hperforms hcache hfollowed htakes
  refine accounted_of_tallied htallied hmeasures.perm ?_
  have hbumps := (hlog.flatMap_right recorded).flatMap_right bumped
  rw [← bumps_recordings (σ := σ) r deadline, ← bumps_measured_flatMap, ← bumps_append,
    ← measured_append]
  exact hbumps

/-- A read that may be attempted several times. -/
def restlessGet : Request .get where
  cache := { name := "", config := { maxRetries := 5 }, intelligence := .topologyAware }
  operation := .get [1]
  flags := .none
  topology := .initial .topologyAware [⟨"a", 1⟩]

def restlessFirst : Attempt .get :=
  restlessGet.attempt restlessGet.topology .any 9

def restlessSecond : Attempt .get :=
  restlessGet.attempt (.initial .topologyAware [⟨"b", 1⟩]) .any 9

/-- The first answer brings a topology. -/
def restlessRun : Exchange.Trace :=
  [⟨.messageId, 1⟩, ⟨.acquire .any 9, .ready (.ok movedChannel)⟩, ⟨.enter .channelAcquired, ()⟩,
    ⟨restlessFirst.writeAsk 1 movedChannel, .ready (.ok ())⟩, ⟨.enter .sent, ()⟩,
    ⟨.enter .awaitingResponse, ()⟩,
    ⟨restlessFirst.readAsk movedChannel,
      .ready (.ok [0xA1, 1, 0x04, 0, 1, 2, 1, 1, 0x62, 0, 1])⟩,
    ⟨.install [] movedUpdate, .ok true⟩,
    ⟨.record (.released movedChannel.node.text), ()⟩, ⟨.giveBack movedChannel true, ()⟩,
    ⟨.record (.duration "get" movedChannel.node.text), ()⟩,
    ⟨.record (.failure "get" movedChannel.node.text "topology_changed"), ()⟩,
    ⟨.enter .retryTopology, ()⟩]

theorem reaches_restlessRun :
    Exchange.Reaches restlessFirst.run restlessRun (.done .retryTopology) :=
  .answered _ (.answered _ (.answered _ (.answered _ (.answered _ (.answered _ (.answered _
    (.answered _ (.answered _ (.answered _ (.answered _ (.answered _ (.answered _
      (.done _)))))))))))))

def restlessTrace : Call.Trace Unit :=
  [⟨.attempt restlessFirst, .retryTopology⟩, ⟨.record (.retry "get" "topology"), ()⟩,
    ⟨.topology [], .initial .topologyAware [⟨"b", 1⟩]⟩,
    ⟨.attempt restlessSecond, .failed (restlessSecond.overrun .awaiting)⟩]

/-- The second answer comes too late, but while there is patience. -/
def restlessLate : LateResponse :=
  restlessSecond.late 2 (Guard.fresh movedChannel).sent

def restlessFinished : List Call.Finished :=
  [⟨⟨.get, restlessFirst, restlessRun, .done .retryTopology⟩, []⟩,
    ⟨⟨.get, restlessSecond, restlessSecond.abandonedRun 2 movedChannel,
      .done (.failed (restlessSecond.overrun .awaiting))⟩,
      restlessLate.caughtRun [0xA1, 2, 0x04, 0, 0]⟩]

def restlessLog : Exchange.Trace :=
  restlessRun ++ ([⟨.record (.retry "get" "topology"), ()⟩] ++
    (restlessSecond.abandonedRun 2 movedChannel ++ restlessLate.caughtRun [0xA1, 2, 0x04, 0, 0]))

theorem reaches_restlessTrace :
    Call.Reaches (restlessGet.executeUntil 9) restlessTrace
      (.done (.error (restlessSecond.overrun .awaiting))) :=
  .answered _ (.answered _ (.answered _ (.answered _ (.done _))))

theorem performs_restlessTrace :
    Call.Performs restlessTrace
      (.done (.error (restlessSecond.overrun .awaiting)) :
        Call.Stand Unit (Except ClientError OpCode.get.Reply))
      (restlessFinished.map Call.Finished.effort) :=
  .attempt reaches_restlessRun (.atOnce id (.atOnce id
    (.attempt (restlessSecond.reaches_abandonedRun 2 movedChannel) (.done _))))

theorem followed_restlessFinished :
    ∀ x ∈ restlessFinished, Attempt.Followed x.effort.run x.late := by
  have hlate : Exchange.Reaches restlessLate.run (restlessLate.caughtRun [0xA1, 2, 0x04, 0, 0])
      (.done ()) :=
    LateResponse.reaches_caughtRun (h := ⟨2, 0x04, ⟨0⟩, none⟩) rfl rfl rfl
  intro x hx
  rcases List.mem_cons.1 hx with rfl | hx
  · exact Or.inl ⟨rfl, by simp [restlessRun]⟩
  · cases List.mem_singleton.1 hx
    exact Or.inr ⟨restlessLate, by simp [Attempt.abandonedRun, restlessLate], hlate⟩

theorem perm_restlessLog :
    restlessLog.Perm (restlessTrace.filterMap Call.recording? ++
      restlessFinished.flatMap Call.Finished.events) :=
  List.perm_append_comm_assoc _ _ _

/-- Someone else has to repeat a write meanwhile. -/
theorem measures_restlessLog :
    ∃ e, movedClient.Measures restlessLog [.retry "put" "connectivity"] e := by
  have hafter : ∃ e, (movedClient.record (.retry "put" "connectivity")).Measures restlessLog [] e :=
    ⟨_, .answered (.foreign trivial (.answered (.foreign trivial (.answered (.answered (.foreign
      trivial (.answered (.answered (.answered (.answered (.answered (.answered (.answered
      (.answered (.foreign trivial (.answered (.foreign trivial (.answered (.answered (.foreign
      trivial (.answered (.answered (.answered (.answered (.answered (.foreign trivial (.answered
      (.answered (.nil _)))))))))))))))))))))))))))))⟩
  rcases hafter with ⟨e, h⟩
  have hevolves : movedClient.registry.Evolves
      (movedClient.record (.retry "put" "connectivity")).registry := .refl
  have hmore : (movedClient.record (.retry "put" "connectivity")).measurements =
      [.retry "put" "connectivity"] ++ movedClient.measurements := rfl
  exact ⟨e, .meanwhile hevolves hmore h⟩

theorem metrics_accounted_restless :
    Call.Reaches (restlessGet.executeUntil 9) restlessTrace
        (.done (.error (restlessSecond.overrun .awaiting))) ∧
      Call.Performs restlessTrace
        (.done (.error (restlessSecond.overrun .awaiting)) :
          Call.Stand Unit (Except ClientError OpCode.get.Reply))
        (restlessFinished.map Call.Finished.effort) ∧
      (∀ x ∈ restlessFinished, Attempt.Followed x.effort.run x.late) ∧
      restlessLog.Perm (restlessTrace.filterMap Call.recording? ++
        restlessFinished.flatMap Call.Finished.events) ∧
      ∃ e, movedClient.Measures restlessLog [.retry "put" "connectivity"] e ∧
        ∃ earlier last, Tries restlessGet restlessGet.limit restlessGet.topology [] earlier last ∧
          restlessTrace = (earlier ++ [last]).flatMap (Try.events restlessGet 9) ∧
            .error (restlessSecond.overrun .awaiting) = last.verdict restlessGet.limit ∧
              Accounted restlessGet movedClient.registry.intelligence (earlier ++ [last])
                restlessFinished ([.retry "put" "connectivity"] ++ movedClient.measurements)
                e.measurements := by
  rcases measures_restlessLog with ⟨e, hmeasures⟩
  exact ⟨reaches_restlessTrace, performs_restlessTrace, followed_restlessFinished,
    perm_restlessLog, e, hmeasures,
    metrics_accounted reaches_restlessTrace performs_restlessTrace followed_restlessFinished
      perm_restlessLog hmeasures⟩

end Request
end GridClient
