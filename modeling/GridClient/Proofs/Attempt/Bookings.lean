import GridClient.Proofs.Attempt.Runs
import GridClient.Proofs.Client.Measuring
import GridClient.Proofs.Metrics

/-!
# What attempts add to the counters

Every way in which an attempt can come to an end records its measurements by itself. Whichever it
takes, a channel that it has been lent counts once with the outcome of the attempt, and once when
it is given back, be it by the attempt or by the wait for its late response. Topologies are counted
when they are installed, which is when a response has brought them.
-/

namespace GridClient

open Exchange Metrics

def Outcome.isCompleted {α : Type} : Outcome α → Bool
  | completed _ => true
  | _ => false

namespace Exchange

/-- The measurement that is asked to be recorded. -/
def noted? : Program.Event Answer → Option Measurement
  | ⟨.record m, _⟩ => some m
  | _ => none

/-- The topology that is asked to be installed, and the cache it is for. -/
def offered? : Program.Event Answer → Option (Bytes × TopologyUpdate)
  | ⟨.install cache u, _⟩ => some (cache, u)
  | _ => none

/-- The counter of the update that has been made of a topology. -/
def taken? : Program.Event Answer → Option Counter
  | ⟨.install cache _, .ok applied⟩ => some (.updates (Utf8.lossy cache) applied)
  | _ => none

variable {trace : Trace}

/-- What a trace adds to the counters comes from its measurements or from its topologies. -/
theorem bumps_measured (trace : Trace) :
    (bumps (measured trace)).Perm
      (bumps (trace.filterMap noted?) ++ trace.filterMap taken?) := by
  induction trace with
  | nil => exact .refl _
  | cons e rest ih =>
      rcases e with ⟨q, answer⟩
      cases q with
      | record m =>
          have hcons : bumps (measured (⟨.record m, answer⟩ :: rest)) =
            bumped m ++ bumps (measured rest) := rfl
          have hnoted : bumps ((⟨.record m, answer⟩ :: rest).filterMap noted?) =
            bumped m ++ bumps (rest.filterMap noted?) := rfl
          rw [hcons, hnoted, List.append_assoc]
          exact ih.append_left _
      | install cache u =>
          cases answer with
          | error e => exact ih
          | ok applied => exact (ih.cons _).trans List.perm_middle.symm
      | _ => exact ih

theorem bumps_measured_flatMap {β : Type} (f : β → Trace) (xs : List β) :
    bumps (measured (xs.flatMap f)) = xs.flatMap fun x => bumps (measured (f x)) := by
  simp only [bumps, measured, List.flatMap_assoc]

/-- If it is known which topologies can be taken, it is known how many updates there are. -/
theorem length_taken {takes : TopologyUpdate → Bool}
    (htakes : ∀ cache u answer, ⟨.install cache u, answer⟩ ∈ trace → answer.isOk = takes u) :
    (trace.filterMap taken?).length = (trace.filterMap offered?).countP fun x => takes x.2 := by
  induction trace with
  | nil => rfl
  | cons e rest ih =>
      have hrest := ih fun cache u answer hmem =>
        htakes cache u answer (List.mem_cons_of_mem _ hmem)
      rcases e with ⟨q, answer⟩
      cases q with
      | install cache u =>
          have hhere := htakes cache u answer List.mem_cons_self
          have hoffered : (⟨.install cache u, answer⟩ :: rest : Trace).filterMap offered? =
            (cache, u) :: rest.filterMap offered? := rfl
          rw [hoffered, List.countP_cons, ← hrest, ← hhere]
          cases answer <;> rfl
      | _ => exact hrest

theorem mem_taken {c : Counter} {cache : Bytes}
    (hcache : ∀ x ∈ trace.filterMap offered?, x.1 = cache) (hc : c ∈ trace.filterMap taken?) :
    ∃ applied, c = .updates (Utf8.lossy cache) applied := by
  rcases List.mem_filterMap.1 hc with ⟨⟨q, answer⟩, hmem, htaken⟩
  cases q with
  | install other u =>
      have hother : other = cache := hcache (other, u) (List.mem_filterMap.2 ⟨_, hmem, rfl⟩)
      cases answer with
      | error e => cases htaken
      | ok applied =>
          cases htaken
          exact ⟨applied, by rw [hother]⟩
  | _ => cases htaken

/-- The topology of a response that has come with one of the numbers. -/
def brought? (intelligence : Intelligence) (ids : List UInt64) :
    Program.Event Answer → Option TopologyUpdate
  | ⟨.read _ _, .ready (.ok frame)⟩ =>
      match (ResponseHeader.reader intelligence).value frame with
      | .ok h => if h.messageId ∈ ids then h.topology else none
      | .error _ => none
  | _ => none

end Exchange

theorem Reader.value_of_run {α : Type} {r : Reader α} {buffer rest : Bytes}
    {result : Except ClientError α} (h : r.run buffer = (result, rest)) :
    r.value buffer = result :=
  congrArg Prod.fst h

namespace Attempt

variable {op : OpCode} {a : Attempt op} {id : UInt64} {channel : Channel} {trace : Exchange.Trace}
  {o : Outcome op.Reply}

/-- What a response has brought is offered while it is read. -/
theorem Reading.offered_eq {frame : Bytes} {judged : Except ClientError (Outcome op.Reply)}
    (h : a.Reading id channel frame trace judged) :
    trace.filterMap offered? =
      ((brought? a.intelligence [id] ⟨a.readAsk channel, .ready (.ok frame)⟩).map
        (Prod.mk a.cache)).toList := by
  cases h with
  | garbled hread => simp [brought?, Reader.value_of_run hread]
  | stray hread hid => simp [brought?, Reader.value_of_run hread, hid]
  | plain hread hid htopology => simp [brought?, Reader.value_of_run hread, htopology]
  | refused hread hid htopology =>
      simp [offered?, brought?, Reader.value_of_run hread, hid, htopology]
  | moved hread hid htopology hreaction =>
      simp [offered?, brought?, Reader.value_of_run hread, hid, htopology]
  | kept hread hid htopology hreaction =>
      simp [offered?, brought?, Reader.value_of_run hread, hid, htopology]

theorem Reading.not_brought {frame : Bytes} {judged : Except ClientError (Outcome op.Reply)}
    (h : a.Reading id channel frame trace judged) (intelligence : Intelligence)
    (ids : List UInt64) : trace.filterMap (brought? intelligence ids) = [] := by
  cases h <;> rfl

theorem Reading.offered_append {frame : Bytes} {judged : Except ClientError (Outcome op.Reply)}
    {rest : Exchange.Trace} (h : a.Reading id channel frame trace judged)
    (hoffered : rest.filterMap offered? = [])
    (hbrought : rest.filterMap (brought? a.intelligence [id]) = []) :
    (a.sending id channel ++ ⟨a.readAsk channel, .ready (.ok frame)⟩ ::
        (trace ++ rest)).filterMap offered? =
      ((a.sending id channel ++ ⟨a.readAsk channel, .ready (.ok frame)⟩ ::
        (trace ++ rest)).filterMap (brought? a.intelligence [id])).map (Prod.mk a.cache) := by
  have hsending : (a.sending id channel).filterMap offered? = [] := rfl
  have hsent : (a.sending id channel).filterMap (brought? a.intelligence [id]) = [] := rfl
  rw [List.filterMap_append, List.filterMap_append, hsending, hsent, List.filterMap_cons_none rfl,
    List.filterMap_append, h.offered_eq, hoffered, List.filterMap_cons, List.filterMap_append,
    h.not_brought, hbrought]
  cases brought? a.intelligence [id] ⟨a.readAsk channel, .ready (.ok frame)⟩ <;> rfl

/-- Each topology that a response to the attempt has brought is offered once. -/
theorem Spends.offered_eq (h : a.Spends id channel trace o) :
    trace.filterMap offered? =
      (trace.filterMap (brought? a.intelligence [id])).map (Prod.mk a.cache) := by
  cases h with
  | unwritten => rfl
  | rebuffed reason => rfl
  | abandoned => rfl
  | lost reason => rfl
  | understood h => exact h.offered_append (by cases o <;> rfl) (by cases o <;> rfl)
  | misread h => exact h.offered_append rfl rfl

/-!
# What is noted
-/

theorem Reading.noted_nil {frame : Bytes} {judged : Except ClientError (Outcome op.Reply)}
    (h : a.Reading id channel frame trace judged) : trace.filterMap noted? = [] := by
  cases h <;> rfl

theorem Reading.not_late {frame : Bytes} {judged : Except ClientError (Outcome op.Reply)}
    (h : a.Reading id channel frame trace judged) : trace.any isLate = false := by
  cases h <;> rfl

/-- Up to the end of a reading there may be nothing that matters. -/
theorem filterMap_reading {β : Type} {f : Program.Event Exchange.Answer → Option β} {frame : Bytes}
    (hsending : (a.sending id channel).filterMap f = [])
    (hheard : f ⟨a.readAsk channel, .ready (.ok frame)⟩ = none) (htrace : trace.filterMap f = [])
    (rest : Exchange.Trace) :
    (a.sending id channel ++ ⟨a.readAsk channel, .ready (.ok frame)⟩ ::
      (trace ++ rest)).filterMap f = rest.filterMap f := by
  rw [List.filterMap_append, hsending, List.nil_append, List.filterMap_cons_none hheard,
    List.filterMap_append, htrace, List.nil_append]

theorem Reading.late_append {frame : Bytes} {judged : Except ClientError (Outcome op.Reply)}
    (h : a.Reading id channel frame trace judged) (rest : Exchange.Trace) :
    (a.sending id channel ++ ⟨a.readAsk channel, .ready (.ok frame)⟩ ::
      (trace ++ rest)).any isLate = rest.any isLate := by
  have hsending : (a.sending id channel).any isLate = false := rfl
  have hheard : isLate ⟨a.readAsk channel, .ready (.ok frame)⟩ = false := rfl
  rw [List.any_append, hsending, Bool.false_or, List.any_cons, hheard, Bool.false_or,
    List.any_append, h.not_late, Bool.false_or]

/-- What is noted of an attempt that has been lent a channel: its outcome and, unless the channel
is left to the background, how the channel goes back. -/
theorem Spends.bumps_noted (h : a.Spends id channel trace o)
    (hdrain : ∀ r, ⟨.drain r, ()⟩ ∉ trace) :
    ∃ clean, (bumps (trace.filterMap noted?)).Perm
      ((if trace.any isLate then [.abandoned op.name] else []) ++
        [.operations op.name channel.node.text o.isCompleted,
          .returned channel.node.text clean]) := by
  cases h with
  | unwritten => exact ⟨false, .refl _⟩
  | rebuffed reason => exact ⟨false, .refl _⟩
  | abandoned => exact absurd (by simp) (hdrain (a.late id (Guard.fresh channel).sent))
  | lost reason => exact ⟨false, .refl _⟩
  | understood h =>
      refine ⟨true, ?_⟩
      rw [filterMap_reading rfl rfl h.noted_nil, h.late_append]
      cases o <;> exact .swap _ _ _
  | misread h =>
      refine ⟨false, ?_⟩
      rw [filterMap_reading rfl rfl h.noted_nil, h.late_append]
      exact .refl _

end Attempt

namespace LateResponse

variable {r : LateResponse} {late : Exchange.Trace}

theorem Ends.offered_eq (h : r.Ends late) :
    late.filterMap offered? =
      (late.filterMap (brought? r.intelligence [r.messageId])).map (Prod.mk r.cache) := by
  cases h with
  | never => rfl
  | lost reason => rfl
  | garbled hread =>
      rw [List.filterMap_cons_none (f := brought? _ _) (by simp [brought?, hread])]
      rfl
  | stray reason hread hid =>
      rw [List.filterMap_cons_none (f := brought? _ _) (by simp [brought?, hread, hid])]
      rfl
  | plain hread hid htopology =>
      rw [List.filterMap_cons_none (f := brought? _ _) (by simp [brought?, hread, htopology])]
      rfl
  | @moved frame h u hread hid htopology answer =>
      have hheard : brought? r.intelligence [r.messageId] ⟨r.readAsk, .ready (.ok frame)⟩ =
          some u := by
        simp [brought?, hread, hid, htopology]
      rw [List.filterMap_cons_some hheard]
      rfl

/-- The wait for a late response ends with the channel going back. -/
theorem Ends.bumps_noted (h : r.Ends late) :
    ∃ clean, bumps (late.filterMap noted?) = [.returned r.guard.channel.node.text clean] := by
  cases h with
  | never => exact ⟨false, rfl⟩
  | lost reason => exact ⟨false, rfl⟩
  | garbled hread => exact ⟨false, rfl⟩
  | stray reason hread hid => exact ⟨false, rfl⟩
  | plain hread hid htopology => exact ⟨true, rfl⟩
  | moved hread hid htopology answer => exact ⟨true, rfl⟩

end LateResponse

/-!
# What an attempt adds to the counters
-/

namespace Attempt

variable {op : OpCode} {a : Attempt op} {id : UInt64} {channel : Channel}
  {run late : Exchange.Trace} {o : Outcome op.Reply}

/-- The counters that an attempt adds to, together with the wait for its late response. -/
structure Booked (a : Attempt op) (run late : Exchange.Trace) (o : Outcome op.Reply) : Prop where
  noted : ∃ clean, (bumps ((run ++ late).filterMap noted?)).Perm
    ((if run.any isLate then [.abandoned op.name] else []) ++
      (lendings run).flatMap fun channel =>
        [.operations op.name channel.node.text o.isCompleted,
          .returned channel.node.text clean])
  offered : (run ++ late).filterMap offered? =
    ((run ++ late).filterMap (brought? a.intelligence (numbers run))).map (Prod.mk a.cache)

theorem Spends.numbers_eq (h : a.Spends id channel run o) : numbers run = [] := by
  cases h with
  | unwritten => rfl
  | rebuffed reason => rfl
  | abandoned => rfl
  | lost reason => rfl
  | understood h => exact (filterMap_reading rfl rfl h.numbers_eq _).trans (by cases o <;> rfl)
  | misread h => exact filterMap_reading rfl rfl h.numbers_eq _

theorem Spends.lendings_eq (h : a.Spends id channel run o) : lendings run = [] := by
  cases h with
  | unwritten => rfl
  | rebuffed reason => rfl
  | abandoned => rfl
  | lost reason => rfl
  | understood h => exact (filterMap_reading rfl rfl h.lendings_eq _).trans (by cases o <;> rfl)
  | misread h => exact filterMap_reading rfl rfl h.lendings_eq _

/-- An attempt leaves nothing to the background but the wait for its own late response. Then it
has overrun, and all that is not noted yet is how the channel goes back. -/
theorem Spends.of_drain (h : a.Spends id channel run o) {r : LateResponse}
    (hr : ⟨.drain r, ()⟩ ∈ run) :
    r = a.late id (Guard.fresh channel).sent ∧ run.any isLate = true ∧
      bumps (run.filterMap noted?) =
        [.abandoned op.name, .operations op.name channel.node.text o.isCompleted] := by
  cases h with
  | unwritten => simp [notes, failing, discarding] at hr
  | rebuffed reason => simp [notes, failing, discarding] at hr
  | abandoned => exact ⟨by simpa [sending, notes, failing] using hr, rfl, rfl⟩
  | lost reason => simp [sending, notes, failing, discarding] at hr
  | understood h => simp [sending, releasing, notes, h.not_drain] at hr
  | misread h => simp [sending, notes, failing, discarding, h.not_drain] at hr

theorem booked_of_lent {rest : Exchange.Trace} (h : a.Spends id channel rest o)
    (hlate : Followed (a.opening id channel ++ rest) late) :
    Booked a (a.opening id channel ++ rest) late o := by
  have hnumbers : numbers (a.opening id channel ++ rest) = [id] :=
    congrArg (List.cons id) h.numbers_eq
  have hlent : lendings (a.opening id channel ++ rest) = [channel] :=
    congrArg (List.cons channel) h.lendings_eq
  rcases hlate with ⟨rfl, hnone⟩ | ⟨r, hr, hrun⟩
  · constructor
    case noted =>
      rw [hlent, List.append_nil]
      exact h.bumps_noted fun r hr => hnone r (List.mem_append_right _ hr)
    case offered =>
      rw [hnumbers, List.append_nil]
      exact h.offered_eq
  · have hdrained : ⟨.drain r, ()⟩ ∈ rest := by simpa [opening] using hr
    rcases h.of_drain hdrained with ⟨rfl, hoverran, hnoted⟩
    have hends := LateResponse.ends_of_reaches hrun
    constructor
    case noted =>
      rcases hends.bumps_noted with ⟨clean, hreturned⟩
      have hlater : (a.opening id channel ++ rest).any isLate = true := hoverran
      have hrun : bumps ((a.opening id channel ++ rest).filterMap noted?) =
          [.abandoned op.name, .operations op.name channel.node.text o.isCompleted] := hnoted
      refine ⟨clean, ?_⟩
      rw [hlent, hlater, List.filterMap_append, bumps_append, hreturned, hrun]
      exact .refl _
    case offered =>
      have hrun : (a.opening id channel ++ rest).filterMap offered? =
          ((a.opening id channel ++ rest).filterMap (brought? a.intelligence [id])).map
            (Prod.mk a.cache) := h.offered_eq
      have hlate : late.filterMap offered? =
          (late.filterMap (brought? a.intelligence [id])).map (Prod.mk a.cache) :=
        hends.offered_eq
      rw [hnumbers, List.filterMap_append, hrun, hlate, ← List.map_append, ← List.filterMap_append]

theorem booked_of_reaches (h : Exchange.Reaches a.run run (.done o))
    (hlate : Followed run late) : Booked a run late o := by
  have hnil : (∀ r, ⟨.drain r, ()⟩ ∉ run) → late = [] := by
    intro hnone
    rcases hlate with ⟨rfl, -⟩ | ⟨r, hr, -⟩
    · rfl
    · exact absurd hr (hnone r)
  cases ends_of_reaches h with
  | unlent id =>
      cases hnil (by simp)
      exact ⟨⟨true, .refl _⟩, rfl⟩
  | refused id e phase =>
      cases hnil (by simp)
      exact ⟨⟨true, .refl _⟩, rfl⟩
  | lent h => exact booked_of_lent h hlate

end Attempt

end GridClient
