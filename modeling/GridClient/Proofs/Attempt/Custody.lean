import GridClient.Proofs.Attempt.Dealings
import GridClient.Proofs.Attempt.Judging
import GridClient.Proofs.Client.Serving

/-!
# Custody of channels

A channel that has been lent to an attempt is in its custody until it is given back, by the
attempt itself or by the wait for its late response. It is given back clean if no response
is outstanding on it.
-/

namespace GridClient
namespace Exchange

def lent? : Program.Event Answer → Option Channel
  | ⟨.acquire _ _, .ready (.ok channel)⟩ => some channel
  | _ => none

def returned? : Program.Event Answer → Option (Channel × Bool)
  | ⟨.giveBack channel clean, _⟩ => some (channel, clean)
  | _ => none

/-- A frame has been written. -/
def Sends : Program.Event Answer → Prop
  | ⟨.write _ _ _, .ready (.ok _)⟩ => True
  | _ => False

/-- A frame has been read. -/
def Receives : Program.Event Answer → Prop
  | ⟨.read _ _, .ready (.ok _)⟩ => True
  | _ => False

/-- The channels that have been lent, in order. -/
def lendings (trace : Trace) : List Channel :=
  trace.filterMap lent?

/-- The channels that have been given back, in order, each clean or not. -/
def returns (trace : Trace) : List (Channel × Bool) :=
  trace.filterMap returned?

/-- What an event does to the number of frames whose response has not been read. A frame
that is written counts from the start: some of it may have been sent, whatever the answer. -/
def backlog (n : Nat) : Program.Event Answer → Nat
  | ⟨.write _ _ _, _⟩ => n + 1
  | ⟨.read _ _, .ready (.ok _)⟩ => n - 1
  | _ => n

/-- The number of frames whose response has not been read. -/
def unread (trace : Trace) : Nat :=
  trace.foldl backlog 0

theorem lent?_record {e : Program.Event Answer} (h : e.ask.isRecord = true) : lent? e = none := by
  rcases e with ⟨q, answer⟩
  cases q <;> first | rfl | cases h

theorem returned?_record {e : Program.Event Answer} (h : e.ask.isRecord = true) :
    returned? e = none := by
  rcases e with ⟨q, answer⟩
  cases q <;> first | rfl | cases h

theorem backlog_record {e : Program.Event Answer} (h : e.ask.isRecord = true) (n : Nat) :
    backlog n e = n := by
  rcases e with ⟨q, answer⟩
  cases q <;> first | rfl | cases h

theorem lendings_dealings (trace : Trace) : lendings (dealings trace) = lendings trace :=
  filterMap_dealings (fun _ => lent?_record) trace

theorem returns_dealings (trace : Trace) : returns (dealings trace) = returns trace :=
  filterMap_dealings (fun _ => returned?_record) trace

theorem lendings_append (first last : Trace) :
    lendings (first ++ last) = lendings first ++ lendings last :=
  List.filterMap_append

theorem returns_append (first last : Trace) :
    returns (first ++ last) = returns first ++ returns last :=
  List.filterMap_append

theorem foldl_backlog_dealings (trace : Trace) (n : Nat) :
    (dealings trace).foldl backlog n = trace.foldl backlog n := by
  unfold dealings
  induction trace generalizing n with
  | nil => rfl
  | cons e rest ih =>
      cases he : e.ask.isRecord with
      | true =>
          rw [List.filter_cons_of_neg (by simp [he]), ih, List.foldl_cons, backlog_record he]
      | false => rw [List.filter_cons_of_pos (by simp [he]), List.foldl_cons, List.foldl_cons, ih]

theorem unread_dealings (trace : Trace) : unread (dealings trace) = unread trace :=
  foldl_backlog_dealings trace 0

/-- The dealings concern one channel, which is given back at their end. -/
def Settles (ds : Trace) (channel : Channel) (clean : Bool) : Prop :=
  ∃ first, ds = first ++ [⟨.giveBack channel clean, ()⟩] ∧ lendings first = [channel] ∧
    returns first = [] ∧ (clean = true → unread first = 0)

namespace Settles

variable {ds : Trace} {channel : Channel} {clean : Bool}

theorem lendings_eq (h : Settles ds channel clean) : lendings ds = [channel] := by
  rcases h with ⟨first, rfl, hlent, -, -⟩
  rw [lendings_append, hlent]
  rfl

theorem returns_eq (h : Settles ds channel clean) : returns ds = [(channel, clean)] := by
  rcases h with ⟨first, rfl, -, hreturned, -⟩
  rw [returns_append, hreturned]
  rfl

/-- Up to the moment when the channel is given back clean all responses have been read. -/
theorem unread_eq (h : Settles ds channel clean) {before after : Trace} {other : Channel}
    (hds : ds = before ++ ⟨.giveBack other true, ()⟩ :: after) : unread before = 0 := by
  rcases h with ⟨first, hfirst, -, hreturned, hunread⟩
  rw [hfirst] at hds
  -- The return at the end is the only one, so nothing can come after it.
  rcases List.eq_nil_or_concat after with rfl | ⟨init, e, rfl⟩
  · rcases List.append_inj' hds rfl with ⟨rfl, hlast⟩
    cases hlast
    exact hunread rfl
  · rw [List.concat_eq_append, ← List.cons_append, ← List.append_assoc] at hds
    rcases List.append_inj' hds rfl with ⟨rfl, -⟩
    rw [returns_append] at hreturned
    cases (List.append_eq_nil_iff.1 hreturned).2

end Settles

end Exchange

namespace LateResponse

open Exchange

variable {r : LateResponse} {ds : Exchange.Trace}

/-- The awaited response is among the dealings: its header can be read and has the number of
the request. -/
def Arrived (r : LateResponse) (ds : Exchange.Trace) : Prop :=
  ∃ (frame : Bytes) (h : ResponseHeader), ⟨r.readAsk, .ready (.ok frame)⟩ ∈ ds ∧
    (ResponseHeader.reader r.intelligence).value frame = .ok h ∧ h.messageId = r.messageId

/-- The wait for a late response ends with the channel being given back, and nothing else is.
It is given back clean if the awaited response has arrived. -/
theorem Course.settled (h : r.Course ds (.done ())) :
    ∃ middle clean, ds = middle ++ [⟨.giveBack r.guard.channel clean, ()⟩] ∧
      lendings middle = [] ∧ returns middle = [] ∧
        (clean = true → middle.foldl backlog 1 = 0) ∧ (clean = true ↔ r.Arrived ds) := by
  cases h with
  | never =>
      refine ⟨[_], false, rfl, rfl, rfl, nofun, iff_of_false Bool.false_ne_true ?_⟩
      simp [Arrived]
  | lost reason =>
      refine ⟨[_], false, rfl, rfl, rfl, nofun, iff_of_false Bool.false_ne_true ?_⟩
      simp [Arrived]
  | garbled hread =>
      refine ⟨[_], false, rfl, rfl, rfl, nofun, iff_of_false Bool.false_ne_true ?_⟩
      simp [Arrived, hread]
  | stray hread hid =>
      refine ⟨[_], false, rfl, rfl, rfl, nofun, iff_of_false Bool.false_ne_true ?_⟩
      simp [Arrived, hread, hid]
  | @plain frame h hread hid htopology =>
      refine ⟨[_], true, rfl, rfl, rfl, fun _ => rfl, iff_of_true rfl ⟨frame, h, ?_, hread, hid⟩⟩
      simp
  | @moved frame h u hread hid htopology answer =>
      refine ⟨[_, _], true, rfl, rfl, rfl, fun _ => rfl,
        iff_of_true rfl ⟨frame, h, ?_, hread, hid⟩⟩
      simp

end LateResponse

namespace Attempt

open Exchange

variable {op : OpCode} {a : Attempt op} {id : UInt64} {channel : Channel}

namespace Reading

variable {frame : Bytes} {ds : Exchange.Trace}

theorem lendings_eq {judged : Except ClientError (Outcome op.Reply)}
    (h : a.Reading id channel frame ds judged) : lendings ds = [] := by
  cases h <;> rfl

theorem returns_eq {judged : Except ClientError (Outcome op.Reply)}
    (h : a.Reading id channel frame ds judged) : returns ds = [] := by
  cases h <;> rfl

theorem foldl_backlog {judged : Except ClientError (Outcome op.Reply)}
    (h : a.Reading id channel frame ds judged) (n : Nat) : ds.foldl backlog n = n := by
  cases h <;> rfl

/-- The reading of a response asks for nothing but an installation. -/
theorem asks_install {judged : Except ClientError (Outcome op.Reply)}
    (h : a.Reading id channel frame ds judged) : ∀ e ∈ ds, ∃ u, e.ask = .install a.cache u := by
  cases h <;> simp

theorem not_drain {judged : Except ClientError (Outcome op.Reply)}
    (h : a.Reading id channel frame ds judged) (r : LateResponse) : ⟨.drain r, ()⟩ ∉ ds := by
  intro hmem
  rcases h.asks_install _ hmem with ⟨u, hask⟩
  cases hask

theorem trusted {o : Outcome op.Reply} (h : a.Reading id channel frame ds (.ok o)) :
    ∀ e, o = .failed e → e.poisonsChannel = false := by
  generalize hjudged : Except.ok o = judged at h
  cases h with
  | garbled hread => cases hjudged
  | stray hread hid => cases hjudged
  | plain hread hid htopology =>
      rintro e rfl
      exact poisonsChannel_of_judge_ok hjudged.symm
  | refused hread hid htopology => cases hjudged
  | moved hread hid htopology hreaction =>
      cases hjudged
      exact fun e ho => nomatch ho
  | kept hread hid htopology hreaction =>
      rintro e rfl
      exact poisonsChannel_of_judge_ok hjudged.symm

theorem untrusted {e : ClientError} (h : a.Reading id channel frame ds (.error e))
    (hfaults : ∀ cache u refusal, ⟨.install cache u, .error refusal⟩ ∈ ds → refusal.IsFault) :
    e.poisonsChannel = true := by
  generalize hjudged : Except.error e = judged at h
  cases h with
  | garbled hread =>
      cases hjudged
      exact (ResponseHeader.onlyFaults_reader _ frame e (congrArg Prod.fst hread)).poisonsChannel
  | stray hread hid =>
      cases hjudged
      rfl
  | plain hread hid htopology => exact poisonsChannel_of_judge_error hjudged.symm
  | refused hread hid htopology =>
      cases hjudged
      exact (hfaults _ _ _ (List.mem_singleton.2 rfl)).poisonsChannel
  | moved hread hid htopology hreaction => cases hjudged
  | kept hread hid htopology hreaction => exact poisonsChannel_of_judge_error hjudged.symm

end Reading

/-!
# What becomes of the channel
-/

/-- A response has been read in time and has been interpreted without an error that speaks
against the channel. -/
def Understood (a : Attempt op) (channel : Channel) (run : Exchange.Trace)
    (o : Outcome op.Reply) : Prop :=
  (∃ frame, ⟨a.readAsk channel, .ready (.ok frame)⟩ ∈ run) ∧
    ∀ e, o = .failed e → e.poisonsChannel = false

/-- The attempt has been abandoned, but then a response has come while there was patience,
with a header that can be read and with the number of the attempt. -/
def Caught (a : Attempt op) (channel : Channel) (run late : Exchange.Trace) : Prop :=
  ∃ id, ⟨.messageId, id⟩ ∈ run ∧ ⟨.drain (a.late id (Guard.fresh channel).sent), ()⟩ ∈ run ∧
    (a.late id (Guard.fresh channel).sent).Arrived late

theorem understood_dealings {run : Exchange.Trace} {o : Outcome op.Reply} :
    a.Understood channel (dealings run) o ↔ a.Understood channel run o := by
  unfold Understood
  simp [mem_dealings, Ask.isRecord]

theorem caught_dealings {run late : Exchange.Trace} :
    a.Caught channel (dealings run) (dealings late) ↔ a.Caught channel run late := by
  unfold Caught LateResponse.Arrived
  simp [mem_dealings, Ask.isRecord]

/-- What becomes of the channel that an attempt is lent, if it gets one: after the attempt and
the wait for its late response, if there is one, it has been given back exactly once. -/
structure Custody (a : Attempt op) (run late : Exchange.Trace) (o : Outcome op.Reply) : Prop where
  length_le : (lendings (run ++ late)).length ≤ 1
  returned : (returns (run ++ late)).map Prod.fst = lendings (run ++ late)
  clean_iff : ∀ channel clean, (channel, clean) ∈ returns (run ++ late) →
    (clean = true ↔ a.Understood channel run o ∨ a.Caught channel run late)
  /-- Until a channel is given back clean every response on it has been read. -/
  unread : ∀ before channel after,
    run ++ late = before ++ ⟨.giveBack channel true, ()⟩ :: after → unread before = 0

namespace Custody

variable {run late : Exchange.Trace} {o : Outcome op.Reply}

theorem of_settles {clean : Bool} (h : Settles (run ++ late) channel clean)
    (hclean : clean = true ↔ a.Understood channel run o ∨ a.Caught channel run late) :
    Custody a run late o := by
  constructor
  case length_le => rw [h.lendings_eq]; exact Nat.le_refl 1
  case returned => rw [h.lendings_eq, h.returns_eq]; rfl
  case clean_iff =>
    intro other cleaned hmem
    rw [h.returns_eq, List.mem_singleton] at hmem
    cases hmem
    exact hclean
  case unread => exact fun before other after hsplit => h.unread_eq hsplit

theorem of_unlent (hlent : lendings (run ++ late) = []) (hreturned : returns (run ++ late) = []) :
    Custody a run late o := by
  constructor
  case length_le => rw [hlent]; exact Nat.zero_le 1
  case returned => rw [hlent, hreturned]; rfl
  case clean_iff =>
    intro channel clean hmem
    rw [hreturned] at hmem
    cases hmem
  case unread =>
    intro before channel after hsplit
    rw [hsplit, returns_append] at hreturned
    cases (List.append_eq_nil_iff.1 hreturned).2

/-- Records have nothing to do with custody. -/
theorem of_dealings (h : Custody a (dealings run) (dealings late) o) : Custody a run late o := by
  have hlent : lendings (dealings run ++ dealings late) = lendings (run ++ late) := by
    rw [← dealings_append, lendings_dealings]
  have hreturned : returns (dealings run ++ dealings late) = returns (run ++ late) := by
    rw [← dealings_append, returns_dealings]
  rcases h with ⟨hlength, hback, hclean, hunread⟩
  rw [hlent] at hlength hback
  rw [hreturned] at hback hclean
  constructor
  case length_le => exact hlength
  case returned => exact hback
  case clean_iff =>
    intro channel clean hgiven
    rw [hclean channel clean hgiven, understood_dealings, caught_dealings]
  case unread =>
    intro before channel after hsplit
    rw [← unread_dealings]
    apply hunread (dealings before) channel (dealings after)
    rw [← dealings_append, hsplit, dealings_append]
    rfl

end Custody

/-!
# From the course to the custody
-/

variable {ds late : Exchange.Trace} {o : Outcome op.Reply}

/-- What follows an attempt, by its dealings. -/
def Trailed (ds late : Exchange.Trace) : Prop :=
  (late = [] ∧ ∀ r, ⟨.drain r, ()⟩ ∉ ds) ∨
    ∃ r : LateResponse, ⟨.drain r, ()⟩ ∈ ds ∧ r.Course late (.done ())

/-- The dealings of an attempt that is lent a channel. -/
def lentDealings (a : Attempt op) (id : UInt64) (channel : Channel) (ds : Exchange.Trace) :
    Exchange.Trace :=
  ⟨.messageId, id⟩ :: ⟨.acquire a.target a.deadline, .ready (.ok channel)⟩ :: ds

/-- What does not concern the number or the lending of a channel concerns one that was lent. -/
theorem Course.using_of_mem {stand : Exchange.Stand (Outcome op.Reply)}
    {e : Program.Event Exchange.Answer} (h : a.Course ds stand) (hmem : e ∈ ds)
    (hnumber : e.ask ≠ .messageId)
    (hacquire : ∀ target deadline, e.ask ≠ .acquire target deadline) :
    ∃ id channel rest, ds = a.lentDealings id channel rest ∧ e ∈ rest ∧
      a.Using id channel rest stand := by
  have hnumbered : ∀ id, e ≠ ⟨.messageId, id⟩ := by
    rintro id rfl
    exact hnumber rfl
  have hacquired : ∀ answer, e ≠ ⟨.acquire a.target a.deadline, answer⟩ := by
    rintro answer rfl
    exact hacquire _ _ rfl
  cases h with
  | acquiring id => simp [hnumbered] at hmem
  | unlent id => simp [hnumbered, hacquired] at hmem
  | refused id error => simp [hnumbered, hacquired] at hmem
  | @lent id channel rest stand husing =>
      simp only [List.mem_cons, hnumbered, hacquired, false_or] at hmem
      exact ⟨id, channel, rest, rfl, hmem, husing⟩

theorem settles_lent (a : Attempt op) (id : UInt64) (channel : Channel)
    (middle : Exchange.Trace) {clean : Bool} (hlent : lendings middle = [])
    (hreturned : returns middle = []) (hunread : clean = true → unread middle = 0) :
    Settles (a.lentDealings id channel (middle ++ [⟨.giveBack channel clean, ()⟩])) channel
      clean :=
  ⟨a.lentDealings id channel middle, rfl, congrArg (List.cons channel) hlent, hreturned, hunread⟩

theorem Trailed.nil_of_not_drain (h : Trailed ds late) (hdrain : ∀ r, ⟨.drain r, ()⟩ ∉ ds) :
    late = [] := by
  rcases h with ⟨rfl, -⟩ | ⟨r, hmem, -⟩
  · rfl
  · exact absurd hmem (hdrain r)

theorem custody_at_once (middle : Exchange.Trace) {clean : Bool} (hlent : lendings middle = [])
    (hreturned : returns middle = []) (hunread : clean = true → unread middle = 0)
    (hdrain : ∀ r, ⟨.drain r, ()⟩ ∉ middle)
    (hlate : Trailed (a.lentDealings id channel (middle ++ [⟨.giveBack channel clean, ()⟩])) late)
    (hclean : clean = true ↔
      a.Understood channel (a.lentDealings id channel (middle ++ [⟨.giveBack channel clean, ()⟩]))
        o) :
    Custody a (a.lentDealings id channel (middle ++ [⟨.giveBack channel clean, ()⟩])) late o := by
  have hnone : ∀ r, ⟨.drain r, ()⟩ ∉
      a.lentDealings id channel (middle ++ [⟨.giveBack channel clean, ()⟩]) := by
    intro r hmem
    simp only [lentDealings, List.mem_cons, List.mem_append, List.not_mem_nil, or_false] at hmem
    rcases hmem with hmem | hmem | hmem | hmem
    · cases hmem
    · cases hmem
    · exact hdrain r hmem
    · cases hmem
  have hnil := hlate.nil_of_not_drain hnone
  subst hnil
  have hsettles := settles_lent a id channel middle hlent hreturned hunread
  rw [← List.append_nil (lentDealings _ _ _ _)] at hsettles
  refine .of_settles hsettles ?_
  rw [hclean]
  refine (or_iff_left ?_).symm
  intro hcaught
  rcases hcaught with ⟨_, -, hmem, -⟩
  exact hnone _ hmem

/-- What becomes of the channel of an abandoned attempt is up to the late response. -/
theorem custody_late {late : Exchange.Trace} {e : ClientError}
    (h : (a.late id (Guard.fresh channel).sent).Course late (.done ())) :
    Custody a
      (a.lentDealings id channel
        [⟨a.writeAsk id channel, .ready (.ok ())⟩, ⟨a.readAsk channel, .late⟩,
          ⟨.drain (a.late id (Guard.fresh channel).sent), ()⟩])
      late (.failed e) := by
  rcases h.settled with ⟨middle, clean, rfl, hlent, hreturned, hunread, hclean⟩
  have hsettles := settles_lent a id channel
    (⟨a.writeAsk id channel, .ready (.ok ())⟩ :: ⟨a.readAsk channel, .late⟩ ::
      ⟨.drain (a.late id (Guard.fresh channel).sent), ()⟩ :: middle) hlent hreturned hunread
  have hunderstood : ¬ a.Understood channel
      (a.lentDealings id channel
        [⟨a.writeAsk id channel, .ready (.ok ())⟩, ⟨a.readAsk channel, .late⟩,
          ⟨.drain (a.late id (Guard.fresh channel).sent), ()⟩]) (.failed e) := by
    simp [Understood, lentDealings]
  refine .of_settles hsettles ?_
  rw [or_iff_right hunderstood, hclean]
  unfold Caught
  simp [lentDealings]

/-- What becomes of the channel after a response has been read is up to what it says. -/
theorem custody_heard {frame : Bytes} {first : Exchange.Trace}
    {judged : Except ClientError (Outcome op.Reply)} {clean : Bool}
    (hreading : a.Reading id channel frame first judged)
    (hlate : Trailed
      (a.lentDealings id channel
        (⟨a.writeAsk id channel, .ready (.ok ())⟩ :: ⟨a.readAsk channel, .ready (.ok frame)⟩ ::
          (first ++ [⟨.giveBack channel clean, ()⟩]))) late)
    (hclean : clean = true ↔ ∀ e, o = .failed e → e.poisonsChannel = false) :
    Custody a
      (a.lentDealings id channel
        (⟨a.writeAsk id channel, .ready (.ok ())⟩ :: ⟨a.readAsk channel, .ready (.ok frame)⟩ ::
          (first ++ [⟨.giveBack channel clean, ()⟩]))) late o := by
  refine custody_at_once
    (⟨a.writeAsk id channel, .ready (.ok ())⟩ :: ⟨a.readAsk channel, .ready (.ok frame)⟩ :: first)
    hreading.lendings_eq hreading.returns_eq (fun _ => hreading.foldl_backlog 0) ?_ hlate ?_
  · simp [hreading.not_drain]
  · rw [hclean]
    exact (and_iff_right ⟨frame, by simp [lentDealings]⟩).symm

theorem custody_of_using (h : a.Using id channel ds (.done o))
    (hlate : Trailed (a.lentDealings id channel ds) late)
    (hfaults : ∀ cache u refusal, ⟨.install cache u, .error refusal⟩ ∈ ds → refusal.IsFault) :
    Custody a (a.lentDealings id channel ds) late o := by
  generalize hstand : Program.Stand.done o = stand at h
  cases h with
  | writing => cases hstand
  | unwritten =>
      refine custody_at_once [⟨a.writeAsk id channel, .late⟩] rfl rfl nofun (by simp) hlate ?_
      simp [Understood, lentDealings]
  | rebuffed reason =>
      refine custody_at_once [⟨a.writeAsk id channel, .ready (.error reason)⟩] rfl rfl nofun
        (by simp) hlate ?_
      simp [Understood, lentDealings]
  | reading => cases hstand
  | abandoned =>
      cases hstand
      rcases hlate with ⟨-, hdrain⟩ | ⟨r, hdrain, hcourse⟩
      · exact absurd (by simp [lentDealings]) (hdrain (a.late id (Guard.fresh channel).sent))
      · have hr : r = a.late id (Guard.fresh channel).sent := by
          simpa [lentDealings] using hdrain
        subst hr
        exact custody_late hcourse
  | lost reason =>
      refine custody_at_once
        [⟨a.writeAsk id channel, .ready (.ok ())⟩, ⟨a.readAsk channel, .ready (.error reason)⟩]
        rfl rfl nofun (by simp) hlate ?_
      simp [Understood, lentDealings]
  | understood hreading =>
      cases hstand
      exact custody_heard hreading hlate (iff_of_true rfl hreading.trusted)
  | misread hreading =>
      cases hstand
      refine custody_heard hreading hlate (iff_of_false Bool.false_ne_true ?_)
      intro htrusted
      have hpoisons := hreading.untrusted fun cache u refusal hmem =>
        hfaults cache u refusal (by simp [hmem])
      exact Bool.false_ne_true ((htrusted _ rfl).symm.trans hpoisons)

theorem custody_of_course (h : a.Course ds (.done o)) (hlate : Trailed ds late)
    (hfaults : ∀ cache u refusal, ⟨.install cache u, .error refusal⟩ ∈ ds → refusal.IsFault) :
    Custody a ds late o := by
  cases h with
  | unlent id =>
      rcases hlate with ⟨rfl, -⟩ | ⟨r, hdrain, -⟩
      · exact .of_unlent rfl rfl
      · simp at hdrain
  | refused id e =>
      rcases hlate with ⟨rfl, -⟩ | ⟨r, hdrain, -⟩
      · exact .of_unlent rfl rfl
      · simp at hdrain
  | lent husing =>
      refine custody_of_using husing hlate ?_
      intro cache u refusal hmem
      exact hfaults cache u refusal (List.mem_cons_of_mem _ (List.mem_cons_of_mem _ hmem))

/-- What follows a run: nothing, or the wait for the late response that it has left. -/
def Followed (run late : Exchange.Trace) : Prop :=
  (late = [] ∧ ∀ r, ⟨.drain r, ()⟩ ∉ run) ∨
    ∃ r : LateResponse, ⟨.drain r, ()⟩ ∈ run ∧ Exchange.Reaches r.run late (.done ())

theorem Followed.trailed {run : Exchange.Trace} (h : Followed run late) :
    Trailed (dealings run) (dealings late) := by
  rcases h with ⟨rfl, hnone⟩ | ⟨r, hmem, hlate⟩
  · exact Or.inl ⟨rfl, fun r hmem => hnone r (mem_dealings.1 hmem).1⟩
  · exact Or.inr ⟨r, mem_dealings.2 ⟨hmem, rfl⟩, LateResponse.course_of_reaches hlate⟩

theorem custody_of_reaches {run : Exchange.Trace} (h : Exchange.Reaches a.run run (.done o))
    (hlate : Followed run late)
    (hfaults : ∀ cache u refusal, ⟨.install cache u, .error refusal⟩ ∈ run → refusal.IsFault) :
    Custody a run late o :=
  .of_dealings (custody_of_course (course_of_reaches h) hlate.trailed
    fun cache u refusal hmem => hfaults cache u refusal (mem_dealings.1 hmem).1)

end Attempt
end GridClient
