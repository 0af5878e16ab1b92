import GridClient.Proofs.Attempt.Answered

/-!
# The number of an attempt

An attempt draws one number, before anything else. Its frame is sent under this number, over
the channel that it has been lent, and it is completed only by a response that has the number.
-/

namespace GridClient
namespace Exchange

variable {α : Type}

def number? : Program.Event Answer → Option UInt64
  | ⟨.messageId, id⟩ => some id
  | _ => none

/-- The numbers that have been drawn, in order. -/
def numbers (trace : Trace) : List UInt64 :=
  trace.filterMap number?

theorem number?_record {e : Program.Event Answer} (h : e.ask.isRecord = true) :
    number? e = none := by
  rcases e with ⟨q, answer⟩
  cases q <;> first | rfl | cases h

theorem numbers_dealings (trace : Trace) : numbers (dealings trace) = numbers trace :=
  filterMap_dealings (fun _ => number?_record) trace

theorem numbers_append (first last : Trace) :
    numbers (first ++ last) = numbers first ++ numbers last :=
  List.filterMap_append

theorem mem_numbers {trace : Trace} {id : UInt64} :
    id ∈ numbers trace ↔ ⟨.messageId, id⟩ ∈ trace := by
  unfold numbers
  rw [List.mem_filterMap]
  constructor
  · intro hdrawn
    rcases hdrawn with ⟨⟨q, answer⟩, hmem, hid⟩
    cases q <;> cases hid
    exact hmem
  · intro hmem
    exact ⟨_, hmem, rfl⟩

theorem frames_dealings (trace : Trace) (stand : Stand α) :
    frames (dealings trace) stand = frames trace stand := by
  unfold dealings
  induction trace with
  | nil => rfl
  | cons e rest ih =>
      rcases e with ⟨q, answer⟩
      rw [frames_cons]
      cases hq : q.isRecord with
      | true =>
          have hframe : q.frame? = none := by cases q <;> first | rfl | cases hq
          rw [List.filter_cons_of_neg (by simp [hq]), ih, hframe]
          rfl
      | false => rw [List.filter_cons_of_pos (by simp [hq]), frames_cons, ih]

end Exchange

namespace Attempt

open Exchange

variable {op : OpCode} {a : Attempt op} {id : UInt64} {channel : Channel} {ds run : Exchange.Trace}
  {stand : Exchange.Stand (Outcome op.Reply)}

theorem Reading.numbers_eq {frame : Bytes} {judged : Except ClientError (Outcome op.Reply)}
    (h : a.Reading id channel frame ds judged) : numbers ds = [] := by
  cases h <;> rfl

theorem Reading.frames_eq {frame : Bytes} {judged : Except ClientError (Outcome op.Reply)}
    (h : a.Reading id channel frame ds judged) (clean : Bool) (o : Outcome op.Reply) :
    frames (ds ++ [⟨.giveBack channel clean, ()⟩]) (.done o) = [] := by
  cases h <;> rfl

theorem Using.numbers_eq (h : a.Using id channel ds stand) : numbers ds = [] := by
  cases h with
  | understood hreading =>
      exact (numbers_append _ _).trans (by rw [hreading.numbers_eq]; rfl)
  | misread hreading =>
      exact (numbers_append _ _).trans (by rw [hreading.numbers_eq]; rfl)
  | _ => rfl

/-- On the channel only the attempt's own frame is written. -/
theorem Using.frames_eq (h : a.Using id channel ds stand) :
    frames ds stand = [a.frame id channel.version] := by
  cases h with
  | understood hreading =>
      rw [frames_cons, frames_cons, hreading.frames_eq]
      rfl
  | misread hreading =>
      rw [frames_cons, frames_cons, hreading.frames_eq]
      rfl
  | _ => rfl

/-- An attempt draws one number, and its frame is sent under that number to its target. -/
theorem sent_of_reaches (h : Exchange.Reaches a.run run stand) :
    ∃ id, numbers run = [id] ∧ ∀ frame ∈ frames run stand,
      ∃ channel, ⟨.acquire a.target a.deadline, .ready (.ok channel)⟩ ∈ run ∧
        frame = a.frame id channel.version := by
  have hcourse := course_of_reaches h
  rw [← numbers_dealings, ← frames_dealings run]
  have hmem : ∀ e ∈ dealings run, e ∈ run := fun e he => (mem_dealings.1 he).1
  generalize dealings run = ds at hcourse hmem
  cases hcourse with
  | acquiring id => exact ⟨id, rfl, nofun⟩
  | unlent id => exact ⟨id, rfl, nofun⟩
  | refused id e => exact ⟨id, rfl, nofun⟩
  | @lent id channel rest stand husing =>
      refine ⟨id, congrArg (List.cons id) husing.numbers_eq, ?_⟩
      intro frame hframe
      rw [frames_cons, frames_cons, husing.frames_eq] at hframe
      exact ⟨channel, hmem _ (by simp), List.mem_singleton.1 hframe⟩

/-- An attempt is completed by a response that has been read. -/
theorem answered_of_completed {reply : op.Reply}
    (h : Exchange.Reaches a.run run (.done (.completed reply))) :
    ∃ channel header body, a.Answered channel run header body := by
  have hcourse := course_of_reaches h
  suffices h : ∃ channel header body, a.Answered channel (dealings run) header body by
    simpa only [answered_dealings] using h
  generalize dealings run = ds at hcourse
  generalize hstand : Program.Stand.done (Outcome.completed reply) = stand at hcourse
  cases hcourse with
  | acquiring id => cases hstand
  | unlent id => cases hstand
  | refused id e => split at hstand <;> cases hstand
  | @lent id channel rest stand husing =>
      cases husing with
      | @understood frame first o hreading =>
          cases hstand
          have hread : ∃ header body,
              (ResponseHeader.reader a.intelligence).run frame = (.ok header, body) ∧
                header.messageId = id := by
            generalize hjudged : Except.ok (Outcome.completed reply) = judged at hreading
            cases hreading with
            | garbled hread => cases hjudged
            | stray hread hid => cases hjudged
            | plain hread hid => exact ⟨_, _, hread, hid⟩
            | refused hread hid => cases hjudged
            | moved hread hid => cases hjudged
            | kept hread hid => exact ⟨_, _, hread, hid⟩
          rcases hread with ⟨header, body, hread, hid⟩
          exact ⟨channel, header, body, id, frame, by simp, by simp, by simp, hread, hid⟩
      | _ => cases hstand

end Attempt
end GridClient
