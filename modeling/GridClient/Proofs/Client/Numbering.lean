import GridClient.Proofs.Attempt.Numbers
import GridClient.Proofs.Attempt.Returned
import GridClient.Proofs.Call.Finality
import GridClient.Proofs.Client.Processing
import Mathlib.Data.List.Nodup

/-!
# How a client numbers its attempts

All attempts of one client draw their numbers from it, whichever cache and whichever operation
they are made for. As long as the numbers do not run out each attempt has one that no other
attempt has, so that a response is always for one attempt only.
-/

namespace GridClient

open Exchange

namespace Client

/-- A client answers what concerns it in a trace. In between other things may happen to it,
but no numbers are drawn. -/
inductive Tends : Client → Exchange.Trace → Client → Prop where
  | nil (c : Client) : Tends c [] c
  | meanwhile {c d e : Client} {trace : Exchange.Trace} (hnumber : d.nextId = c.nextId)
      (h : Tends d trace e) : Tends c trace e
  | answered {c e : Client} {q : Ask} {rest : Exchange.Trace} (h : Tends (answer q c).2 rest e) :
      Tends c (⟨q, (answer q c).1⟩ :: rest) e
  | foreign {c e : Client} {q : Ask} {given : Exchange.Answer q} {rest : Exchange.Trace}
      (hq : q.IsForeign) (h : Tends c rest e) : Tends c (⟨q, given⟩ :: rest) e

variable {c e : Client} {trace : Exchange.Trace}

/-- Only the drawing of a number changes the next one. -/
theorem nextId_answer {q : Ask} (hq : q ≠ .messageId) (c : Client) :
    (answer q c).2.nextId = c.nextId := by
  cases q with
  | messageId => exact absurd rfl hq
  | install cache u =>
      change (c.install cache u).2.nextId = c.nextId
      unfold install
      cases c.registry.apply cache u <;> rfl
  | _ => rfl

theorem numbers_cons_of_ne {q : Ask} (hq : q ≠ .messageId) (given : Exchange.Answer q)
    (rest : Exchange.Trace) : numbers (⟨q, given⟩ :: rest) = numbers rest := by
  cases q with
  | messageId => exact absurd rfl hq
  | _ => rfl

/-- The numbers that are drawn follow one another. -/
theorem Tends.numbers_eq (h : Tends c trace e) :
    numbers trace =
      (List.range (numbers trace).length).map fun k => c.nextId + UInt64.ofNat k := by
  induction h with
  | nil c => rfl
  | meanwhile hnumber h ih => rw [← hnumber, ← ih]
  | @answered c e q rest h ih =>
      by_cases hq : q = .messageId
      · subst hq
        have hcons : numbers (⟨.messageId, (answer .messageId c).1⟩ :: rest) =
            c.nextId :: numbers rest := rfl
        rw [hcons, List.length_cons, List.range_succ_eq_map, List.map_cons, List.map_map, ih,
          List.length_map, List.length_range]
        refine congrArg₂ List.cons (UInt64.add_zero _).symm (List.map_congr_left ?_)
        intro k hk
        change c.nextId + 1 + UInt64.ofNat k = c.nextId + UInt64.ofNat (k + 1)
        rw [UInt64.ofNat_add, UInt64.add_assoc, UInt64.add_comm 1]
        rfl
      · rw [numbers_cons_of_ne hq, ← nextId_answer hq c]
        exact ih
  | @foreign c e q given rest hq h ih =>
      have hne : q ≠ .messageId := by
        rintro rfl
        exact hq
      rw [numbers_cons_of_ne hne]
      exact ih

/-- As many numbers as there are can be drawn without a repetition. -/
theorem Tends.nodup_numbers (h : Tends c trace e) (hlength : (numbers trace).length ≤ UInt64.size) :
    (numbers trace).Nodup := by
  rw [h.numbers_eq]
  refine List.Nodup.map_on ?_ List.nodup_range
  intro k hk l hl heq
  rw [List.mem_range] at hk hl
  have hnat := congrArg UInt64.toNat ((UInt64.add_right_inj _).1 heq)
  rwa [UInt64.toNat_ofNat_of_lt' (Nat.lt_of_lt_of_le hk hlength),
    UInt64.toNat_ofNat_of_lt' (Nat.lt_of_lt_of_le hl hlength)] at hnat

end Client

/-!
# Attempts side by side
-/

/-- What may follow an attempt: the wait for its late response, however far it has come, or
the end of its guard if the attempt is dropped. -/
inductive Call.Effort.Trails (x : Call.Effort) : Exchange.Trace → Prop where
  | nothing : Trails x []
  | drained {r : LateResponse} {after : Exchange.Trace} {stand : Exchange.Stand Unit}
      (hdrain : ⟨.drain r, ()⟩ ∈ x.run) (h : Exchange.Reaches r.run after stand) : Trails x after
  | dropped {q : Exchange.Ask} {g : Guard} {after : Exchange.Trace} (hstand : x.stand = .waiting q)
      (hguard : q.guard? = some g) (h : Exchange.Reaches g.drop after (.done ())) : Trails x after

/-- Attempts that are made side by side, each of them as far as it has come. The log says what
was asked and answered under the place of each attempt. -/
structure SideBySide (efforts : List Call.Effort)
    (log : List (Nat × Program.Event Exchange.Answer)) : Prop where
  place_lt : ∀ entry ∈ log, entry.1 < efforts.length
  course : ∀ place x, efforts[place]? = some x →
    Exchange.Reaches x.attempt.run x.run x.stand ∧
      ∃ after, Program.traceUnder place log = x.run ++ after ∧ x.Trails after

theorem LateResponse.numbers_eq {r : LateResponse} {trace : Exchange.Trace}
    {stand : Exchange.Stand Unit} (h : Exchange.Reaches r.run trace stand) : numbers trace = [] := by
  have hcourse := LateResponse.course_of_reaches h
  rw [← numbers_dealings]
  generalize dealings trace = ds at hcourse
  cases hcourse <;> rfl

theorem Guard.numbers_drop {g : Guard} {trace : Exchange.Trace}
    (h : Exchange.Reaches g.drop trace (.done ())) : numbers trace = [] := by
  have hdeals := deals_of_reaches h
  rw [← numbers_dealings]
  unfold Guard.drop at hdeals
  split at hdeals
  · rw [(deals_discard_end.1 hdeals).1]
    rfl
  · rw [(deals_release_end.1 hdeals).1]
    rfl

/-- What follows an attempt draws no numbers. -/
theorem Call.Effort.Trails.numbers_eq {x : Call.Effort} {after : Exchange.Trace}
    (h : x.Trails after) : numbers after = [] := by
  cases h with
  | nothing => rfl
  | drained hdrain h => exact LateResponse.numbers_eq h
  | dropped hstand hguard h => exact Guard.numbers_drop h

namespace SideBySide

variable {efforts : List Call.Effort} {log : List (Nat × Program.Event Exchange.Answer)}
  {c e : Client}

theorem numbers_traceUnder (h : SideBySide efforts log) {place : Nat} {x : Call.Effort}
    (hx : efforts[place]? = some x) :
    numbers (Program.traceUnder place log) = numbers x.run := by
  rcases (h.course place x hx).2 with ⟨after, htrace, hafter⟩
  rw [htrace, numbers_append, hafter.numbers_eq, List.append_nil]

/-- All numbers that are drawn are drawn by the attempts. -/
theorem numbers_perm (h : SideBySide efforts log) :
    (efforts.flatMap fun x => numbers x.run).Perm (numbers (log.map Prod.snd)) := by
  have hperm := ((Program.flatMap_under_perm h.place_lt).map Prod.snd).filterMap number?
  rw [List.map_flatMap, List.filterMap_flatMap] at hperm
  refine List.Perm.trans (.of_eq ?_) hperm
  rw [List.flatMap_def, List.flatMap_def]
  refine congrArg List.flatten (List.ext_getElem (by simp) ?_)
  intro place hplace _
  rw [List.length_map] at hplace
  rw [List.getElem_map, List.getElem_map, List.getElem_range]
  exact (h.numbers_traceUnder (List.getElem?_eq_getElem hplace)).symm

theorem length_numbers (h : SideBySide efforts log) :
    (numbers (log.map Prod.snd)).length = efforts.length := by
  rw [← h.numbers_perm.length_eq, List.length_flatMap]
  have hone : efforts.map (fun x => (numbers x.run).length) = efforts.map fun _ => 1 := by
    refine List.map_congr_left fun x hx => ?_
    rcases List.getElem?_of_mem hx with ⟨place, hplace⟩
    rcases Attempt.sent_of_reaches (h.course place x hplace).1 with ⟨id, hid, -⟩
    rw [hid]
    rfl
  rw [hone]
  simp

theorem nodup_numbers (h : SideBySide efforts log) (hserved : c.Tends (log.map Prod.snd) e)
    (hlength : efforts.length ≤ UInt64.size) : (efforts.flatMap fun x => numbers x.run).Nodup := by
  rw [h.numbers_perm.nodup_iff]
  exact hserved.nodup_numbers (by rwa [h.length_numbers])

/-- A number tells which attempt has drawn it. -/
theorem place_eq (h : SideBySide efforts log) (hserved : c.Tends (log.map Prod.snd) e)
    (hlength : efforts.length ≤ UInt64.size) {place other : Nat} {x y : Call.Effort} {id : UInt64}
    (hx : efforts[place]? = some x) (hy : efforts[other]? = some y) (hid : id ∈ numbers x.run)
    (hid' : id ∈ numbers y.run) : other = place := by
  have hpairwise := (List.nodup_flatMap.1 (h.nodup_numbers hserved hlength)).2
  rw [List.pairwise_iff_getElem] at hpairwise
  rcases List.getElem?_eq_some_iff.1 hx with ⟨hplace, rfl⟩
  rcases List.getElem?_eq_some_iff.1 hy with ⟨hother, rfl⟩
  rcases Nat.lt_trichotomy other place with hlt | heq | hgt
  · exact absurd hid (hpairwise other place hother hplace hlt hid')
  · exact heq
  · exact absurd hid' (hpairwise place other hplace hother hgt hid)

end SideBySide

/-!
# Responses and attempts
-/

/-- Each of some attempts has its own number, under which it is sent and completed. -/
structure Numbered (efforts : List Call.Effort) : Prop where
  drawn : ∀ x ∈ efforts, ∃ id, numbers x.run = [id] ∧
    ∀ frame ∈ frames x.run x.stand, ∃ version, frame = x.attempt.frame id version
  distinct : (efforts.flatMap fun x => numbers x.run).Nodup
  /-- The response that completes an attempt has the number of no other one. -/
  own : ∀ (place : Nat) (x : Call.Effort) (reply : x.op.Reply), efforts[place]? = some x →
    x.stand = .done (.completed reply) →
      ∃ channel header body, x.attempt.Answered channel x.run header body ∧
        ∀ (other : Nat) (y : Call.Effort), efforts[other]? = some y →
          header.messageId ∈ numbers y.run → other = place

theorem SideBySide.numbered {efforts : List Call.Effort}
    {log : List (Nat × Program.Event Exchange.Answer)} {c e : Client}
    (h : SideBySide efforts log) (hserved : c.Tends (log.map Prod.snd) e)
    (hlength : efforts.length ≤ UInt64.size) : Numbered efforts := by
  constructor
  case drawn =>
    intro x hx
    rcases List.getElem?_of_mem hx with ⟨place, hplace⟩
    rcases Attempt.sent_of_reaches (h.course place x hplace).1 with ⟨id, hid, hsent⟩
    refine ⟨id, hid, ?_⟩
    intro frame hframe
    rcases hsent frame hframe with ⟨channel, -, rfl⟩
    exact ⟨channel.version, rfl⟩
  case distinct => exact h.nodup_numbers hserved hlength
  case own =>
    intro place x reply hx hstand
    have hrun := (h.course place x hx).1
    rw [hstand] at hrun
    rcases Attempt.answered_of_completed hrun with ⟨channel, header, body, hanswered⟩
    refine ⟨channel, header, body, hanswered, ?_⟩
    intro other y hy hnumber
    rcases hanswered with ⟨id, frame, hdrawn, -, -, -, rfl⟩
    exact h.place_eq hserved hlength hx hy (mem_numbers.2 hdrawn) hnumber

/-- A response has its topology offered if it has the number of the request for which it is
processed, and changes nothing else, in time as well as late. Of all the attempts of a client,
whatever they are for, it can have the number of one only. -/
theorem responses_confined :
    (∀ (c : Client) (op : OpCode) (a : Attempt op) (id : UInt64) (g g' g'' : Guard)
      (frame : Bytes),
      c.registry.Heard a.intelligence a.cache id frame
          (c.after (a.conclude id g frame)).registry ∧
        (c.after ((a.late id g').take g'' frame)).registry =
          (c.after (a.conclude id g frame)).registry) ∧
      ∀ (efforts : List Call.Effort) (log : List (Nat × Program.Event Exchange.Answer))
        (c e : Client), SideBySide efforts log → c.Tends (log.map Prod.snd) e →
          efforts.length ≤ UInt64.size → Numbered efforts := by
  constructor
  · intro c op a id g g' g'' frame
    rw [Client.registry_conclude, Client.registry_take]
    exact ⟨c.heard_hear a.intelligence a.cache id frame, rfl⟩
  · exact fun efforts log c e h hserved hlength => h.numbered hserved hlength

/-- A put that is completed and a ping that has been given up, with the wait for its late
response. -/
def pairedEfforts : List Call.Effort :=
  [⟨.put, Request.movedAttempt, Request.movedRun, .done (.completed none)⟩,
    ⟨.ping, Attempt.lonePing, Attempt.lonePing.abandonedRun 2 Attempt.loneChannel,
      .done (.failed (Attempt.lonePing.overrun .awaiting))⟩]

/-- The response that the ping has left behind. -/
def pairedPong : LateResponse :=
  Attempt.lonePing.late 2 (Guard.fresh Attempt.loneChannel).sent

/-- The put draws its number first and goes on when the ping has ended. -/
def pairedLog : List (Nat × Program.Event Exchange.Answer) :=
  (Request.movedRun.take 1).map (Prod.mk 0) ++
    (Attempt.lonePing.abandonedRun 2 Attempt.loneChannel ++
      pairedPong.caughtRun [0xA1, 2, 0x18, 0, 0]).map (Prod.mk 1) ++
        (Request.movedRun.drop 1).map (Prod.mk 0)

theorem sideBySide_pairedLog : SideBySide pairedEfforts pairedLog := by
  constructor
  case place_lt => decide
  case course =>
    intro place x hx
    rcases place with _ | _ | place
    · cases hx
      exact ⟨Request.reaches_movedRun, [], rfl, .nothing⟩
    · cases hx
      have hpong : Exchange.Reaches pairedPong.run (pairedPong.caughtRun [0xA1, 2, 0x18, 0, 0])
          (.done ()) :=
        LateResponse.reaches_caughtRun (h := ⟨2, 0x18, ⟨0⟩, none⟩) rfl rfl rfl
      refine ⟨Attempt.reaches_abandonedRun _ _ _, _, rfl, .drained ?_ hpong⟩
      simp [Attempt.abandonedRun, pairedPong]
    · cases hx

theorem tends_pairedLog : ∃ e, Request.movedClient.Tends (pairedLog.map Prod.snd) e :=
  ⟨_, .answered (.answered (.foreign trivial (.answered (.foreign trivial (.answered (.answered
    (.foreign trivial (.answered (.answered (.answered (.answered (.answered (.foreign trivial
      (.answered (.answered (.foreign trivial (.answered (.foreign trivial (.answered (.answered
        (.foreign trivial (.answered (.answered (.answered (.answered (.answered
          (.answered (.nil _))))))))))))))))))))))))))))⟩

theorem responses_confined_paired :
    SideBySide pairedEfforts pairedLog ∧
      (∃ e, Request.movedClient.Tends (pairedLog.map Prod.snd) e) ∧
        pairedEfforts.length ≤ UInt64.size ∧ Numbered pairedEfforts := by
  rcases tends_pairedLog with ⟨e, hserved⟩
  have hlength : pairedEfforts.length ≤ UInt64.size := by decide
  exact ⟨sideBySide_pairedLog, ⟨e, hserved⟩, hlength,
    responses_confined.2 pairedEfforts pairedLog _ e sideBySide_pairedLog hserved hlength⟩

end GridClient
