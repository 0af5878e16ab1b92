import GridClient.Call.Binding
import GridClient.Proofs.Program.History
import GridClient.Proofs.Scan.Moves
import GridClient.Proofs.Scan.Plan
import GridClient.Proofs.Scan.Played

/-!
# What becomes of cursors

A server keeps a cursor until it is told that the iteration is over. A scan holds one cursor at a
time: from the answer that opens it until the scan issues its end, or until the node cannot be
reached any more. So all cursors that were opened and not lost have been ended once the scan is
gone, each of them once.
-/

namespace GridClient
namespace Scan

/-!
# Calls for pages
-/

def cursor? (s : Scan) : Option Cursor :=
  s.active.map ActiveIteration.cursor

theorem cursor?_of_active {s : Scan} {a : ActiveIteration} (ha : s.active = some a) :
    s.cursor? = some a.cursor :=
  congrArg (Option.map ActiveIteration.cursor) ha

theorem cursor?_of_idle {s : Scan} (ha : s.active = none) : s.cursor? = none :=
  congrArg (Option.map ActiveIteration.cursor) ha

theorem cursor?_congr {s t : Scan} (h : s.active = t.active) : s.cursor? = t.cursor? :=
  congrArg (Option.map ActiveIteration.cursor) h

/-- The program leaves behind a scan that holds the cursor which is held then. -/
def Retains {α : Type} (s : Scan) (p : Paging α) (after : α → Scan) : Prop :=
  Handles s.cursor? p fun a later => later = (after a).cursor?

/-- Of the scan only its cursor matters. -/
theorem Retains.of_cursor {α : Type} {s t : Scan} {p : Paging α} {after : α → Scan}
    (h : Retains t p after) (heq : t.cursor? = s.cursor?) : Retains s p after := by
  unfold Retains at *
  rw [← heq]
  exact h

theorem handles_endActive (s : Scan) :
    Handles s.cursor? s.endActive fun t later => t = s.idle ∧ later = none := by
  unfold endActive cursor?
  cases ha : s.active with
  | none =>
      have hidle : s = s.idle := by
        unfold idle
        rw [← ha]
      exact .pure ⟨hidle, rfl⟩
  | some a =>
      apply Handles.note
      apply (handles_execute_end _ a.cursor).bind
      rintro result later rfl
      exact .pure ⟨rfl, rfl⟩

theorem handles_accept (held : Option Cursor) (s : Scan) (page : Page) (group : Option SegmentSet) :
    Handles held (s.accept page group) fun r later => later = held ∧ r.2.active = s.active := by
  unfold accept
  dsimp only
  split
  · exact .record (.pure ⟨rfl, rfl⟩)
  · exact .pure ⟨rfl, rfl⟩

theorem cursor?_replan (s : Scan) (t : Topology) : (s.replan t).cursor? = s.cursor? :=
  cursor?_congr (plans_replan s t).active_eq

theorem active_completeGroup (s : Scan) (group : Option SegmentSet) :
    (s.completeGroup group).active = s.active := by
  unfold completeGroup
  split <;> rfl

theorem retains_recover (s : Scan) (cause : String) (refresh : Bool) :
    Retains s (s.recover cause refresh) Prod.snd := by
  unfold recover Retains
  apply Handles.topology
  intro t
  apply Handles.record
  dsimp only
  split
  · exact .pure rfl
  · apply Handles.note
    apply (handles_endActive _).bind
    rintro u later ⟨rfl, rfl⟩
    cases refresh with
    | false =>
        apply Handles.topology
        intro v
        exact .pure (cursor?_replan (idle _) v).symm
    | true =>
        apply Handles.now
        intro time
        apply Handles.refresh
        apply Handles.topology
        intro v
        exact .pure (cursor?_replan (idle _) v).symm

theorem scan_ofRecovery (r : Except ClientError Unit × Scan) : (Turn.ofRecovery r).scan = r.2 := by
  rcases r with ⟨result, s⟩
  cases result <;> rfl

theorem retains_ofRecovery (s : Scan) (cause : String) (refresh : Bool) :
    Retains s (s.recover cause refresh >>= fun after => pure (Turn.ofRecovery after))
      Turn.scan := by
  apply (retains_recover s cause refresh).bind
  rintro after later rfl
  apply Handles.pure
  rw [scan_ofRecovery]

theorem retains_pull (s : Scan) (a : ActiveIteration) (ha : s.cursor? = some a.cursor) :
    Retains s (s.pull a) Turn.scan := by
  unfold Retains pull Request.bind deadline
  rw [ha]
  simp only [Program.bind_bind, Program.pure_bind]
  apply Handles.note
  apply Handles.topology
  intro t
  apply Handles.now
  intro time
  apply Handles.pull
  · intro e
    exact retains_ofRecovery { s with active := none } _ _
  · intro o ho
    cases o with
    | retryConnectivity e => exact absurd rfl (ho e)
    | retryTopology =>
        have h := retains_ofRecovery s "topology" false
        unfold Retains at h
        rw [ha] at h
        exact h
    | failed e =>
        have h := handles_endActive s
        rw [ha] at h
        apply h.bind
        rintro u later ⟨rfl, rfl⟩
        exact .pure rfl
    | completed page =>
        dsimp only
        split
        · apply (handles_accept _ _ page a.segments).bind
          rintro after later ⟨rfl, hactive⟩
          apply Handles.note
          apply (handles_execute_end _ a.cursor).bind
          rintro result later rfl
          have hidle := (active_completeGroup after.2 a.segments).trans hactive
          exact .pure (cursor?_of_idle hidle).symm
        · apply (handles_accept _ _ page a.segments).bind
          rintro after later ⟨rfl, hactive⟩
          have hheld : after.2.cursor? = some a.cursor := (cursor?_congr hactive).trans ha
          split
          · exact .pure hheld.symm
          · exact .pure hheld.symm

theorem retains_begin (s : Scan) (g : ScanGroup) (ha : s.cursor? = none) :
    Retains s (s.begin g) Turn.scan := by
  unfold Retains begin
  rw [ha]
  apply Handles.note
  apply (handles_execute_start s (s.startOf g)).bind
  rintro result later rfl
  cases result with
  | error e => exact .pure ha.symm
  | ok c =>
      exact retains_pull { s with active := some { cursor := c, segments := g.segments } } _ rfl

theorem retains_proceed (s : Scan) : Retains s s.proceed Turn.scan := by
  unfold proceed
  split
  · next plan a ha =>
    exact retains_pull s a (cursor?_of_active ha)
  · next g rest ha hplan =>
    exact retains_begin { s with plan := rest } g (cursor?_of_idle ha)
  · exact .pure rfl

theorem retains_turn (s : Scan) : Retains s s.turn Turn.scan := by
  unfold turn
  split
  · exact .pure rfl
  · apply Handles.topology
    intro t
    exact (retains_proceed { s.replan t with state := .running }).of_cursor (cursor?_replan s t)
  · exact retains_proceed s

theorem retains_nextPage (turns : Nat) (s : Scan) : Retains s (nextPage turns s) Prod.snd := by
  induction turns generalizing s with
  | zero => exact .pure rfl
  | succ turns ih =>
      apply (retains_turn s).bind
      rintro turn later rfl
      cases turn with
      | result r t => exact .pure rfl
      | again t => exact ih t

theorem retains_close (s : Scan) : Retains s s.close id := by
  apply (handles_endActive s).bind
  rintro t later ⟨rfl, rfl⟩
  exact .pure rfl

/-!
# The whole life
-/

/-- What a call was waiting for when it ended. -/
def Ending.awaited : Ending → Option (Call.Ask Scan)
  | returned _ => none
  | dropped q => some q

def Called.moves (c : Called) : List Move :=
  Move.upTo true c.trace c.ending.awaited

def moves (history : List Called) : List Move :=
  history.flatMap Called.moves

/-- What a scan does about cursors when it is dropped inside a runtime. The request that ends its
iteration is carried out in the background and may still be under way. -/
inductive Drops (s : Scan) : List Move → Prop where
  | idle {t : Topology} (h : s.farewell t = none) : Drops s []
  | ending {t : Topology} {r : Request .iterationEnd} {trace : Trace}
      {stand : Stand (Except ClientError Bool)} (h : s.farewell t = some r)
      (hrun : Call.Reaches r.execute trace stand) : Drops s (Move.upTo true trace stand.awaited)

/-- What a scan does about cursors when it is closed or just dropped. Whoever closes it drops it
afterwards. -/
inductive Finishes (s : Scan) : List Move → Prop where
  | dropped {last : List Move} (h : Drops s last) : Finishes s last
  | closed {t : Scan} {trace : Trace} {last : List Move}
      (hclose : Call.Reaches s.close trace (.done t)) (h : Drops t last) :
      Finishes s (Move.upTo true trace none ++ last)

theorem moves_concat (history : List Called) (c : Called) :
    moves (history ++ [c]) = moves history ++ c.moves := by
  simp [moves]

theorem tenure_of_lives {start s : Scan} {history : List Called} (h : Lives start history s)
    (hreturns : ∀ c ∈ history, c.Returns) : Tenure start.cursor? (moves history) s.cursor? := by
  induction h with
  | fresh => exact .nil _
  | @page history s t turns trace r hlife hcall ih =>
      rw [List.forall_mem_append] at hreturns
      rcases retains_nextPage turns s true trace _ hcall with ⟨later, hmoves, rfl⟩
      rw [moves_concat]
      exact tenure_append.2 ⟨s.cursor?, ih hreturns.1, hmoves⟩
  | @drop history s turns trace q hlife hcall ih =>
      rcases hreturns _ (List.mem_append_right _ List.mem_cons_self) with ⟨r, hr⟩
      cases hr

theorem Drops.tenure {s : Scan} {last : List Move} (h : Drops s last) :
    Tenure s.cursor? last none := by
  cases h with
  | idle h =>
      rw [cursor?_of_idle (Option.map_eq_none_iff.1 h)]
      exact .nil none
  | @ending t r trace stand h hrun =>
      rcases Option.map_eq_some_iff.1 h with ⟨a, ha, rfl⟩
      rw [moves_of_execute hrun, cursor?_of_active ha]
      exact .cons (.ended a.cursor) (.nil none)

theorem Finishes.tenure {s : Scan} {last : List Move} (h : Finishes s last) :
    Tenure s.cursor? last none := by
  cases h with
  | dropped h => exact h.tenure
  | @closed t trace last hclose h =>
      rcases retains_close s true trace t hclose with ⟨later, hmoves, rfl⟩
      exact tenure_append.2 ⟨t.cursor?, hmoves, h.tenure⟩

/-!
# No cursor is forgotten
-/

/-- The cursor has been opened, and it has been neither ended nor lost since. -/
def Held (c : Cursor) (happened : List Move) : Prop :=
  Since (fun x => x = .opened c) (fun x => x = .ended c ∨ x = .lost c) happened

/-- No iteration is started while a cursor is held, so one is held at a time. A cursor is asked
for pages, ended or lost only while it is held, so once it has been ended or lost none of these
follows unless a server opens it anew. From its opening it is asked for pages until it is ended or
lost, and in the end none is held. -/
structure Accounted (happened : List Move) : Prop where
  free : ∀ before x after, happened = before ++ x :: after →
    (x = .starting ∨ ∃ c, x = .opened c) → ∀ c, ¬ Held c before
  alone : ∀ before after, happened = before ++ after →
    ∀ b c, Held b before → Held c before → b = c
  used : ∀ before x after c, happened = before ++ x :: after →
    (x = .asked c ∨ x = .ended c ∨ x = .lost c) → Held c before
  settled : ∀ before c after, happened = before ++ .opened c :: after →
    ∃ n x rest, after = List.replicate n (.asked c) ++ x :: rest ∧ (x = .ended c ∨ x = .lost c)
  none_left : ∀ c, ¬ Held c happened

theorem tenure_concat {held last : Option Cursor} {happened : List Move} {x : Move} :
    Tenure held (happened ++ [x]) last ↔
      ∃ later, Tenure held happened later ∧ x.Leads later last := by
  rw [tenure_append]
  constructor
  · rintro ⟨later, hfirst, hx⟩
    cases hx with
    | cons hx hrest =>
        cases hrest
        exact ⟨later, hfirst, hx⟩
  · rintro ⟨later, hfirst, hx⟩
    exact ⟨later, hfirst, .cons hx (.nil last)⟩

theorem held_iff_of_tenure {happened : List Move} {held : Option Cursor}
    (h : Tenure none happened held) (c : Cursor) : Held c happened ↔ held = some c := by
  induction happened using List.reverseRecOn generalizing held with
  | nil =>
      cases h
      constructor
      · intro hheld
        exact absurd hheld not_since_nil
      · intro hheld
        cases hheld
  | append_singleton happened x ih =>
      rcases tenure_concat.1 h with ⟨later, hbefore, hx⟩
      have ih := ih hbefore
      unfold Held at *
      rw [since_concat, ih]
      cases hx <;> simp

/-- A held cursor is asked for pages until it is ended or lost. -/
theorem settled_of_tenure {c : Cursor} {after : List Move} (h : Tenure (some c) after none) :
    ∃ n x rest, after = List.replicate n (.asked c) ++ x :: rest ∧
      (x = .ended c ∨ x = .lost c) := by
  induction after with
  | nil => cases h
  | cons x rest ih =>
      cases h with
      | cons hx hrest =>
          cases hx with
          | asked =>
              rcases ih hrest with ⟨n, closing, later, rfl, hclosing⟩
              exact ⟨n + 1, closing, later, rfl, hclosing⟩
          | lost => exact ⟨0, .lost c, rest, rfl, .inr rfl⟩
          | ended => exact ⟨0, .ended c, rest, rfl, .inl rfl⟩

theorem Tenure.accounted {happened : List Move} (h : Tenure none happened none) :
    Accounted happened := by
  have hstep : ∀ before x after, happened = before ++ x :: after →
      ∃ held later, (∀ c, Held c before ↔ held = some c) ∧ x.Leads held later ∧
        Tenure later after none := by
    rintro before x after rfl
    rcases tenure_append.1 h with ⟨held, hbefore, hrest⟩
    cases hrest with
    | cons hx hafter => exact ⟨held, _, held_iff_of_tenure hbefore, hx, hafter⟩
  constructor
  case free =>
    intro before x after heq hx c hheld
    rcases hstep before x after heq with ⟨held, later, hiff, hleads, -⟩
    rw [hiff c] at hheld
    rcases hx with rfl | ⟨d, rfl⟩ <;> cases hleads <;> cases hheld
  case alone =>
    rintro before after rfl b c hb hc
    rcases tenure_append.1 h with ⟨held, hbefore, -⟩
    rw [held_iff_of_tenure hbefore] at hb hc
    exact Option.some.inj (hb.symm.trans hc)
  case used =>
    intro before x after c heq hx
    rcases hstep before x after heq with ⟨held, later, hiff, hleads, -⟩
    rw [hiff c]
    rcases hx with rfl | rfl | rfl <;> cases hleads <;> rfl
  case settled =>
    intro before c after heq
    rcases hstep before _ after heq with ⟨held, later, -, hleads, hafter⟩
    cases hleads
    exact settled_of_tenure hafter
  case none_left =>
    intro c hheld
    rw [held_iff_of_tenure h] at hheld
    cases hheld

/-- Whatever the calls for pages are answered, once a scan is closed or dropped each cursor that
was opened has been ended once, or lost, and it has not been used after that. -/
theorem cursors_accounted {cache : RemoteCache} {flags : Flags} {options : ScanOptions} {s : Scan}
    {history : List Called} {last : List Move} (hlife : Lives { cache, flags, options } history s)
    (hreturns : ∀ c ∈ history, c.Returns) (hlast : Finishes s last) :
    Accounted (moves history ++ last) := by
  apply Tenure.accounted
  exact tenure_append.2 ⟨s.cursor?, tenure_of_lives hlife hreturns, hlast.tenure⟩

/-- The end of the iteration that a dropped scan has left behind is issued. -/
theorem finishes_of_active {s : Scan} {a : ActiveIteration} (ha : s.active = some a) :
    Finishes s [.ended a.cursor] := by
  let r : Request .iterationEnd :=
    { cache := s.cache, operation := .iterationEnd a.cursor, flags := s.flags,
      topology := loneTopology }
  have hfarewell : s.farewell loneTopology = some r := by
    unfold farewell
    rw [ha]
    rfl
  have hrun : Call.Reaches r.execute _ _ :=
    Program.reaches_play Answers.answer r.execute { topologies := [] }
  have hmoves : Move.upTo true _ _ = [.ended a.cursor] := moves_of_execute hrun
  rw [← hmoves]
  exact .dropped (.ending hfarewell hrun)

/-- The topology changes under the first cursor and the node of the second one gets lost. -/
def changeAndLoss : Answers where
  topologies := [loneTopology]
  starts := [.completed (loneCursor "x"), .completed (loneCursor "y"),
    .completed (loneCursor "z")]
  pages := [.retryTopology, .completed ⟨[], [loneEntry 1]⟩, .retryConnectivity (.transport "reset"),
    .completed ⟨[], [loneEntry 2]⟩]

theorem cursors_accounted_changeAndLoss :
    moves (played 5 (loneScan none) changeAndLoss 2).1 =
        [.starting, .opened (loneCursor "x"), .asked (loneCursor "x"), .ended (loneCursor "x"),
          .starting, .opened (loneCursor "y"), .asked (loneCursor "y"), .asked (loneCursor "y"),
          .lost (loneCursor "y"), .starting, .opened (loneCursor "z"), .asked (loneCursor "z")] ∧
      Accounted (moves (played 5 (loneScan none) changeAndLoss 2).1 ++
        [.ended (loneCursor "z")]) := by
  have hactive : (played 5 (loneScan none) changeAndLoss 2).2.1.active =
      some { cursor := loneCursor "z", segments := some (.below 2) } := by decide +kernel
  refine ⟨by decide +kernel, ?_⟩
  exact cursors_accounted (lives_played 5 (loneScan none) changeAndLoss 2)
    (returns_played 5 (loneScan none) changeAndLoss 2) (finishes_of_active hactive)

end Scan
end GridClient
