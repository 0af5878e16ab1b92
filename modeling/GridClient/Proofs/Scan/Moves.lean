import GridClient.Proofs.Scan.Turn

/-!
# Moves about cursors

What a scan and its servers do about cursors can be read off a run. The moves of a program lead
from the cursor that is held before it to the one that is held after it; there is a rule for each
way to build up a program.
-/

namespace GridClient

/-- What is waited for at a stand. -/
def Program.Stand.awaited {Ask α : Type} : Stand Ask α → Option Ask
  | done _ => none
  | waiting q => some q

namespace Scan

/-!
# Moves
-/

/-- What a scan and its servers do about cursors. -/
inductive Move where
  | starting
  | opened (c : Cursor)
  | asked (c : Cursor)
  | lost (c : Cursor)
  | ended (c : Cursor)
  deriving DecidableEq

def endedCursor : Operation .iterationEnd → Cursor
  | .iterationEnd c => c

namespace Move

/-- The end of an iteration is issued with the first attempt at it. -/
def asking (anew : Bool) : Call.Ask Scan → List Move
  | @Call.Ask.attempt _ .iterationStart _ => [starting]
  | @Call.Ask.attempt _ .iterationNext a => [asked (pulledCursor a.operation)]
  | @Call.Ask.attempt _ .iterationEnd a => if anew then [ended (endedCursor a.operation)] else []
  | _ => []

/-- A cursor is lost if a page of it is asked for and its node cannot be reached. -/
def answering : Event → List Move
  | ⟨@Call.Ask.attempt _ .iterationStart _, .completed c⟩ => [opened c]
  | ⟨@Call.Ask.attempt _ .iterationNext a, .retryConnectivity _⟩ =>
      [lost (pulledCursor a.operation)]
  | _ => []

/-- Whether the next attempt at the end of an iteration is a first one. Those that repeat it follow
the record of a retry. A retry may also be recorded after the last attempt; what comes then is a
new operation, which reads the clock. -/
def issuing (anew : Bool) : Call.Ask Scan → Bool
  | .now => true
  | .record (.retry op _) => if op = OpCode.iterationEnd.name then false else anew
  | @Call.Ask.attempt _ .iterationEnd _ => true
  | _ => anew

/-- The moves of a run. What is waited for at its end has been asked. -/
def upTo : Bool → Trace → Option (Call.Ask Scan) → List Move
  | _, [], none => []
  | anew, [], some q => asking anew q
  | anew, e :: rest, awaited =>
      asking anew e.ask ++ (answering e ++ upTo (issuing anew e.ask) rest awaited)

theorem upTo_append (anew : Bool) (first rest : Trace) (awaited : Option (Call.Ask Scan)) :
    ∃ later,
      upTo anew (first ++ rest) awaited = upTo anew first none ++ upTo later rest awaited := by
  induction first generalizing anew with
  | nil => exact ⟨anew, rfl⟩
  | cons e first ih =>
      rcases ih (issuing anew e.ask) with ⟨later, heq⟩
      refine ⟨later, ?_⟩
      rw [List.cons_append, upTo, upTo, heq, List.append_assoc, List.append_assoc]

/-- What a move does to the cursor that is held. -/
inductive Leads : Option Cursor → Move → Option Cursor → Prop where
  | starting : Leads none starting none
  | opened (c : Cursor) : Leads none (opened c) (some c)
  | asked (c : Cursor) : Leads (some c) (asked c) (some c)
  | lost (c : Cursor) : Leads (some c) (lost c) none
  | ended (c : Cursor) : Leads (some c) (ended c) none

end Move

/-- Moves that hold no cursor beside another, and use none but the one that is held. -/
inductive Tenure : Option Cursor → List Move → Option Cursor → Prop where
  | nil (held : Option Cursor) : Tenure held [] held
  | cons {held later last : Option Cursor} {x : Move} {moves : List Move}
      (h : x.Leads held later) (hrest : Tenure later moves last) : Tenure held (x :: moves) last

theorem tenure_append {held last : Option Cursor} {first rest : List Move} :
    Tenure held (first ++ rest) last ↔
      ∃ later, Tenure held first later ∧ Tenure later rest last := by
  induction first generalizing held with
  | nil =>
      constructor
      · intro h
        exact ⟨held, .nil held, h⟩
      · rintro ⟨later, hfirst, hrest⟩
        cases hfirst
        exact hrest
  | cons x first ih =>
      constructor
      · intro h
        cases h with
        | cons hx h =>
            rcases ih.1 h with ⟨later, hfirst, hrest⟩
            exact ⟨later, .cons hx hfirst, hrest⟩
      · rintro ⟨later, hfirst, hrest⟩
        cases hfirst with
        | cons hx hfirst => exact .cons hx (ih.2 ⟨later, hfirst, hrest⟩)

/-!
# Programs that keep track of the cursor
-/

/-- Whenever the program ends, its moves have led from the cursor that was held to one that fits
its result. -/
def Handles {α : Type} (held : Option Cursor) (p : Paging α) (post : α → Option Cursor → Prop) :
    Prop :=
  ∀ anew trace a, Call.Reaches p trace (.done a) →
    ∃ later, Tenure held (Move.upTo anew trace none) later ∧ post a later

/-- The ask has nothing to do with cursors. -/
structure Quiet (q : Call.Ask Scan) : Prop where
  asking : ∀ anew, Move.asking anew q = []
  answering : ∀ answer, Move.answering ⟨q, answer⟩ = []

theorem quiet_now : Quiet .now :=
  ⟨fun _ => rfl, fun _ => rfl⟩

theorem quiet_topology (cache : Bytes) : Quiet (.topology cache) :=
  ⟨fun _ => rfl, fun _ => rfl⟩

theorem quiet_record (m : Measurement) : Quiet (.record m) :=
  ⟨fun _ => rfl, fun _ => rfl⟩

theorem quiet_note (s : Scan) : Quiet (.note s) :=
  ⟨fun _ => rfl, fun _ => rfl⟩

theorem quiet_ping (a : Attempt .ping) : Quiet (.attempt a) :=
  ⟨fun _ => rfl, fun _ => rfl⟩

section Handling

variable {α β : Type} {held : Option Cursor} {post : α → Option Cursor → Prop}

theorem Handles.pure {a : α} (h : post a held) : Handles held (pure a) post := by
  intro anew trace b hrun
  rcases Program.reaches_pure.1 hrun with ⟨rfl, hstand⟩
  cases hstand
  exact ⟨held, .nil held, h⟩

theorem Handles.bind {p : Paging β} {f : β → Paging α} {mid : β → Option Cursor → Prop}
    (hp : Handles held p mid) (hf : ∀ b later, mid b later → Handles later (f b) post) :
    Handles held (p >>= f) post := by
  intro anew trace a hrun
  rcases Program.reaches_bind.1 hrun with ⟨q, -, hstand⟩ | ⟨first, b, rest, rfl, hfirst, hrest⟩
  · cases hstand
  · rcases hp anew first b hfirst with ⟨later, hmoves, hmid⟩
    rcases Move.upTo_append anew first rest none with ⟨clock, heq⟩
    rcases hf b later hmid clock rest a hrest with ⟨last, hlast, hpost⟩
    rw [heq]
    exact ⟨last, tenure_append.2 ⟨later, hmoves, hlast⟩, hpost⟩

/-- An ask and its answer, and then what comes of it. -/
theorem Handles.ask {q : Call.Ask Scan} {next : Call.Answer Scan q → Paging α}
    (h : ∀ answer, ∃ later,
      (∀ anew, Tenure held (Move.asking anew q ++ Move.answering ⟨q, answer⟩) later) ∧
        Handles later (next answer) post) : Handles held (.ask q next) post := by
  intro anew trace a hrun
  rcases Program.reaches_ask.1 hrun with ⟨-, -, hstand⟩ | ⟨answer, rest, rfl, hrest⟩
  · cases hstand
  · rcases h answer with ⟨later, hmoves, hnext⟩
    rcases hnext (Move.issuing anew q) rest a hrest with ⟨last, hlast, hpost⟩
    refine ⟨last, ?_, hpost⟩
    rw [Move.upTo, ← List.append_assoc]
    exact tenure_append.2 ⟨later, hmoves anew, hlast⟩

theorem Handles.quietly {q : Call.Ask Scan} {next : Call.Answer Scan q → Paging α} (hq : Quiet q)
    (h : ∀ answer, Handles held (next answer) post) : Handles held (.ask q next) post := by
  apply Handles.ask
  intro answer
  refine ⟨held, ?_, h answer⟩
  intro anew
  rw [hq.asking, hq.answering]
  exact .nil held

theorem Handles.topology {cache : Bytes} {next : Topology → Paging α}
    (h : ∀ t, Handles held (next t) post) : Handles held (Call.topology cache >>= next) post :=
  Handles.quietly (quiet_topology cache) h

theorem Handles.now {next : Instant → Paging α} (h : ∀ time, Handles held (next time) post) :
    Handles held (Call.now >>= next) post :=
  Handles.quietly quiet_now h

theorem Handles.record {m : Measurement} {next : Unit → Paging α}
    (h : Handles held (next ()) post) : Handles held (Call.record m >>= next) post :=
  Handles.quietly (quiet_record m) fun _ => h

theorem Handles.note {s : Scan} {next : Unit → Paging α} (h : Handles held (next ()) post) :
    Handles held (Call.note s >>= next) post :=
  Handles.quietly (quiet_note s) fun _ => h

theorem Handles.refresh {cache : RemoteCache} {deadline : Instant} {next : Unit → Paging α}
    (h : Handles held (next ()) post) : Handles held (cache.refresh deadline >>= next) post := by
  unfold RemoteCache.refresh Request.bind
  simp only [Program.bind_bind, Program.pure_bind]
  apply Handles.topology
  intro t
  exact Handles.quietly (quiet_ping _) fun _ => h

/-- An iteration is started while none is held. -/
theorem Handles.start {a : Attempt .iterationStart} {next : Outcome Cursor → Paging α}
    (hopened : ∀ c, Handles (some c) (next (.completed c)) post)
    (hother : ∀ o, (∀ c, o ≠ .completed c) → Handles none (next o) post) :
    Handles none (Call.attempt a >>= next) post := by
  apply Handles.ask
  intro o
  cases o with
  | completed c =>
      refine ⟨some c, ?_, hopened c⟩
      intro anew
      exact .cons .starting (.cons (.opened c) (.nil _))
  | _ =>
      refine ⟨none, ?_, hother _ nofun⟩
      intro anew
      exact .cons .starting (.nil _)

/-- A page is asked for of the cursor that is held, which may get lost by that. -/
theorem Handles.pull {a : Attempt .iterationNext} {next : Outcome Page → Paging α}
    (hlost : ∀ e, Handles none (next (.retryConnectivity e)) post)
    (hother : ∀ o, (∀ e, o ≠ .retryConnectivity e) →
      Handles (some (pulledCursor a.operation)) (next o) post) :
    Handles (some (pulledCursor a.operation)) (Call.attempt a >>= next) post := by
  apply Handles.ask
  intro o
  cases o with
  | retryConnectivity e =>
      refine ⟨none, ?_, hlost e⟩
      intro anew
      exact .cons (.asked _) (.cons (.lost _) (.nil _))
  | _ =>
      refine ⟨some (pulledCursor a.operation), ?_, hother _ nofun⟩
      intro anew
      exact .cons (.asked _) (.nil _)

end Handling

/-!
# Starting and ending
-/

theorem handles_attempts_start (r : Request .iterationStart) (deadline : Instant) (left : Nat)
    (t : Topology) (failed : List NodeAddress) (last : String) :
    Handles none (r.attempts deadline left t failed last) fun result later =>
      later = result.toOption := by
  induction left generalizing t failed last with
  | zero => exact .pure rfl
  | succ left ih =>
      rw [Request.attempts]
      apply Handles.start
      · intro c
        exact .pure rfl
      · intro o ho
        cases o with
        | completed c => exact absurd rfl (ho c)
        | failed e => exact .pure rfl
        | retryTopology => exact .record (.topology fun u => ih u _ _)
        | retryConnectivity e =>
            apply Handles.record
            dsimp only
            split
            · exact .refresh (.topology fun u => ih u _ _)
            · exact .topology fun u => ih u _ _

/-- The cursor that has been opened is held, and none if the start has failed. -/
theorem handles_execute_start (s : Scan) (operation : Operation .iterationStart) :
    Handles none (s.execute operation) fun result later => later = result.toOption := by
  unfold execute Request.bind deadline
  simp only [Program.bind_bind, Program.pure_bind]
  apply Handles.topology
  intro t
  apply Handles.now
  intro time
  exact handles_attempts_start _ _ _ _ _ _

/-- The program does nothing about cursors up to wherever it gets. -/
def Silent {α : Type} (anew : Bool) (p : Paging α) : Prop :=
  ∀ trace (stand : Stand α), Call.Reaches p trace stand → Move.upTo anew trace stand.awaited = []

section Silence

variable {α : Type} {anew : Bool}

theorem Silent.pure (a : α) : Silent anew (pure a) := by
  intro trace stand h
  rcases Program.reaches_pure.1 h with ⟨rfl, rfl⟩
  rfl

theorem Silent.ask {q : Call.Ask Scan} {next : Call.Answer Scan q → Paging α} (hq : Quiet q)
    (h : ∀ answer, Silent (Move.issuing anew q) (next answer)) : Silent anew (.ask q next) := by
  intro trace stand hrun
  rcases Program.reaches_ask.1 hrun with ⟨-, rfl, rfl⟩ | ⟨answer, rest, rfl, hrest⟩
  · exact hq.asking anew
  · rw [Move.upTo, hq.asking, hq.answering, h answer rest stand hrest]
    rfl

theorem Silent.topology {cache : Bytes} {next : Topology → Paging α}
    (h : ∀ t, Silent anew (next t)) : Silent anew (Call.topology cache >>= next) :=
  Silent.ask (quiet_topology cache) h

theorem Silent.retry {cause : String} {next : Unit → Paging α} (h : Silent false (next ())) :
    Silent anew (Call.record (.retry OpCode.iterationEnd.name cause) >>= next) :=
  Silent.ask (quiet_record _) fun _ => h

theorem Silent.refresh {cache : RemoteCache} {deadline : Instant} {next : Unit → Paging α}
    (h : Silent anew (next ())) : Silent anew (cache.refresh deadline >>= next) := by
  apply Silent.topology
  intro t
  exact Silent.ask (quiet_ping _) fun _ => h

end Silence

/-- However often it is attempted, the end of an iteration is issued once. -/
theorem moves_of_attempts {r : Request .iterationEnd} {deadline : Instant} {left : Nat}
    {t : Topology} {failed : List NodeAddress} {last : String} {trace : Trace}
    {stand : Stand (Except ClientError Bool)} (anew : Bool)
    (h : Call.Reaches (r.attempts deadline left t failed last) trace stand) :
    Move.upTo anew trace stand.awaited =
      if anew = true ∧ left ≠ 0 then [.ended (endedCursor r.operation)] else [] := by
  induction left generalizing t failed last trace stand anew with
  | zero =>
      rcases Program.reaches_pure.1 h with ⟨rfl, rfl⟩
      simp [Move.upTo, Program.Stand.awaited]
  | succ left ih =>
      have hnext : ∀ t failed last, Silent false (r.attempts deadline left t failed last) := by
        intro t failed last trace stand h
        simpa using ih false h
      rw [Request.attempts] at h
      rcases Call.reaches_attempt.1 h with ⟨rfl, rfl⟩ | ⟨o, rest, rfl, hrest⟩
      · cases anew <;> rfl
      · have hsilent : Move.upTo true rest stand.awaited = [] := by
          cases o with
          | completed reply => exact Silent.pure _ rest stand hrest
          | failed e => exact Silent.pure _ rest stand hrest
          | retryTopology =>
              exact Silent.retry (.topology fun u => hnext u _ _) rest stand hrest
          | retryConnectivity e =>
              apply Silent.retry ?_ rest stand hrest
              dsimp only
              split
              · exact .refresh (.topology fun u => hnext u _ _)
              · exact .topology fun u => hnext u _ _
        show Move.asking anew _ ++ ([] ++ Move.upTo true rest stand.awaited) = _
        rw [hsilent]
        cases anew <;> rfl

theorem moves_of_execute {r : Request .iterationEnd} {anew : Bool} {trace : Trace}
    {stand : Stand (Except ClientError Bool)} (h : Call.Reaches r.execute trace stand) :
    Move.upTo anew trace stand.awaited = [.ended (endedCursor r.operation)] := by
  have hlimit : r.limit ≠ 0 := by
    unfold Request.limit RemoteCache.retryLimit
    omega
  rcases Call.reaches_now.1 h with ⟨time, rest, rfl, hrest⟩
  have hmoves := moves_of_attempts true hrest
  rw [if_pos ⟨rfl, hlimit⟩] at hmoves
  exact hmoves

theorem handles_execute_end (s : Scan) (c : Cursor) :
    Handles (some c) (s.execute (.iterationEnd c)) fun _ later => later = none := by
  apply Handles.topology
  intro t anew trace result hrun
  let r : Request .iterationEnd :=
    { cache := s.cache, operation := .iterationEnd c, flags := s.flags, topology := t }
  have hissued : Call.Reaches r.execute trace (.done result) := hrun
  have hmoves : Move.upTo anew trace none = [.ended c] := moves_of_execute hissued
  rw [hmoves]
  exact ⟨none, .cons (.ended c) (.nil none), rfl⟩

end Scan
end GridClient
