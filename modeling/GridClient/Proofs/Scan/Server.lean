import GridClient.Proofs.Scan.Life
import GridClient.Proofs.Scan.Plan

/-!
# Faithful servers

What servers do with the cursors that they hold for a scan. A cursor walks over the entries
of its segments; the server remembers which keys it has sent for it, on pages that reached
the scan and on pages that got lost. A faithful server says that a segment, or all of
them, is finished only when no key of it is left to send.
-/

namespace GridClient
namespace Scan

/-- The walk of a cursor over its segments, with the keys sent so far. -/
structure Walk where
  segments : Option SegmentSet
  sent : List Bytes
  deriving DecidableEq

abbrev Walks : Type :=
  Table Cursor Walk

namespace Walk

def after (w : Walk) (page : Page) : Walk where
  segments := w.segments
  sent := w.sent ++ page.entries.map ScanEntry.key

/-- A page that a faithful server may send for a walk. The cache holds the keys of
`content`, and a key is filed under its segment among `count`. -/
structure Sends (content : List Bytes) (count : UInt32) (w : Walk) (page : Page) : Prop where
  entries : ∀ e ∈ page.entries,
    e.key ∈ content ∧ covers w.segments (Hash.segmentOf e.key count) = true
  last : page.isLast = true → ∀ key ∈ content,
    covers w.segments (Hash.segmentOf key count) = true → key ∈ w.sent
  finished : ∀ n ∈ page.finished, covers w.segments n = true → ∀ key ∈ content,
    Hash.segmentOf key count = n → key ∈ (w.after page).sent

-- The finished segments are tested one by one: a segment is a machine word, and all of
-- these could be gone through as well.
instance (content : List Bytes) (count : UInt32) (w : Walk) (page : Page) :
    Decidable (w.Sends content count page) :=
  decidable_of_iff
    ((∀ e ∈ page.entries, e.key ∈ content ∧ covers w.segments (Hash.segmentOf e.key count) = true) ∧
      (page.isLast = true → ∀ key ∈ content,
        covers w.segments (Hash.segmentOf key count) = true → key ∈ w.sent) ∧
      page.finished.all fun n => covers w.segments n = true → ∀ key ∈ content,
        Hash.segmentOf key count = n → key ∈ (w.after page).sent)
    ⟨fun h => ⟨h.1, h.2.1, fun n hn => of_decide_eq_true (List.all_eq_true.1 h.2.2 n hn)⟩,
      fun h => ⟨h.entries, h.last,
        List.all_eq_true.2 fun n hn => decide_eq_true (h.finished n hn)⟩⟩

end Walk

def startedSegments : Operation .iterationStart → Option SegmentSet
  | .iterationStart segments _ _ _ _ => segments

def SendsFor (content : List Bytes) (count : UInt32) (walks : Walks) (c : Cursor) (page : Page)
    (after : Walks) : Prop :=
  ∃ w, walks.get? c = some w ∧ w.Sends content count page ∧ after = walks.insert c (w.after page)

/-- What an exchange does to the walks of faithful servers. If no page comes back from a
pull, the server may have sent one all the same. -/
def Serves (content : List Bytes) (count : UInt32) (walks : Walks) : Event → Walks → Prop
  | ⟨@Call.Ask.attempt _ .iterationStart a, .completed c⟩, after =>
      after = walks.insert c ⟨startedSegments a.operation, []⟩
  | ⟨@Call.Ask.attempt _ .iterationNext a, .completed page⟩, after =>
      SendsFor content count walks (pulledCursor a.operation) page after
  | ⟨@Call.Ask.attempt _ .iterationNext a, _⟩, after =>
      after = walks ∨ ∃ page, SendsFor content count walks (pulledCursor a.operation) page after
  | _, after => after = walks

/-- What all exchanges of a trace do to the walks, one after another. -/
inductive ServesAll (content : List Bytes) (count : UInt32) : Walks → Trace → Walks → Prop where
  | nil (walks : Walks) : ServesAll content count walks [] walks
  | cons {walks middle after : Walks} {e : Event} {rest : Trace}
      (h : Serves content count walks e middle) (hrest : ServesAll content count middle rest after) :
      ServesAll content count walks (e :: rest) after

section ServesAll

variable {content : List Bytes} {count : UInt32} {walks after : Walks}

theorem servesAll_nil : ServesAll content count walks [] after ↔ after = walks := by
  constructor
  · intro h
    cases h
    rfl
  · intro heq
    rcases heq with rfl
    exact .nil _

theorem servesAll_cons {e : Event} {rest : Trace} :
    ServesAll content count walks (e :: rest) after ↔
      ∃ middle, Serves content count walks e middle ∧ ServesAll content count middle rest after := by
  constructor
  · intro h
    cases h with
    | cons h hrest => exact ⟨_, h, hrest⟩
  · intro hsplit
    rcases hsplit with ⟨middle, h, hrest⟩
    exact .cons h hrest

theorem servesAll_append {first last : Trace} :
    ServesAll content count walks (first ++ last) after ↔
      ∃ middle, ServesAll content count walks first middle ∧
        ServesAll content count middle last after := by
  induction first generalizing walks with
  | nil =>
      rw [List.nil_append]
      constructor
      · intro h
        exact ⟨walks, .nil walks, h⟩
      · intro hsplit
        rcases hsplit with ⟨middle, hfirst, hlast⟩
        rw [servesAll_nil.1 hfirst] at hlast
        exact hlast
  | cons e rest ih =>
      rw [List.cons_append]
      constructor
      · intro h
        rcases servesAll_cons.1 h with ⟨next, hevent, hrest⟩
        rcases ih.1 hrest with ⟨middle, hfirst, hlast⟩
        exact ⟨middle, .cons hevent hfirst, hlast⟩
      · intro hsplit
        rcases hsplit with ⟨middle, hfirst, hlast⟩
        rcases servesAll_cons.1 hfirst with ⟨next, hevent, hrest⟩
        exact .cons hevent (ih.2 ⟨middle, hrest, hlast⟩)

/-- Only the start and the pulls of iterations concern the walks. -/
theorem serves_of_vain {op : OpCode} (hop : op ≠ .iterationNext) {e : Event}
    (he : Call.Event.Vain op e) (h : Serves content count walks e after) : after = walks := by
  rcases e with ⟨ask, answer⟩
  cases ask with
  | @attempt other a =>
      rcases he.serves with rfl | rfl
      · cases other
        case iterationNext => exact absurd rfl hop
        case iterationStart =>
            cases answer
            case completed c => exact absurd ⟨a, c, rfl⟩ he.incomplete
            all_goals exact h
        all_goals exact h
      · exact h
  | _ => exact h

theorem servesAll_of_vain {op : OpCode} (hop : op ≠ .iterationNext) {trace : Trace}
    (he : ∀ e ∈ trace, Call.Event.Vain op e) (h : ServesAll content count walks trace after) :
    after = walks := by
  induction trace generalizing walks with
  | nil => exact servesAll_nil.1 h
  | cons e rest ih =>
      rw [List.forall_mem_cons] at he
      rcases servesAll_cons.1 h with ⟨middle, hevent, hrest⟩
      rw [ih he.2 hrest, serves_of_vain hop he.1 hevent]

theorem servesAll_of_started {operation : Operation .iterationStart} {c : Cursor} {trace : Trace}
    (hstart : CarriesOut operation trace (.done (.ok c)))
    (h : ServesAll content count walks trace after) :
    after = walks.insert c ⟨startedSegments operation, []⟩ := by
  rcases hstart with ⟨r, rfl, hcourse⟩
  cases hcourse with
  | settled reply hvain ha =>
      rcases servesAll_append.1 h with ⟨middle, hfirst, hlast⟩
      rcases servesAll_cons.1 hlast with ⟨next, hevent, hrest⟩
      rw [servesAll_nil.1 hrest, ← ha]
      rw [servesAll_of_vain (by decide) hvain hfirst] at hevent
      exact hevent
  | vain hvain hopen hwait => exact absurd rfl (hopen c)

theorem servesAll_cons_of_still {e : Event} {rest : Trace}
    (he : ∀ middle, Serves content count walks e middle ↔ middle = walks) :
    ServesAll content count walks (e :: rest) after ↔ ServesAll content count walks rest after := by
  rw [servesAll_cons]
  constructor
  · intro hsplit
    rcases hsplit with ⟨middle, hevent, hrest⟩
    rwa [(he middle).1 hevent] at hrest
  · intro hrest
    exact ⟨walks, (he walks).2 rfl, hrest⟩

@[simp] theorem servesAll_note (s : Scan) (rest : Trace) :
    ServesAll content count walks (⟨.note s, ()⟩ :: rest) after ↔
      ServesAll content count walks rest after :=
  servesAll_cons_of_still fun _ => Iff.rfl

@[simp] theorem servesAll_now (time : Instant) (rest : Trace) :
    ServesAll content count walks (⟨.now, time⟩ :: rest) after ↔
      ServesAll content count walks rest after :=
  servesAll_cons_of_still fun _ => Iff.rfl

@[simp] theorem servesAll_topology (cache : Bytes) (t : Topology) (rest : Trace) :
    ServesAll content count walks (⟨.topology cache, t⟩ :: rest) after ↔
      ServesAll content count walks rest after :=
  servesAll_cons_of_still fun _ => Iff.rfl

@[simp] theorem servesAll_record (m : Measurement) (rest : Trace) :
    ServesAll content count walks (⟨.record m, ()⟩ :: rest) after ↔
      ServesAll content count walks rest after :=
  servesAll_cons_of_still fun _ => Iff.rfl

theorem servesAll_pulled {s : Scan} {a : ActiveIteration} {t : Topology} {time : Instant}
    {o : Outcome Page} {rest : Trace} :
    ServesAll content count walks (s.pulled a t time o ++ rest) after ↔
      ∃ middle, Serves content count walks ⟨.attempt (s.pullOf a t time), o⟩ middle ∧
        ServesAll content count middle rest after := by
  unfold pulled pulling
  simp only [List.cons_append, List.nil_append, servesAll_note, servesAll_topology, servesAll_now]
  exact servesAll_cons

theorem servesAll_repeats {s : Scan} {page : Page} :
    ServesAll content count walks (s.repeats page) after ↔ after = walks := by
  unfold repeats
  dsimp only
  split
  · rw [servesAll_record, servesAll_nil]
  · exact servesAll_nil

end ServesAll
/-!
# Checking a server
-/

/-- The walks after an exchange with a faithful server all of whose pages arrive. -/
def serving (content : List Bytes) (count : UInt32) (walks : Walks) : Event → Option Walks
  | ⟨@Call.Ask.attempt _ .iterationStart a, .completed c⟩ =>
      some (walks.insert c ⟨startedSegments a.operation, []⟩)
  | ⟨@Call.Ask.attempt _ .iterationNext a, .completed page⟩ =>
      match walks.get? (pulledCursor a.operation) with
      | some w =>
          if w.Sends content count page then
            some (walks.insert (pulledCursor a.operation) (w.after page))
          else none
      | none => none
  | _ => some walks

theorem serves_of_serving {content : List Bytes} {count : UInt32} {walks after : Walks} {e : Event}
    (h : serving content count walks e = some after) : Serves content count walks e after := by
  rcases e with ⟨ask, answer⟩
  cases ask with
  | @attempt op a =>
      cases op
      case iterationStart =>
          cases answer <;> exact (Option.some_inj.1 h).symm
      case iterationNext =>
          cases answer
          case completed page =>
              unfold serving at h
              dsimp only at h
              split at h
              · next w hw =>
                split at h
                · next hsends => exact ⟨w, hw, hsends, (Option.some_inj.1 h).symm⟩
                · cases h
              · cases h
          all_goals exact Or.inl (Option.some_inj.1 h).symm
      all_goals exact (Option.some_inj.1 h).symm
  | _ => exact (Option.some_inj.1 h).symm

theorem servesAll_of_serving {content : List Bytes} {count : UInt32} {walks after : Walks}
    {trace : Trace} (h : trace.foldlM (serving content count) walks = some after) :
    ServesAll content count walks trace after := by
  induction trace generalizing walks with
  | nil =>
      cases h
      exact .nil _
  | cons e rest ih =>
      rw [List.foldlM_cons] at h
      rcases Option.bind_eq_some_iff.1 h with ⟨middle, hevent, hrest⟩
      exact .cons (serves_of_serving hevent) (ih hrest)

end Scan
end GridClient
