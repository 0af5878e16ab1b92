import GridClient.Program

/-!
# Runs of programs

Whoever answers a program decides how it goes on. A run of a program is described by
what was asked and answered, in order, and by the stand it has come to: the program is
done, or it waits for an answer. The asks that can keep a program waiting are a
parameter, since most asks are answered at once.
-/

namespace GridClient
namespace Program

variable {Ask : Type} {Answer : Ask → Type} {α β : Type}

/-- Something that was asked, with the answer. -/
structure Event (Answer : Ask → Type) where
  ask : Ask
  answer : Answer ask

abbrev Trace (Answer : Ask → Type) : Type :=
  List (Event Answer)

/-- Where a run has come to. -/
inductive Stand (Ask α : Type) where
  | done (a : α)
  | waiting (q : Ask)

namespace Stand

def map (f : α → β) : Stand Ask α → Stand Ask β
  | done a => done (f a)
  | waiting q => waiting q

@[simp] theorem map_waiting (f : α → β) (q : Ask) :
    (waiting q : Stand Ask α).map f = waiting q :=
  rfl

end Stand

/-- A program, answered as in the trace, comes to a stand. -/
inductive Reaches (waits : Ask → Prop) :
    Program Answer α → Trace Answer → Stand Ask α → Prop where
  | done (a : α) : Reaches waits (.done a) [] (.done a)
  | waiting {q : Ask} {next : Answer q → Program Answer α} (h : waits q) :
      Reaches waits (.ask q next) [] (.waiting q)
  | answered {q : Ask} {next : Answer q → Program Answer α} {trace : Trace Answer}
      {stand : Stand Ask α} (answer : Answer q) (h : Reaches waits (next answer) trace stand) :
      Reaches waits (.ask q next) (⟨q, answer⟩ :: trace) stand

variable {waits : Ask → Prop} {trace : Trace Answer}

theorem pure_bind (a : α) (f : α → Program Answer β) : (pure a : Program Answer α) >>= f = f a :=
  rfl

/-!
# Reading a run back
-/

theorem reaches_done {a : α} {stand : Stand Ask α} :
    Reaches waits (.done a) trace stand ↔ trace = [] ∧ stand = .done a := by
  constructor
  · intro h
    cases h
    exact ⟨rfl, rfl⟩
  · intro heq
    rcases heq with ⟨rfl, rfl⟩
    exact .done a

theorem reaches_pure {a : α} {stand : Stand Ask α} :
    Reaches waits (pure a : Program Answer α) trace stand ↔ trace = [] ∧ stand = .done a :=
  reaches_done

theorem reaches_ask {q : Ask} {next : Answer q → Program Answer α} {stand : Stand Ask α} :
    Reaches waits (.ask q next) trace stand ↔
      (waits q ∧ trace = [] ∧ stand = .waiting q) ∨
        ∃ answer rest, trace = ⟨q, answer⟩ :: rest ∧ Reaches waits (next answer) rest stand := by
  constructor
  · intro h
    cases h with
    | waiting hq => exact Or.inl ⟨hq, rfl, rfl⟩
    | answered answer h => exact Or.inr ⟨answer, _, rfl, h⟩
  · intro hrun
    rcases hrun with ⟨hq, rfl, rfl⟩ | ⟨answer, rest, rfl, h⟩
    · exact .waiting hq
    · exact .answered answer h

theorem reaches_ask_of_not_waits {q : Ask} {next : Answer q → Program Answer α}
    {stand : Stand Ask α} (hq : ¬ waits q) :
    Reaches waits (.ask q next) trace stand ↔
      ∃ answer rest, trace = ⟨q, answer⟩ :: rest ∧ Reaches waits (next answer) rest stand := by
  rw [reaches_ask]
  exact or_iff_right fun h => hq h.1

/-- What keeps a program waiting is an ask that can. -/
theorem waits_of_reaches {p : Program Answer α} {q : Ask}
    (h : Reaches waits p trace (.waiting q)) : waits q := by
  generalize hstand : Stand.waiting q = stand at h
  induction h with
  | done a => cases hstand
  | waiting hq =>
      cases hstand
      exact hq
  | answered answer h ih => exact ih hstand

/-- A run of two programs in sequence has stopped in the first one, or splits in two. -/
theorem reaches_bind {p : Program Answer α} {f : α → Program Answer β} {stand : Stand Ask β} :
    Reaches waits (p >>= f) trace stand ↔
      (∃ q, Reaches waits p trace (.waiting q) ∧ stand = .waiting q) ∨
        ∃ first a rest, trace = first ++ rest ∧ Reaches waits p first (.done a) ∧
          Reaches waits (f a) rest stand := by
  induction p generalizing trace with
  | done a =>
      constructor
      · intro h
        exact Or.inr ⟨[], a, trace, rfl, .done a, h⟩
      · intro hrun
        rcases hrun with ⟨q, h, rfl⟩ | ⟨first, b, rest, rfl, hp, hf⟩
        · cases h
        · cases hp
          exact hf
  | ask q next ih =>
      rw [ask_bind, reaches_ask]
      constructor
      · intro hrun
        rcases hrun with ⟨hq, rfl, rfl⟩ | ⟨answer, rest, rfl, h⟩
        · exact Or.inl ⟨q, .waiting hq, rfl⟩
        · rcases (ih answer).1 h with ⟨q', hp, rfl⟩ | ⟨first, a, rest, rfl, hp, hf⟩
          · exact Or.inl ⟨q', .answered answer hp, rfl⟩
          · exact Or.inr ⟨_, a, rest, rfl, .answered answer hp, hf⟩
      · intro hrun
        rcases hrun with ⟨q', h, rfl⟩ | ⟨first, a, rest, rfl, hp, hf⟩
        · cases h with
          | waiting hq => exact Or.inl ⟨hq, rfl, rfl⟩
          | answered answer h =>
              exact Or.inr ⟨answer, _, rfl, (ih answer).2 (Or.inl ⟨q', h, rfl⟩)⟩
        · cases hp with
          | answered answer hp =>
              exact Or.inr ⟨answer, _, rfl, (ih answer).2 (Or.inr ⟨_, a, rest, rfl, hp, hf⟩)⟩

theorem reaches_bind_pure {p : Program Answer α} {f : α → β} {stand : Stand Ask β} :
    Reaches waits (p >>= fun a => pure (f a)) trace stand ↔
      ∃ inner, Reaches waits p trace inner ∧ stand = inner.map f := by
  rw [reaches_bind]
  constructor
  · intro hrun
    rcases hrun with ⟨q, h, rfl⟩ | ⟨first, a, rest, rfl, hp, hf⟩
    · exact ⟨.waiting q, h, rfl⟩
    · rcases reaches_pure.1 hf with ⟨rfl, rfl⟩
      exact ⟨.done a, by simpa using hp, rfl⟩
  · intro hrun
    rcases hrun with ⟨inner, h, rfl⟩
    cases inner with
    | done a => exact Or.inr ⟨trace, a, [], by simp, h, reaches_pure.2 ⟨rfl, rfl⟩⟩
    | waiting q => exact Or.inl ⟨q, h, rfl⟩

/-!
# Runs with one answerer
-/

/-- The run of a program that is answered by one answerer, who has a memory of his own. -/
def play {μ : Type} (answer : (q : Ask) → μ → Answer q × μ) :
    Program Answer α → μ → Trace Answer × α × μ
  | done a, m => ([], a, m)
  | ask q next, m =>
      let (reply, m) := answer q m
      let (trace, a, m) := play answer (next reply) m
      (⟨q, reply⟩ :: trace, a, m)

theorem reaches_play {μ : Type} (answer : (q : Ask) → μ → Answer q × μ) (p : Program Answer α)
    (m : μ) : Reaches waits p (p.play answer m).1 (.done (p.play answer m).2.1) := by
  induction p generalizing m with
  | done a => exact .done a
  | ask q next ih => exact .answered (answer q m).1 (ih _ (answer q m).2)

end Program
end GridClient
