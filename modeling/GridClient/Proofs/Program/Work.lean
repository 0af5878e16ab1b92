import GridClient.Proofs.Program.Heeding

/-!
# Programs that leave work behind

Programs are run side by side, each under a number, until all of them are done. At each
moment any one of them may get its next answer. Some asks leave a further program behind,
which is run beside the others under the number of the one that has asked. The log says what
was asked and answered under which number.
-/

namespace GridClient
namespace Program

variable {Ask : Type} {Answer : Ask → Type} {α β : Type}

/-- The logs that the work on open programs can have. -/
inductive Work (fork : Ask → Option (Program Answer Unit)) :
    List (Nat × Program Answer Unit) → List (Nat × Event Answer) → Prop where
  | finished : Work fork [] []
  | answered {before after : List (Nat × Program Answer Unit)} {number : Nat} {q : Ask}
      {next : Answer q → Program Answer Unit} {log : List (Nat × Event Answer)} (answer : Answer q)
      (h : Work fork (before ++ (number, next answer) ::
        ((fork q).toList.map (Prod.mk number) ++ after)) log) :
      Work fork (before ++ (number, .ask q next) :: after) ((number, ⟨q, answer⟩) :: log)
  | leaves {before after : List (Nat × Program Answer Unit)} {number : Nat}
      {log : List (Nat × Event Answer)} (h : Work fork (before ++ after) log) :
      Work fork (before ++ (number, .done ()) :: after) log

variable {fork : Ask → Option (Program Answer Unit)} {waits : Ask → Prop}

/-- What stands under a number. -/
def under (number : Nat) (entries : List (Nat × α)) : List (Nat × α) :=
  entries.filter fun e => e.1 = number

/-- What was asked and answered under a number. -/
def traceUnder (number : Nat) (log : List (Nat × Event Answer)) : Trace Answer :=
  (under number log).map Prod.snd

theorem mem_of_mem_traceUnder {number : Nat} {log : List (Nat × Event Answer)} {e : Event Answer}
    (h : e ∈ traceUnder number log) : e ∈ log.map Prod.snd := by
  rcases List.mem_map.1 h with ⟨entry, hentry, heq⟩
  exact List.mem_map.2 ⟨entry, (List.mem_filter.1 hentry).1, heq⟩

theorem under_append (number : Nat) (first last : List (Nat × α)) :
    under number (first ++ last) = under number first ++ under number last :=
  List.filter_append first last

theorem under_cons_self (number : Nat) (a : α) (rest : List (Nat × α)) :
    under number ((number, a) :: rest) = (number, a) :: under number rest :=
  List.filter_cons_of_pos (decide_eq_true rfl)

theorem under_cons_of_ne {number other : Nat} (h : other ≠ number) (a : α)
    (rest : List (Nat × α)) : under number ((other, a) :: rest) = under number rest :=
  List.filter_cons_of_neg (by simpa using h)

theorem under_map_self (number : Nat) (as : List α) :
    under number (as.map (Prod.mk number)) = as.map (Prod.mk number) := by
  unfold under
  rw [List.filter_eq_self]
  intro e he
  rcases List.mem_map.1 he with ⟨a, -, rfl⟩
  exact decide_eq_true rfl

theorem under_map_of_ne {number other : Nat} (h : other ≠ number) (as : List α) :
    under number (as.map (Prod.mk other)) = [] := by
  unfold under
  rw [List.filter_eq_nil_iff]
  intro e he
  rcases List.mem_map.1 he with ⟨a, -, rfl⟩
  simpa using h

namespace Work

variable {pool : List (Nat × Program Answer Unit)} {log : List (Nat × Event Answer)}

/-- The work under one number is work by itself. -/
theorem under (h : Work fork pool log) (number : Nat) :
    Work fork (under number pool) (under number log) := by
  induction h with
  | finished => exact .finished
  | @answered before after other q next log answer h ih =>
      rw [under_append] at ih ⊢
      -- What is left behind has the number of the program that asked, so both are kept or neither.
      by_cases hother : other = number
      · subst hother
        rw [under_cons_self, under_append, under_map_self] at ih
        rw [under_cons_self, under_cons_self]
        exact .answered answer ih
      · rw [under_cons_of_ne hother, under_append, under_map_of_ne hother] at ih
        rw [under_cons_of_ne hother, under_cons_of_ne hother]
        exact ih
  | @leaves before after other log h ih =>
      rw [under_append] at ih ⊢
      by_cases hother : other = number
      · subst hother
        rw [under_cons_self]
        exact .leaves ih
      · rw [under_cons_of_ne hother]
        exact ih

/-- Nothing is done under a number that no program has. -/
theorem number_mem (h : Work fork pool log) : ∀ e ∈ log, e.1 ∈ pool.map Prod.fst := by
  induction h with
  | finished => simp
  | @answered before after number q next log answer h ih =>
      have hnumbers : ∀ n, n ∈ (before ++ (number, next answer) ::
          ((fork q).toList.map (Prod.mk number) ++ after)).map Prod.fst →
            n ∈ (before ++ (number, .ask q next) :: after).map Prod.fst := by
        cases fork q with
        | none => simp
        | some p => simp
      intro e he
      rcases List.mem_cons.1 he with rfl | he
      · simp
      · exact hnumbers _ (ih e he)
  | leaves h ih =>
      intro e he
      have hmem := ih e he
      simp only [List.map_append, List.map_cons, List.mem_append, List.mem_cons] at hmem ⊢
      exact hmem.imp_right Or.inr

end Work

/-!
# Numbering
-/

/-- The members of a list, each under its place. -/
def numbered (as : List α) : List (Nat × α) :=
  as.zipIdx.map Prod.swap

theorem map_fst_numbered (as : List α) : (numbered as).map Prod.fst = List.range as.length := by
  unfold numbered
  rw [List.map_map, List.range_eq_range', ← List.zipIdx_map_snd 0 as]
  rfl

theorem under_zipIdx_of_lt {number start : Nat} (h : number < start) (as : List α) :
    under number ((as.zipIdx start).map Prod.swap) = [] := by
  unfold under
  rw [List.filter_eq_nil_iff]
  intro e he
  rcases List.mem_map.1 he with ⟨⟨a, place⟩, hmem, rfl⟩
  have hplace := List.le_snd_of_mem_zipIdx hmem
  simp only [Prod.swap_prod_mk, decide_eq_true_eq]
  omega

theorem under_zipIdx {as : List α} {place : Nat} {a : α} (h : as[place]? = some a) (start : Nat) :
    under (start + place) ((as.zipIdx start).map Prod.swap) = [(start + place, a)] := by
  induction as generalizing place start with
  | nil => simp at h
  | cons b as ih =>
      rw [List.zipIdx_cons, List.map_cons, Prod.swap_prod_mk]
      cases place with
      | zero =>
          cases h
          rw [Nat.add_zero, under_cons_self, under_zipIdx_of_lt (Nat.lt_succ_self start)]
      | succ place =>
          rw [under_cons_of_ne (by omega)]
          have hrest := ih (by simpa using h) (start + 1)
          rwa [Nat.add_assoc, Nat.add_comm 1 place] at hrest

theorem under_numbered {as : List α} {place : Nat} {a : α} (h : as[place]? = some a) :
    under place (numbered as) = [(place, a)] := by
  have hunder := under_zipIdx h 0
  rwa [Nat.zero_add] at hunder

theorem flatMap_under_perm_filter (entries : List (Nat × α)) (bound : Nat) :
    ((List.range bound).flatMap fun number => under number entries).Perm
      (entries.filter fun e => e.1 < bound) := by
  induction bound with
  | zero => simp
  | succ bound ih =>
      -- Below the next bound are the entries below this one, and those that are at it.
      have hlow : (entries.filter fun e => e.1 < bound) =
          (entries.filter fun e => e.1 < bound + 1).filter fun e => e.1 < bound := by
        rw [List.filter_filter]
        refine List.filter_congr fun e _ => ?_
        rw [Bool.eq_iff_iff]
        simp only [Bool.and_eq_true, decide_eq_true_eq]
        omega
      have htop : under bound entries =
          (entries.filter fun e => e.1 < bound + 1).filter fun e => !decide (e.1 < bound) := by
        rw [List.filter_filter]
        refine List.filter_congr fun e _ => ?_
        rw [Bool.eq_iff_iff]
        simp only [Bool.and_eq_true, Bool.not_eq_true', decide_eq_true_eq, decide_eq_false_iff_not]
        omega
      rw [List.range_succ, List.flatMap_append, List.flatMap_singleton]
      refine (ih.append_right _).trans ?_
      rw [hlow, htop]
      exact List.filter_append_perm _ _

/-- If no number is beyond a bound, what stands under the numbers below it is all there is. -/
theorem flatMap_under_perm {entries : List (Nat × α)} {bound : Nat}
    (h : ∀ e ∈ entries, e.1 < bound) :
    ((List.range bound).flatMap fun number => under number entries).Perm entries := by
  have hall : (entries.filter fun e => e.1 < bound) = entries :=
    List.filter_eq_self.2 fun e he => decide_eq_true (h e he)
  have hperm := flatMap_under_perm_filter entries bound
  rwa [hall] at hperm

/-!
# Programs that leave nothing behind
-/

/-- The program leaves no work behind, whatever is answered. -/
abbrev Alone (fork : Ask → Option (Program Answer Unit)) (p : Program Answer α) : Prop :=
  Only (fun q => fork q = none) p

/-- The program leaves work behind with its last ask only. -/
inductive ForksLast (fork : Ask → Option (Program Answer Unit)) : Program Answer α → Prop where
  | done (a : α) : ForksLast fork (.done a)
  | ask {q : Ask} {next : Answer q → Program Answer α} (hq : fork q = none)
      (h : ∀ answer, ForksLast fork (next answer)) : ForksLast fork (.ask q next)
  | last {q : Ask} {next : Answer q → Program Answer α}
      (h : ∀ answer, ∃ a, next answer = .done a) : ForksLast fork (.ask q next)

theorem Alone.bind_forksLast {p : Program Answer α} {f : α → Program Answer β}
    (hp : Alone fork p) (hf : ∀ a, ForksLast fork (f a)) : ForksLast fork (p >>= f) := by
  induction hp with
  | done a => exact hf a
  | ask hq h ih => exact .ask hq ih

theorem Alone.forksLast {p : Program Answer α} (hp : Alone fork p) : ForksLast fork p := by
  induction hp with
  | done a => exact .done a
  | ask hq h ih => exact .ask hq ih

theorem ForksLast.map {p : Program Answer α} (hp : ForksLast fork p) (f : α → β) :
    ForksLast fork (p >>= fun a => .done (f a)) := by
  induction hp with
  | done a => exact .done (f a)
  | ask hq h ih => exact .ask hq ih
  | last h =>
      refine .last ?_
      intro answer
      rcases h answer with ⟨a, ha⟩
      rw [ha]
      exact ⟨f a, rfl⟩

/-!
# The work of one program
-/

theorem single_eq_append {x y : α} {before after : List α} (h : [x] = before ++ y :: after) :
    before = [] ∧ y = x ∧ after = [] := by
  cases before with
  | nil =>
      cases h
      exact ⟨rfl, rfl, rfl⟩
  | cons b before => simp at h

theorem pair_eq_append {x y z : α} {before after : List α} (h : [x, y] = before ++ z :: after) :
    (before = [] ∧ z = x ∧ after = [y]) ∨ (before = [x] ∧ z = y ∧ after = []) := by
  cases before with
  | nil =>
      cases h
      exact Or.inl ⟨rfl, rfl, rfl⟩
  | cons b before =>
      rw [List.cons_append, List.cons.injEq] at h
      rcases h with ⟨rfl, h⟩
      rcases single_eq_append h with ⟨rfl, rfl, rfl⟩
      exact Or.inr ⟨rfl, rfl, rfl⟩

variable {number : Nat} {log : List (Nat × Event Answer)}

theorem work_nil (h : Work fork [] log) : log = [] := by
  generalize hpool : [] = pool at h
  cases h with
  | finished => rfl
  | answered answer h => simp at hpool
  | leaves h => simp at hpool

theorem work_done (h : Work fork [(number, .done ())] log) : log = [] := by
  generalize hpool : [(number, done ())] = pool at h
  cases h with
  | finished => rfl
  | answered answer h => cases (single_eq_append hpool).2.1
  | leaves h =>
      rcases single_eq_append hpool with ⟨rfl, -, rfl⟩
      exact work_nil h

theorem work_ask {q : Ask} {next : Answer q → Program Answer Unit}
    (h : Work fork [(number, .ask q next)] log) :
    ∃ answer rest, log = (number, ⟨q, answer⟩) :: rest ∧
      Work fork ((number, next answer) :: (fork q).toList.map (Prod.mk number)) rest := by
  generalize hpool : [(number, ask q next)] = pool at h
  cases h with
  | finished => cases hpool
  | answered answer h =>
      rcases single_eq_append hpool with ⟨rfl, heq, rfl⟩
      cases heq
      exact ⟨answer, _, rfl, by simpa using h⟩
  | leaves h => cases (single_eq_append hpool).2.1

/-- Without forks, work on one program is a run of it. -/
theorem Alone.reaches {p : Program Answer Unit} (hp : Alone fork p)
    (h : Work fork [(number, p)] log) : Reaches waits p (log.map Prod.snd) (.done ()) := by
  induction hp generalizing log with
  | done a =>
      rw [work_done h]
      exact .done ()
  | ask hq hnext ih =>
      rcases work_ask h with ⟨answer, rest, rfl, hrest⟩
      rw [hq] at hrest
      exact .answered answer (ih answer hrest)

/-- A program that is done does not stand in the way of another one. -/
theorem Alone.reaches_beside_done {p : Program Answer Unit} (hp : Alone fork p)
    (h : Work fork [(number, .done ()), (number, p)] log) :
    Reaches waits p (log.map Prod.snd) (.done ()) := by
  induction hp generalizing log with
  | done a =>
      generalize hpool : [(number, Program.done ()), (number, Program.done a)] = pool at h
      cases h with
      | finished => cases hpool
      | answered answer h =>
          rcases pair_eq_append hpool with ⟨-, heq, -⟩ | ⟨-, heq, -⟩ <;> cases heq
      | leaves h =>
          rcases pair_eq_append hpool with ⟨rfl, -, rfl⟩ | ⟨rfl, -, rfl⟩
          · exact Alone.reaches (.done a) h
          · exact Alone.reaches (.done a) h
  | @ask q next hq hnext ih =>
      generalize hpool : [(number, Program.done ()), (number, Program.ask q next)] = pool at h
      cases h with
      | finished => cases hpool
      | answered answer h =>
          rcases pair_eq_append hpool with ⟨-, heq, -⟩ | ⟨rfl, heq, rfl⟩
          · cases heq
          · cases heq
            rw [hq] at h
            exact .answered answer (ih answer h)
      | leaves h =>
          rcases pair_eq_append hpool with ⟨rfl, -, rfl⟩ | ⟨-, heq, -⟩
          · exact Alone.reaches (.ask hq hnext) h
          · cases heq

/-- Work on a program that leaves something behind at its end only: its own run, and then
the run of what it has left behind. -/
theorem ForksLast.reaches {p : Program Answer Unit} (hp : ForksLast fork p)
    (hforks : ∀ q left, fork q = some left → Alone fork left) (h : Work fork [(number, p)] log) :
    ∃ run late, log.map Prod.snd = run ++ late ∧ Reaches waits p run (.done ()) ∧
      ((late = [] ∧ ∀ e ∈ run, fork e.ask = none) ∨
        ∃ init e left, run = init ++ [e] ∧ fork e.ask = some left ∧
          Reaches waits left late (.done ())) := by
  induction hp generalizing log with
  | done a =>
      rw [work_done h]
      exact ⟨[], [], rfl, .done (), Or.inl ⟨rfl, by simp⟩⟩
  | @ask q next hq hnext ih =>
      rcases work_ask h with ⟨answer, rest, rfl, hrest⟩
      rw [hq] at hrest
      rcases ih answer hrest with ⟨run, late, hlog, hrun, hend⟩
      refine ⟨⟨q, answer⟩ :: run, late, ?_, .answered answer hrun, ?_⟩
      · rw [List.map_cons, hlog, List.cons_append]
      · rcases hend with ⟨hlate, hnone⟩ | ⟨init, e, left, rfl, hfork, hleft⟩
        · exact Or.inl ⟨hlate, List.forall_mem_cons.2 ⟨hq, hnone⟩⟩
        · exact Or.inr ⟨⟨q, answer⟩ :: init, e, left, rfl, hfork, hleft⟩
  | @last q next hnext =>
      rcases work_ask h with ⟨answer, rest, rfl, hrest⟩
      rcases hnext answer with ⟨⟨⟩, hdone⟩
      rw [hdone] at hrest
      have hrun : Reaches waits (.ask q next) [⟨q, answer⟩] (.done ()) :=
        .answered answer (hdone ▸ .done ())
      cases hfork : fork q with
      | none =>
          rw [hfork] at hrest
          rw [work_done hrest]
          exact ⟨[⟨q, answer⟩], [], rfl, hrun, Or.inl ⟨rfl, by simpa using hfork⟩⟩
      | some left =>
          rw [hfork] at hrest
          exact ⟨[⟨q, answer⟩], rest.map Prod.snd, rfl, hrun, Or.inr ⟨[], ⟨q, answer⟩, left, rfl,
            hfork, (hforks q left hfork).reaches_beside_done hrest⟩⟩

/-!
# One after another
-/

/-- What a run leaves behind, the latest first. -/
def leftBehind (fork : Ask → Option (Program Answer Unit)) (trace : Trace Answer) :
    List (Program Answer Unit) :=
  (trace.filterMap fun e => fork e.ask).reverse

theorem leftBehind_cons (e : Event Answer) (rest : Trace Answer) :
    leftBehind fork (e :: rest) = leftBehind fork rest ++ (fork e.ask).toList := by
  unfold leftBehind
  rw [List.filterMap_cons]
  cases fork e.ask with
  | none => rw [Option.toList_none, List.append_nil]
  | some p => rw [List.reverse_cons, Option.toList_some]

/-- A program may be run to its end before anything else is done. -/
theorem Reaches.work {p : Program Answer Unit} {run : Trace Answer}
    {after : List (Nat × Program Answer Unit)} (hrun : Reaches waits p run (.done ()))
    (h : Work fork ((leftBehind fork run).map (Prod.mk number) ++ after) log) :
    Work fork ((number, p) :: after) (run.map (Prod.mk number) ++ log) := by
  generalize hstand : Stand.done () = stand at hrun
  induction hrun generalizing after with
  | done a =>
      have hdone : Work fork ([] ++ (number, .done ()) :: after) log := .leaves h
      exact hdone
  | waiting hwaits => cases hstand
  | @answered q next trace stand answer hnext ih =>
      rw [leftBehind_cons, List.map_append, List.append_assoc] at h
      have hanswered : Work fork ([] ++ (number, .ask q next) :: after)
          ((number, ⟨q, answer⟩) :: (trace.map (Prod.mk number) ++ log)) :=
        .answered answer (ih h hstand)
      exact hanswered

end Program
end GridClient
