import GridClient.Proofs.Program.Reach

/-!
# What is asked, and what was before

Whatever a program is answered, each of its asks may be one that fits what was asked and
answered before it. This is shown along the program, so that it holds of every run, be it
finished or not.
-/

namespace GridClient
namespace Program

variable {Ask : Type} {Answer : Ask → Type} {α : Type}

/-- After some past, each ask of the program fits the past that it has by then. -/
inductive Heeds (fits : Trace Answer → Ask → Prop) : Trace Answer → Program Answer α → Prop where
  | done {past : Trace Answer} (a : α) : Heeds fits past (.done a)
  | ask {past : Trace Answer} {q : Ask} {next : Answer q → Program Answer α} (hq : fits past q)
      (h : ∀ answer, Heeds fits (past ++ [⟨q, answer⟩]) (next answer)) :
      Heeds fits past (.ask q next)

/-- In a run something was asked after this. -/
def AskedAfter (trace : Trace Answer) (stand : Stand Ask α) (before : Trace Answer) (q : Ask) :
    Prop :=
  (∃ answer after, trace = before ++ ⟨q, answer⟩ :: after) ∨ (trace = before ∧ stand = .waiting q)

variable {fits : Trace Answer → Ask → Prop} {past : Trace Answer}

theorem askedAfter_cons {e : Event Answer} {rest before : Trace Answer} {stand : Stand Ask α}
    {q : Ask} (h : AskedAfter (e :: rest) stand before q) :
    (before = [] ∧ e.ask = q) ∨
      ∃ middle, before = e :: middle ∧ AskedAfter rest stand middle q := by
  rcases h with ⟨answer, after, hsplit⟩ | ⟨rfl, hstand⟩
  · rcases List.cons_eq_append_iff.1 hsplit with ⟨rfl, hcons⟩ | ⟨middle, rfl, hrest⟩
    · cases hcons
      exact Or.inl ⟨rfl, rfl⟩
    · exact Or.inr ⟨middle, rfl, Or.inl ⟨answer, after, hrest⟩⟩
  · exact Or.inr ⟨rest, rfl, Or.inr ⟨rfl, hstand⟩⟩

/-- What a program asks in a run fits what was before. -/
theorem Heeds.fits_of_askedAfter {waits : Ask → Prop} {p : Program Answer α}
    {trace before : Trace Answer} {stand : Stand Ask α} {q : Ask} (h : Heeds fits past p)
    (hrun : Reaches waits p trace stand) (hasked : AskedAfter trace stand before q) :
    fits (past ++ before) q := by
  induction hrun generalizing past before with
  | done a =>
      rcases hasked with ⟨answer, after, hsplit⟩ | ⟨-, hstand⟩
      · simp at hsplit
      · cases hstand
  | waiting hwaits =>
      rcases hasked with ⟨answer, after, hsplit⟩ | ⟨rfl, hstand⟩
      · simp at hsplit
      · cases hstand
        cases h with
        | ask hq hnext => rwa [List.append_nil]
  | @answered q' next trace stand answer hrun ih =>
      cases h with
      | ask hq hnext =>
          rcases askedAfter_cons hasked with ⟨rfl, rfl⟩ | ⟨middle, rfl, hmiddle⟩
          · rwa [List.append_nil]
          · have hfits := ih (hnext answer) hmiddle
            rwa [List.append_assoc] at hfits

/-!
# Asks of one sort
-/

/-- Whatever it is answered, a program asks for nothing else. -/
inductive Only (sort : Ask → Prop) : Program Answer α → Prop where
  | done (a : α) : Only sort (.done a)
  | ask {q : Ask} {next : Answer q → Program Answer α} (hq : sort q)
      (h : ∀ answer, Only sort (next answer)) : Only sort (.ask q next)

namespace Only

variable {sort : Ask → Prop} {β : Type}

theorem bind {p : Program Answer α} {f : α → Program Answer β} (hp : Only sort p)
    (hf : ∀ a, Only sort (f a)) : Only sort (p >>= f) := by
  induction hp with
  | done a => exact hf a
  | ask hq h ih => exact .ask hq ih

/-- Asks of a sort are also of any wider one. -/
theorem mono {wider : Ask → Prop} {p : Program Answer α} (hp : Only sort p)
    (hwider : ∀ q, sort q → wider q) : Only wider p := by
  induction hp with
  | done a => exact .done a
  | ask hq h ih => exact .ask (hwider _ hq) ih

/-- In a run of the program all that was asked is of the sort, and so is what it waits for. -/
theorem of_reaches {waits : Ask → Prop} {p : Program Answer α} {trace : Trace Answer}
    {stand : Stand Ask α} (h : Only sort p) (hrun : Reaches waits p trace stand) :
    (∀ e ∈ trace, sort e.ask) ∧ ∀ q, stand = .waiting q → sort q := by
  induction hrun with
  | done a => exact ⟨List.forall_mem_nil _, nofun⟩
  | waiting hwaits =>
      cases h with
      | ask hq hnext =>
          refine ⟨List.forall_mem_nil _, ?_⟩
          rintro _ ⟨⟩
          exact hq
  | answered answer hrun ih =>
      cases h with
      | ask hq hnext =>
          rcases ih (hnext answer) with ⟨htrace, hstand⟩
          exact ⟨List.forall_mem_cons.2 ⟨hq, htrace⟩, hstand⟩

end Only

/-!
# Programs that are watched
-/

/-- Whoever watches a program keeps a state of what it has been answered. Each ask is allowed in
the state that it comes in, and what the program ends with fits the last state. -/
inductive Watched {σ : Type} (after : σ → Event Answer → σ) (allows : σ → Ask → Prop)
    (ends : σ → α → Prop) : σ → Program Answer α → Prop where
  | done {s : σ} {a : α} (h : ends s a) : Watched after allows ends s (.done a)
  | ask {s : σ} {q : Ask} {next : Answer q → Program Answer α} (hq : allows s q)
      (h : ∀ answer, Watched after allows ends (after s ⟨q, answer⟩) (next answer)) :
      Watched after allows ends s (.ask q next)

namespace Watched

variable {σ : Type} {after : σ → Event Answer → σ} {allows : σ → Ask → Prop}
  {ends : σ → α → Prop} {s : σ} {p : Program Answer α}

/-- What the watcher allows are asks that fit what was before. -/
theorem heeds (h : Watched after allows ends s p) {past : Trace Answer} {start : σ}
    (hs : past.foldl after start = s) :
    Heeds (fun past q => allows (past.foldl after start) q) past p := by
  induction h generalizing past with
  | done hends => exact .done _
  | ask hq h ih =>
      subst hs
      refine .ask hq fun answer => ih answer ?_
      rw [List.foldl_append]
      rfl

theorem ends_of_reaches {waits : Ask → Prop} {trace : Trace Answer} {a : α}
    (h : Watched after allows ends s p) (hrun : Reaches waits p trace (.done a)) :
    ends (trace.foldl after s) a := by
  generalize hstand : Stand.done a = stand at hrun
  induction hrun generalizing s with
  | done b =>
      cases hstand
      cases h with
      | done hends => exact hends
  | waiting hwaits => cases hstand
  | answered answer hrun ih =>
      cases h with
      | ask hq hnext => exact ih (hnext answer) hstand

end Watched
end Program
end GridClient
