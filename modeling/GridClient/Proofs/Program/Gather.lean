import GridClient.Proofs.Program.Reach

/-!
# Programs side by side

Several programs, each at a place of its own, are run side by side until all are done. At
each moment any one of them may get its next answer; one that is done hands over its result
and leaves. The results are gathered in the order in which the programs leave, and nothing
is handed over before all programs have left.
-/

namespace GridClient
namespace Program

variable {Ask : Type} {Answer : Ask → Type} {α : Type}

/-- The results that the open programs can leave behind, in the order of their leaving. -/
inductive Gathers : List (Nat × Program Answer α) → List (Nat × α) → Prop where
  | none : Gathers [] []
  | answered {before after : List (Nat × Program Answer α)} {place : Nat} {q : Ask}
      {next : Answer q → Program Answer α} {results : List (Nat × α)} (answer : Answer q)
      (h : Gathers (before ++ (place, next answer) :: after) results) :
      Gathers (before ++ (place, .ask q next) :: after) results
  | leaves {before after : List (Nat × Program Answer α)} {place : Nat} {a : α}
      {results : List (Nat × α)} (h : Gathers (before ++ after) results) :
      Gathers (before ++ (place, .done a) :: after) ((place, a) :: results)

namespace Gathers

variable {programs : List (Nat × Program Answer α)} {results : List (Nat × α)}

/-- Every program leaves exactly once. -/
theorem places_perm (h : Gathers programs results) :
    (results.map Prod.fst).Perm (programs.map Prod.fst) := by
  induction h with
  | none => exact .refl []
  | answered answer h ih => simpa using ih
  | @leaves before after place a results h ih =>
      have hcons : ((place, a) :: results).map Prod.fst = place :: results.map Prod.fst := rfl
      rw [hcons, List.map_append, List.map_cons]
      rw [List.map_append] at ih
      exact (ih.cons place).trans List.perm_middle.symm

/-- What a program leaves behind is what it has come to. -/
theorem reaches (waits : Ask → Prop) (h : Gathers programs results) :
    ∀ result ∈ results, ∃ p : Program Answer α, (result.1, p) ∈ programs ∧
      ∃ trace, Reaches waits p trace (.done result.2) := by
  induction h with
  | none => simp
  | @answered before after place q next results answer h ih =>
      intro result hresult
      rcases ih result hresult with ⟨p, hmem, trace, hrun⟩
      simp only [List.mem_append, List.mem_cons] at hmem ⊢
      rcases hmem with hbefore | hhere | hafter
      · exact ⟨p, Or.inl hbefore, trace, hrun⟩
      · rcases Prod.mk.inj hhere with ⟨hplace, rfl⟩
        exact ⟨_, Or.inr (Or.inl (hplace ▸ rfl)), _, .answered answer hrun⟩
      · exact ⟨p, Or.inr (Or.inr hafter), trace, hrun⟩
  | @leaves before after place a results h ih =>
      intro result hresult
      rcases List.mem_cons.1 hresult with rfl | hresult
      · exact ⟨.done a, by simp, [], .done a⟩
      · rcases ih result hresult with ⟨p, hmem, hrun⟩
        refine ⟨p, ?_, hrun⟩
        rw [List.mem_append] at hmem ⊢
        exact hmem.imp_right (List.mem_cons_of_mem _)

/-- Any program may be the first to leave, if it is run first. -/
theorem first {waits : Ask → Prop} (before after : List (Nat × Program Answer α)) {place : Nat}
    {p : Program Answer α} {trace : Trace Answer} {a : α}
    (hrun : Reaches waits p trace (.done a)) (h : Gathers (before ++ after) results) :
    Gathers (before ++ (place, p) :: after) ((place, a) :: results) := by
  generalize hstand : Stand.done a = stand at hrun
  induction hrun with
  | done b =>
      cases hstand
      exact .leaves h
  | waiting hq => cases hstand
  | answered answer hrun ih => exact .answered answer (ih hstand)

end Gathers

end Program
end GridClient
