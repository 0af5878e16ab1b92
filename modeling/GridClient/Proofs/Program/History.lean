import Mathlib.Data.List.Induction

/-!
# Histories

A history is a list of what has happened, the latest last. Something may have happened
and not have been undone since.
-/

namespace GridClient

variable {α : Type} {hit undo : α → Prop} {history : List α} {y : α}

/-- What stands somewhere in a history was the latest then, or has been there before. -/
theorem concat_eq_append_cons {before after : List α} {x : α} :
    history ++ [y] = before ++ x :: after ↔
      (history = before ∧ y = x ∧ after = []) ∨
        ∃ middle, after = middle ++ [y] ∧ history = before ++ x :: middle := by
  constructor
  · intro h
    rcases List.eq_nil_or_concat after with rfl | ⟨middle, z, rfl⟩
    · rcases List.append_inj' h rfl with ⟨hbefore, hlast⟩
      exact Or.inl ⟨hbefore, List.singleton_inj.1 hlast, rfl⟩
    · have hsplit : history ++ [y] = (before ++ x :: middle) ++ [z] := by simpa using h
      rcases List.append_inj' hsplit rfl with ⟨hbefore, hlast⟩
      rw [List.singleton_inj.1 hlast]
      exact Or.inr ⟨middle, List.concat_eq_append, hbefore⟩
  · intro hplace
    rcases hplace with ⟨rfl, rfl, rfl⟩ | ⟨middle, rfl, rfl⟩
    · rfl
    · simp

/-- Something has happened, and nothing has undone it since. -/
def Since (hit undo : α → Prop) (history : List α) : Prop :=
  ∃ before x after, history = before ++ x :: after ∧ hit x ∧ ∀ y ∈ after, ¬ undo y

theorem not_since_nil : ¬ Since hit undo [] := by
  intro hsince
  rcases hsince with ⟨before, x, after, h, -⟩
  simp at h

theorem since_concat :
    Since hit undo (history ++ [y]) ↔ hit y ∨ (Since hit undo history ∧ ¬ undo y) := by
  constructor
  · intro hsince
    rcases hsince with ⟨before, x, after, h, hx, hafter⟩
    rcases concat_eq_append_cons.1 h with ⟨-, rfl, -⟩ | ⟨middle, rfl, rfl⟩
    · exact Or.inl hx
    · rw [List.forall_mem_append] at hafter
      exact Or.inr ⟨⟨before, x, middle, rfl, hx, hafter.1⟩, hafter.2 y (List.mem_singleton_self y)⟩
  · intro hsince
    rcases hsince with hy | ⟨⟨before, x, after, rfl, hx, hafter⟩, hy⟩
    · exact ⟨history, y, [], rfl, hy, by simp⟩
    · refine ⟨before, x, after ++ [y], by simp, hx, ?_⟩
      rw [List.forall_mem_append]
      refine ⟨hafter, ?_⟩
      intro z hz
      rw [List.mem_singleton.1 hz]
      exact hy

end GridClient
