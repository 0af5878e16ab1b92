/-!
# Programs

A program is a value: either it is done, or it asks for something and goes on
with the answer. Who answers, and when, is not part of the program, so that one
program can be run against every kind of surroundings.
-/

namespace GridClient

inductive Program {Ask : Type} (Answer : Ask → Type) (α : Type) : Type where
  | done (a : α)
  | ask (q : Ask) (next : Answer q → Program Answer α)

namespace Program

variable {Ask : Type} {Answer : Ask → Type} {α β γ : Type}

def andThen : Program Answer α → (α → Program Answer β) → Program Answer β
  | done a, f => f a
  | ask q next, f => ask q fun answer => andThen (next answer) f

instance : Monad (Program Answer) where
  pure := done
  bind := andThen

@[simp] theorem done_bind (a : α) (f : α → Program Answer β) :
    (done a : Program Answer α) >>= f = f a :=
  rfl

@[simp] theorem ask_bind (q : Ask) (next : Answer q → Program Answer α)
    (f : α → Program Answer β) :
    ask q next >>= f = ask q fun answer => next answer >>= f :=
  rfl

theorem bind_done (p : Program Answer α) : p >>= done = p := by
  induction p with
  | done a => rfl
  | ask q next ih => simp [ih]

theorem bind_bind (p : Program Answer α) (f : α → Program Answer β)
    (g : β → Program Answer γ) : p >>= f >>= g = p >>= fun a => f a >>= g := by
  induction p with
  | done a => rfl
  | ask q next ih => simp [ih]

end Program
end GridClient
