import GridClient.Reader

/-!
# What a reader ensures

A property of the values that a reader accepts, put together from those of its parts.
-/

namespace GridClient
namespace Reader

variable {α β : Type}

def Ensures (r : Reader α) (P : α → Prop) : Prop :=
  ∀ buffer a rest, r buffer = (.ok a, rest) → P a

variable {r : Reader α} {P : α → Prop}

theorem ensures_true (r : Reader α) : r.Ensures fun _ => True :=
  fun _ _ _ _ => trivial

theorem ensures_pure {a : α} (h : P a) : (pure a : Reader α).Ensures P := by
  intro buffer b rest hread
  cases hread
  exact h

theorem ensures_fault (f : ProtocolFault) : (fault f : Reader α).Ensures P :=
  nofun

theorem Ensures.bind {next : α → Reader β} {Q : β → Prop} (hr : r.Ensures P)
    (hnext : ∀ a, P a → (next a).Ensures Q) : (r >>= next).Ensures Q := by
  intro buffer b rest h
  rcases hfirst : r buffer with ⟨e | a, middle⟩
  · rw [bind_run_error next hfirst] at h
    cases h
  · rw [bind_run_ok next hfirst] at h
    exact hnext a (hr _ _ _ hfirst) _ _ _ h

theorem ensures_take (n : Nat) (field : String) :
    (take n field).Ensures fun taken => taken.length = n := by
  intro buffer taken rest h
  unfold take at h
  split at h
  · next hlength =>
    cases h
    exact hlength
  · cases h

theorem ensures_manyFrom {r : Nat → Reader α} (hr : ∀ i, (r i).Ensures P) (i n : Nat) :
    (manyFrom r i n).Ensures fun as => as.length = n ∧ ∀ a ∈ as, P a := by
  induction n generalizing i with
  | zero => exact ensures_pure ⟨rfl, nofun⟩
  | succ n ih =>
      refine (hr i).bind fun a ha => (ih (i + 1)).bind fun as has => ensures_pure ?_
      exact ⟨congrArg Nat.succ has.1, List.forall_mem_cons.2 ⟨ha, has.2⟩⟩

theorem Ensures.many (hr : r.Ensures P) (n : Nat) :
    (many n r).Ensures fun as => as.length = n ∧ ∀ a ∈ as, P a := by
  rw [many_eq_manyFrom r 0]
  exact ensures_manyFrom (fun _ => hr) 0 n

end Reader
end GridClient
