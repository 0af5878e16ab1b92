/-!
# Tables

Association lists. A key appears once, at the place where it was first inserted.
-/

namespace GridClient

abbrev Table (κ α : Type) := List (κ × α)

namespace Table

variable {κ α : Type} [DecidableEq κ]

def get? (t : Table κ α) (k : κ) : Option α :=
  match t with
  | [] => none
  | (key, a) :: rest => if key = k then some a else get? rest k

def contains (t : Table κ α) (k : κ) : Bool :=
  (get? t k).isSome

/-- Puts in what `f` makes of the value at the key, if there is one. -/
def alter (t : Table κ α) (k : κ) (f : Option α → α) : Table κ α :=
  match t with
  | [] => [(k, f none)]
  | (key, a) :: rest => if key = k then (key, f (some a)) :: rest else (key, a) :: alter rest k f

def insert (t : Table κ α) (k : κ) (a : α) : Table κ α :=
  alter t k fun _ => a

def merge (t s : Table κ α) : Table κ α :=
  s.foldl (fun t (k, a) => insert t k a) t

def keys (t : Table κ α) : List κ :=
  t.map Prod.fst

/-- The entries in an order of their keys. -/
def sortedBy (before : κ → κ → Bool) (t : Table κ α) : List (κ × α) :=
  t.mergeSort fun a b => before a.1 b.1

@[simp] theorem get?_nil (k : κ) : get? ([] : Table κ α) k = none :=
  rfl

theorem get?_alter_self (t : Table κ α) (k : κ) (f : Option α → α) :
    get? (alter t k f) k = some (f (get? t k)) := by
  induction t with
  | nil => simp [alter, get?]
  | cons entry rest ih =>
      obtain ⟨key, a⟩ := entry
      by_cases h : key = k <;> simp [alter, get?, h, ih]

theorem get?_alter_of_ne (t : Table κ α) {k j : κ} (f : Option α → α) (h : j ≠ k) :
    get? (alter t k f) j = get? t j := by
  induction t with
  | nil => simp [alter, get?, h.symm]
  | cons entry rest ih =>
      obtain ⟨key, a⟩ := entry
      by_cases hk : key = k
      · subst hk
        simp [alter, get?, h.symm]
      · by_cases hj : key = j
        · subst hj
          simp [alter, get?, hk]
        · simp [alter, get?, hk, hj, ih]

theorem get?_insert (t : Table κ α) (k j : κ) (a : α) :
    get? (insert t k a) j = if j = k then some a else get? t j := by
  split
  · subst_vars
    exact get?_alter_self t j _
  · exact get?_alter_of_ne t _ ‹_›

theorem contains_insert (t : Table κ α) (k j : κ) (a : α) :
    contains (insert t k a) j = (decide (j = k) || contains t j) := by
  unfold contains
  rw [get?_insert]
  by_cases h : j = k <;> simp [h]

theorem get?_append (t s : Table κ α) (k : κ) : get? (t ++ s) k = (get? t k).or (get? s k) := by
  induction t with
  | nil => rfl
  | cons entry rest ih =>
      rcases entry with ⟨key, a⟩
      rw [List.cons_append, get?, get?, ih]
      split <;> rfl

/-- The last of the new entries for a key counts. -/
theorem get?_merge (t s : Table κ α) (k : κ) :
    get? (merge t s) k = (get? s.reverse k).or (get? t k) := by
  induction s generalizing t with
  | nil => rfl
  | cons entry rest ih =>
      rcases entry with ⟨key, a⟩
      have hmerge : merge t ((key, a) :: rest) = merge (insert t key a) rest := rfl
      rw [hmerge, ih, get?_insert, List.reverse_cons, get?_append, Option.or_assoc]
      congr 1
      by_cases h : key = k
      · rw [if_pos h.symm, get?, if_pos h]
        rfl
      · rw [if_neg fun heq => h heq.symm, get?, if_neg h]
        rfl

/-!
# Keys
-/

theorem keys_alter (t : Table κ α) (k : κ) (f : Option α → α) :
    keys (alter t k f) = if k ∈ keys t then keys t else keys t ++ [k] := by
  induction t with
  | nil => rfl
  | cons entry rest ih =>
      obtain ⟨key, a⟩ := entry
      unfold keys at ih ⊢
      by_cases h : key = k
      · simp [alter, h]
      · have hne : ¬ k = key := fun heq => h heq.symm
        rw [alter, if_neg h, List.map_cons, ih]
        by_cases hmem : k ∈ rest.map Prod.fst <;> simp [hmem, hne]

theorem nodup_keys_alter {t : Table κ α} (h : (keys t).Nodup) (k : κ) (f : Option α → α) :
    (keys (alter t k f)).Nodup := by
  rw [keys_alter]
  split
  · exact h
  · next hnew =>
    rw [List.nodup_append]
    refine ⟨h, by simp, ?_⟩
    intro j hj i hi heq
    rcases List.mem_singleton.1 hi with rfl
    exact hnew (heq ▸ hj)

theorem mem_of_get?_eq_some {t : Table κ α} {k : κ} {a : α} (h : get? t k = some a) :
    (k, a) ∈ t := by
  induction t with
  | nil => cases h
  | cons entry rest ih =>
      rcases entry with ⟨key, b⟩
      rw [get?] at h
      split at h
      · next hkey =>
        cases h
        rw [hkey]
        exact List.mem_cons_self
      · exact List.mem_cons_of_mem _ (ih h)

theorem get?_eq_some_iff {t : Table κ α} (h : (keys t).Nodup) {k : κ} {a : α} :
    get? t k = some a ↔ (k, a) ∈ t := by
  induction t with
  | nil => simp
  | cons entry rest ih =>
      obtain ⟨key, b⟩ := entry
      rw [keys, List.map_cons, List.nodup_cons] at h
      rw [get?, List.mem_cons, Prod.mk.injEq]
      by_cases hk : key = k
      · subst hk
        have hrest : (key, a) ∉ rest := fun hmem => h.1 (List.mem_map.2 ⟨_, hmem, rfl⟩)
        simp [hrest, eq_comm]
      · have hne : ¬ k = key := fun heq => hk heq.symm
        rw [if_neg hk, ih h.2]
        simp [hne]

end Table
end GridClient
