import GridClient.Call.Bulk
import Mathlib.Data.List.Induction
import Mathlib.Data.List.Nodup

/-!
# Groups

Items are grouped by the node that owns their keys. Each group holds the items for one
target, in the order in which they were given, so items with one key always go together.
-/

namespace GridClient
namespace BulkRequest

variable {op : OpCode} {ι : Type} {b : Batching op ι} {t : Topology} {failed : List NodeAddress}

theorem partition_concat (items : List ι) (item : ι) :
    partition b t failed (items ++ [item]) =
      Table.alter (partition b t failed items) (Target.forKey (b.key item) t failed)
        fun group => group.getD [] ++ [item] :=
  List.foldl_append

theorem nodup_partition (items : List ι) : (Table.keys (partition b t failed items)).Nodup := by
  induction items using List.reverseRecOn with
  | nil => exact List.nodup_nil
  | append_singleton items item ih =>
      rw [partition_concat]
      exact Table.nodup_keys_alter ih _ _

theorem get?_partition (items : List ι) (target : Target) :
    ((partition b t failed items).get? target).getD [] =
      items.filter fun item => Target.forKey (b.key item) t failed = target := by
  induction items using List.reverseRecOn with
  | nil => rfl
  | append_singleton items item ih =>
      rw [partition_concat, List.filter_append, ← ih]
      by_cases h : Target.forKey (b.key item) t failed = target
      · subst h
        rw [Table.get?_alter_self]
        simp
      · rw [Table.get?_alter_of_ne _ _ fun heq => h heq.symm]
        simp [h]

theorem ne_nil_of_get?_partition {items group : List ι} {target : Target}
    (h : (partition b t failed items).get? target = some group) : group ≠ [] := by
  induction items using List.reverseRecOn generalizing group with
  | nil => cases h
  | append_singleton items item ih =>
      rw [partition_concat] at h
      by_cases htarget : target = Target.forKey (b.key item) t failed
      · subst htarget
        rw [Table.get?_alter_self] at h
        cases h
        simp
      · rw [Table.get?_alter_of_ne _ _ htarget] at h
        exact ih h

/-- The groups are what is for each target, where that is anything. -/
theorem mem_partition {items group : List ι} {target : Target} :
    (target, group) ∈ partition b t failed items ↔
      group ≠ [] ∧ group = items.filter fun item => Target.forKey (b.key item) t failed = target := by
  rw [← Table.get?_eq_some_iff (nodup_partition items), ← get?_partition]
  constructor
  · intro h
    refine ⟨ne_nil_of_get?_partition h, ?_⟩
    rw [h]
    rfl
  · intro h
    rcases h with ⟨hne, heq⟩
    cases hget : (partition b t failed items).get? target with
    | none => rw [hget] at heq; exact absurd heq hne
    | some found => rw [hget] at heq; rw [heq]; rfl

/-!
# Items with one key
-/

/-- A list without repetitions keeps one entry if only that one passes a test. -/
theorem filter_eq_singleton {α : Type} {xs : List α} {x : α} {p : α → Bool} (hxs : xs.Nodup)
    (hx : x ∈ xs) (hpx : p x = true) (hp : ∀ y ∈ xs, p y = true → y = x) :
    xs.filter p = [x] := by
  have hall : xs.filter p = List.replicate (xs.filter p).length x := by
    rw [List.eq_replicate_iff]
    refine ⟨rfl, ?_⟩
    intro y hy
    rcases List.mem_filter.1 hy with ⟨hmem, hpy⟩
    exact hp y hmem hpy
  have hle : (xs.filter p).length ≤ 1 := by
    rw [← List.nodup_replicate (a := x), ← hall]
    exact hxs.filter p
  have hpos : 0 < (xs.filter p).length :=
    List.length_pos_of_mem (List.mem_filter.2 ⟨hx, hpx⟩)
  rw [hall, Nat.le_antisymm hle hpos]
  rfl

/-- Items with one key are all in one group, in the order in which they were given, and
no other group holds any of them. -/
theorem filter_partition {items : List ι} {p : ι → Bool} {key : Bytes}
    (hp : ∀ item ∈ items, p item = true → b.key item = key) (hitems : items.filter p ≠ []) :
    ∃ group, ((partition b t failed items).map Prod.snd).filter (fun g => g.any p) = [group] ∧
      group.filter p = items.filter p := by
  have htarget : ∀ item ∈ items, p item = true →
      Target.forKey (b.key item) t failed = Target.forKey key t failed := by
    intro item hmem hitem
    rw [hp item hmem hitem]
  have hfilter : (items.filter fun item => Target.forKey (b.key item) t failed =
      Target.forKey key t failed).filter p = items.filter p := by
    rw [List.filter_filter]
    apply List.filter_congr
    intro item hmem
    cases hitem : p item with
    | false => rfl
    | true => simp [htarget item hmem hitem]
  have hgroup : (Target.forKey key t failed, items.filter fun item =>
      Target.forKey (b.key item) t failed = Target.forKey key t failed) ∈
        partition b t failed items := by
    refine mem_partition.2 ⟨?_, rfl⟩
    intro hnil
    rw [hnil] at hfilter
    exact hitems hfilter.symm
  have hnodup : (partition b t failed items).Nodup :=
    List.Nodup.of_map Prod.fst (nodup_partition items)
  refine ⟨_, ?_, hfilter⟩
  rw [List.filter_map, filter_eq_singleton hnodup hgroup]
  · rfl
  · rw [Function.comp_apply, List.any_eq_true]
    rcases List.exists_mem_of_ne_nil _ hitems with ⟨item, hitem⟩
    rw [← hfilter] at hitem
    exact ⟨item, List.mem_filter.1 hitem⟩
  · intro other hother hany
    rcases other with ⟨target, group⟩
    rcases List.any_eq_true.1 hany with ⟨item, hmem, hitem⟩
    rcases (mem_partition.1 hother).2 with rfl
    rcases List.mem_filter.1 hmem with ⟨hgiven, heq⟩
    rw [decide_eq_true_eq, htarget item hgiven hitem] at heq
    rw [heq]

/-- A group holds nothing but items that were given. -/
theorem mem_of_mem_partition {items : List ι} {group : Target × List ι} {item : ι}
    (hgroup : group ∈ partition b t failed items) (hitem : item ∈ group.2) : item ∈ items := by
  rw [(mem_partition.1 hgroup).2] at hitem
  exact (List.mem_filter.1 hitem).1

end BulkRequest
end GridClient
