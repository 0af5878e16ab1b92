import GridClient.Proofs.Frame.Faults
import GridClient.Proofs.Reader.Exact
import Mathlib.Data.Nat.Digits.Lemmas

/-!
# Numbers in groups

A number comes in groups of seven bits, as many as the sender likes. A reader of 64 bits takes ten
of them at most, but of the tenth group only the lowest bit has a place left. So a number of ten
groups can be too wide and still be accepted, without its high bits; all other numbers are read
exactly, or they are rejected.
-/

namespace GridClient

open Reader

theorem Reader.OnlyFaults.rejects_iff {α : Type} {r : Reader α} (h : r.OnlyFaults)
    {buffer : Bytes} : r.Rejects buffer ↔ ¬ ∃ a rest, r buffer = (.ok a, rest) := by
  constructor
  · rintro ⟨f, left, hreject⟩ ⟨a, rest, hread⟩
    rw [hreject] at hread
    cases hread
  · intro hnone
    rcases hread : r buffer with ⟨e | a, rest⟩
    · rcases h buffer e (congrArg Prod.fst hread) with ⟨f, rfl⟩
      exact ⟨f, rest, hread⟩
    · exact absurd ⟨a, rest, hread⟩ hnone

namespace Varint

/-!
# Groups and their sum
-/

/-- The bytes of one number: all but the last one have their high bit set. -/
inductive Spelled : Bytes → Prop where
  | last {b : UInt8} (h : b < 0x80) : Spelled [b]
  | more {b : UInt8} {later : Bytes} (h : ¬ b < 0x80) (hlater : Spelled later) :
      Spelled (b :: later)

/-- The number whose base-128 digits, least significant first, are the groups. -/
def total (taken : Bytes) : Nat :=
  Nat.ofDigits 128 (taken.map fun b => b.toNat % 128)

/-- Ten groups, and more than one bit in the last of them. -/
def Overfull (taken : Bytes) : Prop :=
  taken.length = 10 ∧ ∃ b ∈ taken.getLast?, 1 < b

theorem total_cons (b : UInt8) (later : Bytes) :
    total (b :: later) = b.toNat % 128 + 128 * total later :=
  Nat.ofDigits_cons

theorem total_concat (low : Bytes) (b : UInt8) :
    total (low ++ [b]) = total low + 128 ^ low.length * (b.toNat % 128) := by
  unfold total
  rw [List.map_append, Nat.ofDigits_append, List.length_map, List.map_singleton,
    Nat.ofDigits_singleton]

theorem total_lt (taken : Bytes) : total taken < 128 ^ taken.length := by
  have hdigits : ∀ d ∈ taken.map fun b => b.toNat % 128, d < 128 := by
    intro d hd
    rcases List.mem_map.1 hd with ⟨b, -, rfl⟩
    exact Nat.mod_lt _ (by decide)
  have hlt := Nat.ofDigits_lt_base_pow_length (by decide) hdigits
  rwa [List.length_map] at hlt

variable {taken taken' rest rest' buffer : Bytes}

theorem spelled_iff :
    Spelled taken ↔ ∃ low b, taken = low ++ [b] ∧ (∀ c ∈ low, ¬ c < 0x80) ∧ b < 0x80 := by
  constructor
  · intro h
    induction h with
    | @last b h => exact ⟨[], b, rfl, nofun, h⟩
    | @more first later h _ ih =>
        rcases ih with ⟨low, b, rfl, hlow, hb⟩
        exact ⟨first :: low, b, rfl, List.forall_mem_cons.2 ⟨h, hlow⟩, hb⟩
  · rintro ⟨low, b, rfl, hlow, hb⟩
    induction low with
    | nil => exact .last hb
    | cons first low ih =>
        rcases List.forall_mem_cons.1 hlow with ⟨hfirst, hlow⟩
        exact .more hfirst (ih hlow)

/-- A number ends at its first byte without the high bit. -/
theorem Spelled.append_inj (h : Spelled taken) (h' : Spelled taken')
    (heq : taken ++ rest = taken' ++ rest') : taken = taken' := by
  induction h generalizing taken' with
  | last h =>
      cases h' with
      | last h' =>
          injection heq with hb _
          rw [hb]
      | more h' _ =>
          injection heq with hb _
          exact absurd (hb ▸ h) h'
  | more h _ ih =>
      cases h' with
      | last h' =>
          injection heq with hb _
          exact absurd (hb ▸ h') h
      | more h' hlater' =>
          injection heq with hb hlater
          rw [hb, ih hlater' hlater]

theorem overfull_iff (h : Spelled taken) :
    Overfull taken ↔ taken.length ≤ 10 ∧ 2 ^ 64 ≤ total taken := by
  rcases spelled_iff.1 h with ⟨low, b, rfl, -, hb⟩
  have hb : b.toNat < 128 := UInt8.lt_iff_toNat_lt.1 hb
  have hlow := total_lt low
  have hsum := total_concat low b
  rw [Nat.mod_eq_of_lt hb] at hsum
  unfold Overfull
  rw [List.getLast?_concat, List.length_append, List.length_singleton]
  simp only [Option.mem_some, exists_eq_left', UInt8.lt_iff_toNat_lt]
  show low.length + 1 = 10 ∧ 1 < b.toNat ↔ _
  constructor
  · rintro ⟨hten, hone⟩
    have hnine : low.length = 9 := by omega
    rw [hnine] at hsum
    omega
  · rintro ⟨hten, hwide⟩
    by_cases hnine : low.length = 9
    · rw [hnine] at hsum hlow
      omega
    · -- fewer groups do not make so large a number
      have hpow : 128 ^ (low.length + 1) ≤ 128 ^ 9 := Nat.pow_le_pow_right (by decide) (by omega)
      have hlt := total_lt (low ++ [b])
      rw [List.length_append, List.length_singleton] at hlt
      omega

/-!
# Reading groups
-/

theorem groups_cons (left shift sum : Nat) (b : UInt8) (buffer : Bytes) :
    groups (left + 1) shift sum (b :: buffer) =
      if b < 0x80 then (.ok (sum + b.toNat % 128 * 2 ^ shift), buffer)
      else groups left (shift + 7) (sum + b.toNat % 128 * 2 ^ shift) buffer := by
  show (if b < 0x80 then pure _ else groups left (shift + 7) _ : Reader Nat) buffer = _
  split
  · rfl
  · rfl

theorem reads_groups_spelled (h : Spelled taken) {left : Nat} (hlength : taken.length ≤ left)
    (shift sum : Nat) :
    (groups left shift sum).Reads taken (sum + total taken * 2 ^ shift) := by
  induction h generalizing left shift sum with
  | @last b h =>
      rcases Nat.exists_eq_succ_of_ne_zero (Nat.ne_of_gt hlength) with ⟨left, rfl⟩
      rw [total_cons]
      apply Reads.byte_bind
      dsimp only
      rw [if_pos h]
      exact reads_pure _
  | @more b later h hlater ih =>
      rw [List.length_cons] at hlength
      rcases Nat.exists_eq_succ_of_ne_zero (show left ≠ 0 by omega) with ⟨left, rfl⟩
      have hsum : sum + total (b :: later) * 2 ^ shift =
          sum + b.toNat % 128 * 2 ^ shift + total later * 2 ^ (shift + 7) := by
        rw [total_cons, Nat.pow_add]
        ring
      rw [hsum]
      apply Reads.byte_bind
      dsimp only
      rw [if_neg h]
      exact ih (by omega) _ _

/-- What is read is a number that ends within the groups that are left. -/
theorem spelled_of_groups {left shift sum n : Nat}
    (h : groups left shift sum buffer = (.ok n, rest)) :
    ∃ taken, buffer = taken ++ rest ∧ Spelled taken ∧ taken.length ≤ left := by
  induction left generalizing shift sum buffer with
  | zero => cases h
  | succ left ih =>
      cases buffer with
      | nil => cases h
      | cons b buffer =>
          rw [groups_cons] at h
          split at h
          · next hlast =>
            cases h
            exact ⟨[b], rfl, .last hlast, Nat.le_add_left _ _⟩
          · next hmore =>
            rcases ih h with ⟨taken, rfl, htaken, hlength⟩
            exact ⟨b :: taken, rfl, .more hmore htaken, Nat.succ_le_succ hlength⟩

/-!
# Reading numbers
-/

theorem reads_uint64_spelled (h : Spelled taken) (hlength : taken.length ≤ 10) :
    uint64.Reads taken (UInt64.ofNat (total taken)) := by
  have hread := (reads_groups_spelled h hlength 0 0).bind_pure UInt64.ofNat
  rwa [Nat.zero_add, Nat.pow_zero, Nat.mul_one] at hread

theorem uint64_eq_ok_iff {v : UInt64} :
    uint64 buffer = (.ok v, rest) ↔
      ∃ taken, buffer = taken ++ rest ∧ Spelled taken ∧ taken.length ≤ 10 ∧
        v.toNat = total taken % 2 ^ 64 := by
  constructor
  · intro h
    rcases hgroups : groups 10 0 0 buffer with ⟨e | n, rest'⟩
    · rw [uint64, bind_run_error _ hgroups] at h
      cases h
    · rcases spelled_of_groups hgroups with ⟨taken, rfl, htaken, hlength⟩
      rw [reads_uint64_spelled htaken hlength rest'] at h
      cases h
      exact ⟨taken, rfl, htaken, hlength, UInt64.toNat_ofNat'⟩
  · rintro ⟨taken, rfl, htaken, hlength, hv⟩
    have hvalue : UInt64.ofNat (total taken) = v := by
      apply UInt64.toNat_inj.1
      rw [UInt64.toNat_ofNat', hv]
    rw [reads_uint64_spelled htaken hlength rest, hvalue]

theorem uint32_eq_ok_iff_uint64 {v : UInt32} :
    uint32 buffer = (.ok v, rest) ↔
      ∃ n, uint64 buffer = (.ok n, rest) ∧ n.toNat = v.toNat := by
  constructor
  · intro h
    rcases hwide : uint64 buffer with ⟨e | n, rest'⟩
    · rw [uint32, bind_run_error _ hwide] at h
      cases h
    · rw [uint32, bind_run_ok _ hwide] at h
      split at h
      · next hfits =>
        cases h
        exact ⟨n, rfl, (UInt64.toNat_toUInt32 n ▸ Nat.mod_eq_of_lt hfits).symm⟩
      · cases h
  · rintro ⟨n, hwide, hv⟩
    have hnarrow : n.toUInt32 = v := by
      apply UInt32.toNat_inj.1
      rw [UInt64.toNat_toUInt32, hv]
      exact Nat.mod_eq_of_lt v.toNat_lt
    rw [uint32, bind_run_ok _ hwide, if_pos (hv ▸ v.toNat_lt), hnarrow]
    rfl

/-- The check of the width comes after the high bits of the tenth group are lost. -/
theorem uint32_eq_ok_iff {v : UInt32} :
    uint32 buffer = (.ok v, rest) ↔
      ∃ taken, buffer = taken ++ rest ∧ Spelled taken ∧ taken.length ≤ 10 ∧
        v.toNat = total taken % 2 ^ 64 := by
  rw [uint32_eq_ok_iff_uint64]
  constructor
  · rintro ⟨n, hwide, hv⟩
    rcases uint64_eq_ok_iff.1 hwide with ⟨taken, hbuffer, htaken, hlength, hn⟩
    exact ⟨taken, hbuffer, htaken, hlength, hv ▸ hn⟩
  · rintro ⟨taken, hbuffer, htaken, hlength, hv⟩
    have hn : v.toUInt64.toNat = v.toNat := UInt32.toNat_toUInt64 v
    exact ⟨v.toUInt64, uint64_eq_ok_iff.2 ⟨taken, hbuffer, htaken, hlength, hn.trans hv⟩, hn⟩

theorem rejects_uint64_iff (h : Spelled taken) :
    uint64.Rejects (taken ++ rest) ↔ 10 < taken.length := by
  rw [onlyFaults_uint64.rejects_iff]
  constructor
  · intro hnone
    apply Nat.lt_of_not_le
    intro hlength
    exact hnone ⟨_, rest, reads_uint64_spelled h hlength rest⟩
  · rintro hlong ⟨v, rest', hread⟩
    rcases uint64_eq_ok_iff.1 hread with ⟨taken', heq, htaken', hlength, -⟩
    rw [h.append_inj htaken' heq] at hlong
    omega

theorem rejects_uint32_iff (h : Spelled taken) :
    uint32.Rejects (taken ++ rest) ↔ ¬ (taken.length ≤ 10 ∧ total taken % 2 ^ 64 < 2 ^ 32) := by
  rw [onlyFaults_uint32.rejects_iff, not_iff_not]
  constructor
  · rintro ⟨v, rest', hread⟩
    rcases uint32_eq_ok_iff.1 hread with ⟨taken', heq, htaken', hlength, hv⟩
    rw [h.append_inj htaken' heq]
    exact ⟨hlength, hv ▸ v.toNat_lt⟩
  · rintro ⟨hlength, hnarrow⟩
    have hv : (UInt32.ofNat (total taken % 2 ^ 64)).toNat = total taken % 2 ^ 64 :=
      UInt32.toNat_ofNat_of_lt' hnarrow
    exact ⟨_, rest, uint32_eq_ok_iff.2 ⟨taken, rfl, h, hlength, hv⟩⟩

/-- The value of a number is the sum of its groups unless the number is overfull. -/
theorem eq_total_iff (h : Spelled taken) (hlength : taken.length ≤ 10) {n : Nat}
    (hn : n = total taken % 2 ^ 64) : n = total taken ↔ ¬ Overfull taken := by
  rw [overfull_iff h, and_iff_right hlength, Nat.not_le, hn]
  exact Nat.mod_eq_iff_lt (by decide)

/-- Whatever the bytes are: if a reader accepts them, it has taken the bytes of one number, and its
value is the sum of the groups modulo 2 ^ 64. It is the sum itself unless the number is overfull.
Numbers of more than 64 bits are rejected unless they are overfull, and for a reader of 32 bits
those of more than 32 bits are, unless they are overfull and what remains of them has 32 bits. -/
theorem exact_or_rejected_iff (buffer : Bytes) :
    (∀ v rest, uint64 buffer = (.ok v, rest) →
      ∃ taken, buffer = taken ++ rest ∧ Spelled taken ∧ v.toNat = total taken % 2 ^ 64 ∧
        (v.toNat = total taken ↔ ¬ Overfull taken)) ∧
    (∀ v rest, uint32 buffer = (.ok v, rest) →
      ∃ taken, buffer = taken ++ rest ∧ Spelled taken ∧ v.toNat = total taken % 2 ^ 64 ∧
        (v.toNat = total taken ↔ ¬ Overfull taken)) ∧
    ∀ taken rest, buffer = taken ++ rest → Spelled taken →
      (2 ^ 64 ≤ total taken → (uint64.Rejects buffer ↔ ¬ Overfull taken)) ∧
      (2 ^ 32 ≤ total taken →
        (uint32.Rejects buffer ↔ ¬ (Overfull taken ∧ total taken % 2 ^ 64 < 2 ^ 32))) := by
  refine ⟨?_, ?_, ?_⟩
  · intro v rest hread
    rcases uint64_eq_ok_iff.1 hread with ⟨taken, hbuffer, htaken, hlength, hv⟩
    exact ⟨taken, hbuffer, htaken, hv, eq_total_iff htaken hlength hv⟩
  · intro v rest hread
    rcases uint32_eq_ok_iff.1 hread with ⟨taken, hbuffer, htaken, hlength, hv⟩
    exact ⟨taken, hbuffer, htaken, hv, eq_total_iff htaken hlength hv⟩
  · rintro taken rest rfl htaken
    rw [rejects_uint64_iff htaken, rejects_uint32_iff htaken, overfull_iff htaken]
    constructor
    · intro hwide
      omega
    · intro hwide
      -- a sum of 32 to 64 bits is not below 2 ^ 32, whatever the number of groups
      have hkept : total taken < 2 ^ 64 → total taken % 2 ^ 64 = total taken := Nat.mod_eq_of_lt
      omega

/-- 2 ^ 64 in ten groups. -/
def justTooWide : Bytes :=
  List.replicate 9 0x80 ++ [2]

/-- It is accepted as zero, also where 32 bits are asked for. -/
theorem exact_or_rejected_iff_justTooWide :
    Spelled justTooWide ∧ total justTooWide = 2 ^ 64 ∧ Overfull justTooWide ∧
      uint64 (justTooWide ++ [7]) = (.ok 0, [7]) ∧ uint32 (justTooWide ++ [7]) = (.ok 0, [7]) ∧
      (0 : UInt64).toNat ≠ total justTooWide ∧
      ¬ uint64.Rejects (justTooWide ++ [7]) ∧ ¬ uint32.Rejects (justTooWide ++ [7]) := by
  have hspelled : Spelled justTooWide := by
    refine spelled_iff.2 ⟨List.replicate 9 0x80, 2, rfl, ?_, by decide⟩
    intro b hb
    rw [List.eq_of_mem_replicate hb]
    decide
  have htotal : total justTooWide = 2 ^ 64 := by
    decide +kernel
  have hoverfull : Overfull justTooWide := ⟨rfl, 2, rfl, by decide⟩
  have hread : uint64 (justTooWide ++ [7]) = (.ok 0, [7]) := rfl
  rcases exact_or_rejected_iff (justTooWide ++ [7]) with ⟨hexact, -, hreject⟩
  rcases hexact 0 [7] hread with ⟨taken, htaken, hone, -, hsum⟩
  rcases hreject justTooWide [7] rfl hspelled with ⟨hreject64, hreject32⟩
  refine ⟨hspelled, htotal, hoverfull, hread, rfl, ?_, ?_, ?_⟩
  · cases hspelled.append_inj hone htaken
    intro hzero
    exact hsum.1 hzero hoverfull
  · rw [hreject64 (Nat.le_of_eq htotal.symm)]
    exact not_not_intro hoverfull
  · rw [hreject32 (by rw [htotal]; decide), htotal]
    exact not_not_intro ⟨hoverfull, by decide⟩

end Varint
end GridClient
