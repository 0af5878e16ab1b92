import GridClient.Reader

/-!
# What a reader takes

A reader takes some bytes off the front of its buffer and makes a value of them. It should
depend on no others: neither on the bytes that follow, nor should it be content with fewer.
-/

namespace GridClient
namespace Reader

variable {α β : Type}

/-!
# Bytes that are read as a value
-/

/-- Whatever follows these bytes, the reader takes just them and makes the value of them. -/
def Reads (r : Reader α) (taken : Bytes) (a : α) : Prop :=
  ∀ rest, r (taken ++ rest) = (.ok a, rest)

theorem Reads.unique {r : Reader α} {taken : Bytes} {a b : α} (ha : r.Reads taken a)
    (hb : r.Reads taken b) : a = b := by
  have h := (ha []).symm.trans (hb [])
  cases h
  rfl

theorem reads_pure (a : α) : (pure a : Reader α).Reads [] a :=
  fun _ => rfl

theorem Reads.bind {r : Reader α} {next : α → Reader β} {first second : Bytes} {a : α} {b : β}
    (hr : r.Reads first a) (hnext : (next a).Reads second b) :
    (r >>= next).Reads (first ++ second) b := by
  intro rest
  rw [List.append_assoc, bind_run_ok next (hr (second ++ rest))]
  exact hnext rest

/-- The last bytes are taken by `r`; what becomes of its value takes none. -/
theorem Reads.bind_nil {r : Reader α} {next : α → Reader β} {taken : Bytes} {a : α} {b : β}
    (hr : r.Reads taken a) (hnext : (next a).Reads [] b) : (r >>= next).Reads taken b := by
  have h := hr.bind hnext
  rwa [List.append_nil] at h

theorem Reads.bind_pure {r : Reader α} {taken : Bytes} {a : α} (hr : r.Reads taken a)
    (f : α → β) : (r >>= fun a => pure (f a)).Reads taken (f a) :=
  hr.bind_nil (reads_pure (f a))

theorem Reads.byte_bind {next : UInt8 → Reader α} {b : UInt8} {taken : Bytes} {a : α}
    (hnext : (next b).Reads taken a) : (byte >>= next).Reads (b :: taken) a :=
  hnext

theorem reads_take {n : Nat} {taken : Bytes} (field : String) (h : taken.length = n) :
    (take n field).Reads taken taken := by
  intro rest
  rw [take_of_le field (by simp [← h]), List.take_left' h, List.drop_left' h]

/-- What is read of an item need not be all of it. -/
theorem reads_manyFrom_map {enc : α → Bytes} {f : α → β} {r : Nat → Reader β} {as : List α}
    (h : ∀ a ∈ as, ∀ i, (r i).Reads (enc a) (f a)) (i : Nat) :
    (manyFrom r i as.length).Reads (as.map enc).flatten (as.map f) := by
  induction as generalizing i with
  | nil => exact reads_pure []
  | cons a as ih =>
      have hrest := ih (fun b hb => h b (List.mem_cons_of_mem a hb)) (i + 1)
      exact (h a List.mem_cons_self i).bind (hrest.bind_pure (List.cons (f a)))

theorem reads_manyFrom {enc : α → Bytes} {r : Nat → Reader α} {as : List α}
    (h : ∀ a ∈ as, ∀ i, (r i).Reads (enc a) a) (i : Nat) :
    (manyFrom r i as.length).Reads (as.map enc).flatten as := by
  have hread := reads_manyFrom_map (f := id) h i
  rwa [List.map_id] at hread

theorem reads_many_map {enc : α → Bytes} {f : α → β} {r : Reader β} {as : List α}
    (h : ∀ a ∈ as, r.Reads (enc a) (f a)) :
    (many as.length r).Reads (as.map enc).flatten (as.map f) := by
  rw [many_eq_manyFrom r 0]
  exact reads_manyFrom_map (fun a ha _ => h a ha) 0

theorem reads_many {enc : α → Bytes} {r : Reader α} {as : List α}
    (h : ∀ a ∈ as, r.Reads (enc a) a) : (many as.length r).Reads (as.map enc).flatten as := by
  rw [many_eq_manyFrom r 0]
  exact reads_manyFrom (fun a ha _ => h a ha) 0

theorem reads_many_byte (bytes : Bytes) : (many bytes.length byte).Reads bytes bytes := by
  have h : (many bytes.length byte).Reads (bytes.map fun b => [b]).flatten bytes :=
    reads_many fun b _ rest => rfl
  rwa [← List.flatMap_def, List.flatMap_singleton'] at h

/-!
# Bytes that are cut short
-/

/-- The first bytes of some, but not all of them. -/
def CutShort (part taken : Bytes) : Prop :=
  part <+: taken ∧ part ≠ taken

theorem not_cutShort_nil (part : Bytes) : ¬ CutShort part [] :=
  fun h => h.2 (List.prefix_nil.1 h.1)

theorem CutShort.length_lt {part taken : Bytes} (h : CutShort part taken) :
    part.length < taken.length :=
  Nat.lt_of_le_of_ne h.1.length_le fun heq => h.2 (h.1.eq_of_length heq)

/-- The cut is before the end of the first bytes, or somewhere after it. -/
theorem CutShort.of_append {part first second : Bytes} (h : CutShort part (first ++ second)) :
    CutShort part first ∨ ∃ later, part = first ++ later ∧ CutShort later second := by
  have hlater : ∀ later, part = first ++ later →
      ∃ later, part = first ++ later ∧ CutShort later second := by
    intro later heq
    subst heq
    exact ⟨later, rfl, (List.prefix_append_right_inj first).1 h.1,
      fun heq => h.2 (congrArg (first ++ ·) heq)⟩
  rcases List.prefix_or_prefix_of_prefix h.1 (List.prefix_append first second) with hpart | hpart
  · by_cases heq : part = first
    · exact .inr (hlater [] (by rw [heq, List.append_nil]))
    · exact .inl ⟨hpart, heq⟩
  · rcases hpart with ⟨later, heq⟩
    exact .inr (hlater later heq.symm)

/-!
# Readers that depend on nothing else
-/

def Rejects (r : Reader α) (buffer : Bytes) : Prop :=
  ∃ f left, r buffer = (.error (.protocol f), left)

theorem Rejects.bind {r : Reader α} {buffer : Bytes} (h : r.Rejects buffer)
    (next : α → Reader β) : (r >>= next).Rejects buffer := by
  rcases h with ⟨f, left, h⟩
  exact ⟨f, left, bind_run_error next h⟩

/-- What the reader accepts is read off bytes of its own: the bytes that follow are left and do
not matter, and the reader rejects the same bytes if they are cut short. -/
def Exact (r : Reader α) : Prop :=
  ∀ buffer a rest, r buffer = (.ok a, rest) →
    ∃ taken, buffer = taken ++ rest ∧ r.Reads taken a ∧ ∀ part, CutShort part taken → r.Rejects part

theorem exact_pure (a : α) : Exact (pure a : Reader α) := by
  intro buffer b rest h
  cases h
  exact ⟨[], rfl, reads_pure a, fun part hpart => absurd hpart (not_cutShort_nil part)⟩

/-- Nothing is asked of a reader that accepts nothing. -/
theorem exact_fail (e : ClientError) : Exact (fail e : Reader α) :=
  nofun

theorem exact_fault (f : ProtocolFault) : Exact (fault f : Reader α) :=
  exact_fail _

theorem exact_byte : Exact byte := by
  intro buffer b rest h
  cases buffer with
  | nil => cases h
  | cons c buffer =>
      cases h
      refine ⟨[b], rfl, fun _ => rfl, ?_⟩
      intro part hpart
      have hnil : part = [] := List.eq_nil_of_length_eq_zero (Nat.lt_one_iff.1 hpart.length_lt)
      subst hnil
      exact ⟨_, _, rfl⟩

theorem exact_take (n : Nat) (field : String) : Exact (take n field) := by
  intro buffer taken rest h
  unfold take at h
  split at h
  · next hlength =>
    cases h
    refine ⟨_, (List.take_append_drop n buffer).symm, reads_take field hlength, ?_⟩
    intro part hpart
    exact ⟨_, _, take_of_lt field (hlength ▸ hpart.length_lt)⟩
  · cases h

theorem Exact.bind {r : Reader α} {next : α → Reader β} (hr : Exact r)
    (hnext : ∀ a, Exact (next a)) : Exact (r >>= next) := by
  intro buffer b rest h
  rcases hfirst : r buffer with ⟨e | a, middle⟩
  · rw [bind_run_error next hfirst] at h
    cases h
  · rw [bind_run_ok next hfirst] at h
    rcases hr _ _ _ hfirst with ⟨first, rfl, hreads, hshort⟩
    rcases hnext a _ _ _ h with ⟨second, rfl, hreads', hshort'⟩
    refine ⟨first ++ second, (List.append_assoc _ _ _).symm, hreads.bind hreads', ?_⟩
    intro part hpart
    rcases hpart.of_append with hpart | ⟨later, rfl, hlater⟩
    · exact (hshort part hpart).bind next
    · rcases hshort' later hlater with ⟨f, left, hreject⟩
      exact ⟨f, left, by rw [bind_run_ok next (hreads later), hreject]⟩

theorem exact_manyFrom {r : Nat → Reader α} (hr : ∀ i, Exact (r i)) (i n : Nat) :
    Exact (manyFrom r i n) := by
  induction n generalizing i with
  | zero => exact exact_pure []
  | succ n ih => exact (hr i).bind fun a => (ih (i + 1)).bind fun as => exact_pure (a :: as)

theorem Exact.many {r : Reader α} (hr : Exact r) (n : Nat) : Exact (many n r) := by
  rw [many_eq_manyFrom r 0]
  exact exact_manyFrom (fun _ => hr) 0 n

/-!
# Marked items
-/

theorem Exact.markedUpTo {r : Reader α} (hr : Exact r) (n : Nat) : Exact (markedUpTo n r) := by
  induction n with
  | zero => exact exact_fault _
  | succ n ih =>
      refine exact_byte.bind ?_
      intro mark
      split
      · exact exact_pure []
      · exact hr.bind fun a => ih.bind fun as => exact_pure (a :: as)

/-- Every item takes a byte at least, so a bound beyond the length of the buffer is as good as
any other. -/
theorem Exact.markedUpTo_eq {r : Reader α} (hr : Exact r) {m n : Nat} {buffer : Bytes}
    (hm : buffer.length < m) (hn : buffer.length < n) :
    Reader.markedUpTo m r buffer = Reader.markedUpTo n r buffer := by
  induction m generalizing n buffer with
  | zero => cases hm
  | succ m ih =>
      cases n with
      | zero => cases hn
      | succ n =>
          cases buffer with
          | nil => rfl
          | cons mark buffer =>
              show (if mark = 0 then pure [] else _ : Reader (List α)) buffer =
                (if mark = 0 then pure [] else _ : Reader (List α)) buffer
              split
              · rfl
              · rcases hitem : r buffer with ⟨e | a, rest⟩
                · rw [bind_run_error _ hitem, bind_run_error _ hitem]
                · rw [bind_run_ok _ hitem, bind_run_ok _ hitem]
                  rcases hr _ _ _ hitem with ⟨taken, rfl, -, -⟩
                  rw [List.length_cons, List.length_append] at hm hn
                  have hrest : Reader.markedUpTo m r rest = Reader.markedUpTo n r rest :=
                    ih (by omega) (by omega)
                  show (Reader.markedUpTo m r).andThen _ rest =
                    (Reader.markedUpTo n r).andThen _ rest
                  unfold andThen
                  rw [hrest]

theorem Exact.marked {r : Reader α} (hr : Exact r) : Exact (marked r) := by
  intro buffer as rest h
  -- with any bound that is large enough, the same bytes are taken
  have hread : ∀ n, buffer.length < n → ∃ taken, buffer = taken ++ rest ∧
      (Reader.markedUpTo n r).Reads taken as ∧
        ∀ part, CutShort part taken → (Reader.markedUpTo n r).Rejects part := by
    intro n hn
    refine hr.markedUpTo n buffer as rest ?_
    rw [← h]
    exact hr.markedUpTo_eq hn (Nat.lt_succ_self _)
  rcases hread _ (Nat.lt_succ_self _) with ⟨taken, rfl, -, hshort⟩
  refine ⟨taken, rfl, ?_, ?_⟩
  · intro rest'
    let n := (taken ++ rest).length + (taken ++ rest').length + 1
    rcases hread n (by omega) with ⟨taken', htaken, hreads, -⟩
    cases List.append_cancel_right htaken
    rw [← hreads rest']
    exact hr.markedUpTo_eq (Nat.lt_succ_self _) (by omega)
  · intro part hpart
    rcases hshort part hpart with ⟨f, left, hreject⟩
    refine ⟨f, left, ?_⟩
    rw [← hreject]
    have hlength := hpart.length_lt
    refine hr.markedUpTo_eq (Nat.lt_succ_self _) ?_
    rw [List.length_append]
    omega

end Reader
end GridClient
