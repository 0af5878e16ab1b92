import GridClient.Hash.Mixing
import Mathlib.Data.FinEnum
import Mathlib.Data.Nat.ModEq
import Mathlib.Data.Nat.Prime.Basic

/-!
# Nothing of a key is lost

Two keys of equal length that differ in one block only, whole or not, leave the hash in
different states. The bytes of a block can be read off its two words; the words can be read
off what mixing makes of them, since both multipliers are odd; and what is mixed in later
does not bring two states together again.
-/

namespace GridClient
namespace Hash

/-!
# Words
-/

/-- The bits of a word, the lowest first. -/
def bit (x : UInt64) (i : Nat) : Bool :=
  x.toNat.testBit i

theorem bit_of_le (x : UInt64) {i : Nat} (h : 64 ≤ i) : bit x i = false :=
  Nat.testBit_lt_two_pow (Nat.lt_of_lt_of_le x.toNat_lt (Nat.pow_le_pow_right (by decide) h))

theorem eq_of_bit_eq {x y : UInt64} (h : ∀ i < 64, bit x i = bit y i) : x = y := by
  apply UInt64.toNat_inj.1
  apply Nat.eq_of_testBit_eq
  intro i
  by_cases hi : i < 64
  · exact h i hi
  · exact (bit_of_le x (Nat.le_of_not_lt hi)).trans (bit_of_le y (Nat.le_of_not_lt hi)).symm

@[simp] theorem bit_xor (x y : UInt64) (i : Nat) : bit (x ^^^ y) i = (bit x i ^^ bit y i) := by
  simp [bit]

@[simp] theorem bit_or (x y : UInt64) (i : Nat) : bit (x ||| y) i = (bit x i || bit y i) := by
  simp [bit]

theorem bit_shiftLeft (x : UInt64) {n : UInt64} (hn : n.toNat < 64) {i : Nat} (hi : i < 64) :
    bit (x <<< n) i = (decide (n.toNat ≤ i) && bit x (i - n.toNat)) := by
  unfold bit
  rw [UInt64.toNat_shiftLeft, Nat.mod_eq_of_lt hn, Nat.testBit_mod_two_pow,
    Nat.testBit_shiftLeft, decide_eq_true hi, Bool.true_and]

theorem bit_shiftRight (x : UInt64) {n : UInt64} (hn : n.toNat < 64) (i : Nat) :
    bit (x >>> n) i = bit x (n.toNat + i) := by
  simp [bit, Nat.mod_eq_of_lt hn]

theorem bit_rotateLeft (x : UInt64) {n : UInt64} (hpos : 0 < n.toNat) (hn : n.toNat < 64) {i : Nat}
    (hi : i < 64) :
    bit (rotateLeft x n) i =
      if n.toNat ≤ i then bit x (i - n.toNat) else bit x (64 - n.toNat + i) := by
  have hback : (64 - n).toNat = 64 - n.toNat :=
    UInt64.toNat_sub_of_le _ _ (UInt64.le_iff_toNat_le.2 (Nat.le_of_lt hn))
  unfold rotateLeft
  rw [bit_or, bit_shiftLeft x hn hi, bit_shiftRight x (by omega), hback]
  split
  · next hle =>
    have hnone : bit x (64 - n.toNat + i) = false := bit_of_le x (by omega)
    simp [hle, hnone]
  · next hlt => simp [hlt]

theorem rotateLeft_injective {n : UInt64} (hpos : 0 < n.toNat) (hn : n.toNat < 64) :
    Function.Injective fun x => rotateLeft x n := by
  intro x y h
  have hbits (i : Nat) : bit (rotateLeft x n) i = bit (rotateLeft y n) i :=
    congrArg (fun w => bit w i) h
  apply eq_of_bit_eq
  intro i hi
  by_cases hlow : i + n.toNat < 64
  · have hmoved := hbits (i + n.toNat)
    rw [bit_rotateLeft x hpos hn hlow, bit_rotateLeft y hpos hn hlow, if_pos (by omega),
      if_pos (by omega), Nat.add_sub_cancel] at hmoved
    exact hmoved
  · -- The bit has been carried round.
    have hround : i + n.toNat - 64 < 64 := by omega
    have hmoved := hbits (i + n.toNat - 64)
    rw [bit_rotateLeft x hpos hn hround, bit_rotateLeft y hpos hn hround, if_neg (by omega),
      if_neg (by omega), show 64 - n.toNat + (i + n.toNat - 64) = i by omega] at hmoved
    exact hmoved

theorem mul_right_cancel_of_odd {x y c : UInt64} (hc : Odd c.toNat) (h : x * c = y * c) :
    x = y := by
  have hcoprime : Nat.gcd (2 ^ 64) c.toNat = 1 :=
    Nat.Coprime.pow_left 64 (Nat.coprime_two_left.2 hc)
  have hmod : x.toNat * c.toNat ≡ y.toNat * c.toNat [MOD 2 ^ 64] := by
    have hnat := congrArg UInt64.toNat h
    rwa [UInt64.toNat_mul, UInt64.toNat_mul] at hnat
  have hcancel := Nat.ModEq.cancel_right_of_coprime hcoprime hmod
  apply UInt64.toNat_inj.1
  rwa [Nat.ModEq, Nat.mod_eq_of_lt x.toNat_lt, Nat.mod_eq_of_lt y.toNat_lt] at hcancel

theorem odd_mul_add {x a b : UInt64} (hx : Odd x.toNat) (ha : Odd a.toNat) (hb : Even b.toNat) :
    Odd (x * a + b).toNat := by
  have hsum : Odd (x.toNat * a.toNat + b.toNat) := (hx.mul ha).add_even hb
  rw [UInt64.toNat_add, UInt64.toNat_mul]
  rw [Nat.odd_iff] at hsum ⊢
  omega

/-!
# The bytes of a block
-/

/-- A way to pack bytes into a word: the first byte is in the lowest bits, and the bits above
tell the word of the other bytes, as far as they do not run over. -/
structure Packs (f : Bytes → UInt64) : Prop where
  low : ∀ b rest, ∀ i < 8, bit (f (b :: rest)) i = b.toNat.testBit i
  high : ∀ b rest rest', ∀ i < 56, bit (f (b :: rest)) (8 + i) = bit (f (b :: rest')) (8 + i) →
    bit (f rest) i = bit (f rest') i

namespace Packs

variable {f : Bytes → UInt64}

/-- The bits that bytes take up tell the bytes. -/
theorem eq_of_bits (hf : Packs f) {l l' : Bytes} (hlen : l.length = l'.length)
    (hshort : l.length ≤ 8) (h : ∀ i < 8 * l.length, bit (f l) i = bit (f l') i) : l = l' := by
  induction l generalizing l' with
  | nil => exact (List.length_eq_zero_iff.1 hlen.symm).symm
  | cons b rest ih =>
      cases l' with
      | nil => cases hlen
      | cons b' rest' =>
          rw [List.length_cons] at hshort h
          have hfirst : b = b' := by
            apply UInt8.toNat_inj.1
            apply Nat.eq_of_testBit_eq
            intro i
            by_cases hi : i < 8
            · rw [← hf.low b rest i hi, ← hf.low b' rest' i hi]
              exact h i (by omega)
            · have hbound : 2 ^ 8 ≤ 2 ^ i := Nat.pow_le_pow_right (by decide) (by omega)
              rw [Nat.testBit_lt_two_pow (Nat.lt_of_lt_of_le b.toNat_lt hbound),
                Nat.testBit_lt_two_pow (Nat.lt_of_lt_of_le b'.toNat_lt hbound)]
          subst hfirst
          have hrest : rest = rest' := by
            refine ih (Nat.succ.inj hlen) (by omega) fun i hi => ?_
            exact hf.high b rest rest' i (by omega) (h (8 + i) (by omega))
          rw [hrest]

theorem eq_of_eq (hf : Packs f) {l l' : Bytes} (hlen : l.length = l'.length)
    (hshort : l.length ≤ 8) (h : f l = f l') : l = l' :=
  hf.eq_of_bits hlen hshort fun i _ => congrArg (fun w => bit w i) h

end Packs

theorem bit_toUInt64 (b : UInt8) (i : Nat) : bit b.toUInt64 i = b.toNat.testBit i := by
  rw [bit, UInt8.toNat_toUInt64]

theorem bit_widen (b : UInt8) {i : Nat} (hi : i < 8) : bit (widen b) i = b.toNat.testBit i := by
  have hsign : ∀ i < 8, bit 0xffffffffffffff00 i = false := by decide
  unfold widen
  split
  · exact bit_toUInt64 b i
  · rw [bit_or, hsign i hi, Bool.or_false, bit_toUInt64]

theorem bit_shiftLeft_eight {x : UInt64} {i : Nat} (hi : i < 64) :
    bit (x <<< 8) i = (decide (8 ≤ i) && bit x (i - 8)) :=
  bit_shiftLeft x (by decide) hi

theorem packs_word : Packs word := by
  constructor
  case low =>
    intro b rest i hi
    rw [word, bit_or, bit_toUInt64, bit_shiftLeft_eight (by omega), decide_eq_false (by omega),
      Bool.false_and, Bool.or_false]
  case high =>
    intro b rest rest' i hi h
    have hbyte : b.toNat.testBit (8 + i) = false :=
      Nat.testBit_lt_two_pow (Nat.lt_of_lt_of_le b.toNat_lt
        (Nat.pow_le_pow_right (by decide) (by omega)))
    simp only [word, bit_or, bit_toUInt64, hbyte, bit_shiftLeft_eight (show 8 + i < 64 by omega),
      Nat.le_add_right, decide_true, Bool.true_and, Bool.false_or, Nat.add_sub_cancel_left] at h
    exact h

/-- The sign of a byte is spread over the bits of the bytes after it, but they are still told by
what they do to those bits. -/
theorem packs_tailWord : Packs tailWord := by
  constructor
  case low =>
    intro b rest i hi
    rw [tailWord, bit_xor, bit_widen b hi, bit_shiftLeft_eight (by omega),
      decide_eq_false (by omega), Bool.false_and, Bool.xor_false]
  case high =>
    intro b rest rest' i hi h
    simp only [tailWord, bit_xor, bit_shiftLeft_eight (show 8 + i < 64 by omega),
      Nat.le_add_right, decide_true, Bool.true_and, Nat.add_sub_cancel_left] at h
    exact (Bool.xor_right_inj).1 h

theorem tail_injective {l l' : Bytes} (hlen : l.length = l'.length) (hshort : l.length < 16)
    (hlow : tailWord (l.take 8) = tailWord (l'.take 8))
    (hhigh : tailWord (l.drop 8) = tailWord (l'.drop 8)) : l = l' := by
  have htake : l.take 8 = l'.take 8 :=
    packs_tailWord.eq_of_eq (by simp [hlen]) (by simp) hlow
  have hdrop : l.drop 8 = l'.drop 8 :=
    packs_tailWord.eq_of_eq (by simp [hlen]) (by rw [List.length_drop]; omega) hhigh
  rw [← List.take_append_drop 8 l, htake, hdrop, List.take_append_drop]

/-!
# One block
-/

namespace State

def words (s : State) : UInt64 × UInt64 :=
  (s.h1, s.h2)

/-- Both multipliers can be undone. -/
structure OddMultipliers (s : State) : Prop where
  first : Odd s.c1.toNat
  second : Odd s.c2.toNat

/-- The states have the same multipliers, as states do that have gone through equally many
blocks. -/
structure Level (s t : State) : Prop where
  first : s.c1 = t.c1
  second : s.c2 = t.c2

theorem oddMultipliers_seeded (seed : UInt64) : (seeded seed).OddMultipliers where
  first := show Odd (0x87c37b91114253d5 : UInt64).toNat by decide
  second := show Odd (0x4cf5ad432745937f : UInt64).toNat by decide

theorem OddMultipliers.mix {s : State} (h : s.OddMultipliers) (k1 k2 : UInt64) :
    (s.mix k1 k2).OddMultipliers where
  first := odd_mul_add h.first (by decide) (by decide)
  second := odd_mul_add h.second (by decide) (by decide)

theorem Level.mix {s t : State} (h : s.Level t) (k1 k2 l1 l2 : UInt64) :
    (s.mix k1 k2).Level (t.mix l1 l2) where
  first := congrArg (· * 5 + 0x7b7d159c) h.first
  second := congrArg (· * 5 + 0x6bce6396) h.second

/-- What becomes of a word of the block before it goes into the state. -/
def turned (c c' k : UInt64) : UInt64 :=
  rotateLeft (k * c) 23 * c'

theorem turned_injective {c c' : UInt64} (hc : Odd c.toNat) (hc' : Odd c'.toNat) :
    Function.Injective (turned c c') := by
  intro k l h
  have hrotated := mul_right_cancel_of_odd hc' h
  exact mul_right_cancel_of_odd hc (rotateLeft_injective (by decide) (by decide) hrotated)

theorem h1_mix (s : State) (k1 k2 : UInt64) :
    (s.mix k1 k2).h1 = ((s.h1 ^^^ turned s.c1 s.c2 k1) + s.h2) * 3 + 0x52dce729 :=
  rfl

theorem h2_mix (s : State) (k1 k2 : UInt64) :
    (s.mix k1 k2).h2 =
      ((rotateLeft s.h2 41 ^^^ turned s.c2 s.c1 k2) +
        ((s.h1 ^^^ turned s.c1 s.c2 k1) + s.h2)) * 3 + 0x38495ab5 :=
  rfl

theorem mul_three_add_injective (c : UInt64) : Function.Injective fun x : UInt64 => x * 3 + c :=
  fun _ _ h => mul_right_cancel_of_odd (by decide) ((UInt64.add_left_inj c).1 h)

/-- The words of the state tell which block was mixed in. -/
theorem mix_injective_block {s : State} (hs : s.OddMultipliers) {k1 k2 l1 l2 : UInt64}
    (h : (s.mix k1 k2).words = (s.mix l1 l2).words) : k1 = l1 ∧ k2 = l2 := by
  obtain ⟨h1, h2⟩ := Prod.mk.inj h
  rw [h1_mix, h1_mix] at h1
  rw [h2_mix, h2_mix] at h2
  have hsum := mul_three_add_injective _ h1
  have hfirst : turned s.c1 s.c2 k1 = turned s.c1 s.c2 l1 :=
    (UInt64.xor_right_inj s.h1).1 ((UInt64.add_left_inj s.h2).1 hsum)
  have hboth := mul_three_add_injective _ h2
  rw [hsum] at hboth
  have hsecond : turned s.c2 s.c1 k2 = turned s.c2 s.c1 l2 :=
    (UInt64.xor_right_inj _).1 ((UInt64.add_left_inj _).1 hboth)
  exact ⟨turned_injective hs.first hs.second hfirst,
    turned_injective hs.second hs.first hsecond⟩

/-- The words of the state tell which state a block was mixed into. -/
theorem mix_injective_words {s t : State} (hlevel : s.Level t) {k1 k2 : UInt64}
    (h : (s.mix k1 k2).words = (t.mix k1 k2).words) : s.words = t.words := by
  obtain ⟨h1, h2⟩ := Prod.mk.inj h
  rw [h1_mix, h1_mix, hlevel.first, hlevel.second] at h1
  rw [h2_mix, h2_mix, hlevel.first, hlevel.second] at h2
  have hsum := mul_three_add_injective _ h1
  have hboth := mul_three_add_injective _ h2
  rw [hsum] at hboth
  have hrotated : rotateLeft s.h2 41 = rotateLeft t.h2 41 :=
    (UInt64.xor_left_inj _).1 ((UInt64.add_left_inj _).1 hboth)
  have hsecond : s.h2 = t.h2 := rotateLeft_injective (by decide) (by decide) hrotated
  rw [hsecond] at hsum
  have hfirst : s.h1 = t.h1 := (UInt64.xor_left_inj _).1 ((UInt64.add_left_inj _).1 hsum)
  exact Prod.ext hfirst hsecond

end State

/-!
# All blocks
-/

theorem absorb_zero_of_ne_nil (s : State) {tail : Bytes} (h : tail ≠ []) :
    absorb 0 s tail = s.mix (tailWord (tail.take 8)) (tailWord (tail.drop 8)) := by
  cases tail with
  | nil => exact absurd rfl h
  | cons b rest => rfl

theorem oddMultipliers_absorb {s : State} (h : s.OddMultipliers) (blocks : Nat) (key : Bytes) :
    (absorb blocks s key).OddMultipliers := by
  induction blocks generalizing s key with
  | zero =>
      by_cases hkey : key = []
      · subst hkey
        exact h
      · rw [absorb_zero_of_ne_nil s hkey]
        exact h.mix _ _
  | succ blocks ih => exact ih (h.mix _ _) _

/-- Equal blocks do not bring states together. -/
theorem absorb_words_ne_of_state {s t : State} (hlevel : s.Level t) (hne : s.words ≠ t.words)
    (blocks : Nat) (key : Bytes) :
    (absorb blocks s key).words ≠ (absorb blocks t key).words := by
  induction blocks generalizing s t key with
  | zero =>
      by_cases hkey : key = []
      · subst hkey
        exact hne
      · rw [absorb_zero_of_ne_nil s hkey, absorb_zero_of_ne_nil t hkey]
        exact fun h => hne (State.mix_injective_words hlevel h)
  | succ blocks ih =>
      exact ih (hlevel.mix _ _ _ _) (fun h => hne (State.mix_injective_words hlevel h)) _

/-- The keys have equally many bytes, but not the same, and those that differ are all in one
block. -/
structure DifferIn (block : Nat) (key other : Bytes) : Prop where
  length_eq : key.length = other.length
  ne : key ≠ other
  within : ∀ i, key[i]? ≠ other[i]? → i / 16 = block

namespace DifferIn

variable {block : Nat} {key other : Bytes}

theorem drop_eq (h : DifferIn 0 key other) : key.drop 16 = other.drop 16 := by
  apply List.ext_getElem?
  intro i
  rw [List.getElem?_drop, List.getElem?_drop]
  by_contra hne
  have hblock := h.within (16 + i) hne
  omega

theorem take_eq (h : DifferIn (block + 1) key other) : key.take 16 = other.take 16 := by
  apply List.ext_getElem?
  intro i
  rw [List.getElem?_take, List.getElem?_take]
  split
  · next hi =>
    by_contra hne
    have hblock := h.within i hne
    omega
  · rfl

theorem drop (h : DifferIn (block + 1) key other) :
    DifferIn block (key.drop 16) (other.drop 16) where
  length_eq := by rw [List.length_drop, List.length_drop, h.length_eq]
  ne hdrop := h.ne (by
    rw [← List.take_append_drop 16 key, h.take_eq, hdrop, List.take_append_drop])
  within i hne := by
    rw [List.getElem?_drop, List.getElem?_drop] at hne
    have hblock := h.within (16 + i) hne
    omega

end DifferIn

/-- The bytes of a whole block, from its words. -/
theorem take_sixteen_of_words {key other : Bytes} (hlen : key.length = other.length)
    (hlow : word (key.take 8) = word (other.take 8))
    (hhigh : word ((key.drop 8).take 8) = word ((other.drop 8).take 8)) :
    key.take 16 = other.take 16 := by
  have hfirst : key.take 8 = other.take 8 :=
    packs_word.eq_of_eq (by simp [hlen]) (by simp) hlow
  have hsecond : (key.drop 8).take 8 = (other.drop 8).take 8 :=
    packs_word.eq_of_eq (by simp [hlen]) (by simp) hhigh
  rw [List.take_add (i := 8) (j := 8), List.take_add (i := 8) (j := 8), hfirst, hsecond]

/-- Keys that differ in one block leave different words behind. -/
theorem absorb_words_ne {s : State} (hs : s.OddMultipliers) {block blocks : Nat}
    {key other : Bytes} (h : DifferIn block key other) (hlen : key.length / 16 = blocks) :
    (absorb blocks s key).words ≠ (absorb blocks s other).words := by
  have hother := h.length_eq
  induction blocks generalizing s block key other with
  | zero =>
      have hkey : key ≠ [] := by
        rintro rfl
        exact h.ne (List.length_eq_zero_iff.1 hother.symm).symm
      have hkey' : other ≠ [] := by
        rintro rfl
        exact h.ne (List.length_eq_zero_iff.1 hother)
      rw [absorb_zero_of_ne_nil s hkey, absorb_zero_of_ne_nil s hkey']
      intro hwords
      obtain ⟨hlow, hhigh⟩ := State.mix_injective_block hs hwords
      exact h.ne (tail_injective hother (by omega) hlow hhigh)
  | succ blocks ih =>
      cases block with
      | zero =>
          -- The states part at this block, and the rest is equal.
          show (absorb blocks _ (key.drop 16)).words ≠ (absorb blocks _ (other.drop 16)).words
          rw [← h.drop_eq]
          refine absorb_words_ne_of_state (State.Level.mix ⟨rfl, rfl⟩ _ _ _ _) ?_ blocks _
          intro hwords
          obtain ⟨hlow, hhigh⟩ := State.mix_injective_block hs hwords
          apply h.ne
          rw [← List.take_append_drop 16 key, take_sixteen_of_words hother hlow hhigh, h.drop_eq,
            List.take_append_drop]
      | succ block =>
          have hfirst : key.take 8 = other.take 8 := by
            simpa [List.take_take] using congrArg (List.take 8) h.take_eq
          have hsecond : (key.drop 8).take 8 = (other.drop 8).take 8 := by
            simpa [List.drop_take] using congrArg (List.drop 8) h.take_eq
          show (absorb blocks _ (key.drop 16)).words ≠ (absorb blocks _ (other.drop 16)).words
          rw [hfirst, hsecond]
          refine ih (hs.mix _ _) h.drop ?_ h.drop.length_eq
          rw [List.length_drop]
          omega

/-!
# The end of the hash
-/

/-- The upper bits of a word laid over its lower ones. -/
def fold (x : UInt64) : UInt64 :=
  x ^^^ (x >>> 33)

/-- The lower bits do not get into the upper ones, so laying them over again undoes it. -/
theorem fold_involutive : Function.Involutive fold := by
  intro x
  apply eq_of_bit_eq
  intro i hi
  have hshift (y : UInt64) (j : Nat) : bit (y >>> 33) j = bit y (33 + j) :=
    bit_shiftRight y (by decide) j
  have hbeyond : bit x (33 + (33 + i)) = false := bit_of_le x (by omega)
  simp [fold, hshift, hbeyond]

theorem mul_injective_of_odd {c : UInt64} (hc : Odd c.toNat) :
    Function.Injective fun x : UInt64 => x * c :=
  fun _ _ h => mul_right_cancel_of_odd hc h

theorem scramble_bijective : Function.Bijective scramble := by
  rw [← Finite.injective_iff_bijective]
  have hsteps : scramble = fold ∘ (· * 0xc4ceb9fe1a85ec53) ∘ fold ∘ (· * 0xff51afd7ed558ccd) ∘
      fold := rfl
  have hfold := fold_involutive.injective
  rw [hsteps]
  exact hfold.comp ((mul_injective_of_odd (by decide)).comp
    (hfold.comp ((mul_injective_of_odd (by decide)).comp hfold)))

theorem mixed_ne {block : Nat} {key other : Bytes} (h : DifferIn block key other) :
    mixed key ≠ mixed other := by
  intro hmixed
  obtain ⟨hfirst, hsecond⟩ := Prod.mk.inj hmixed
  rw [← h.length_eq] at hfirst hsecond
  exact absorb_words_ne (State.oddMultipliers_seeded 9001) h rfl
    (Prod.ext hfirst ((UInt64.xor_left_inj _).1 hsecond))

theorem finished_eq (key : Bytes) :
    finished key = (scramble ((mixed key).1 + (mixed key).2),
      scramble ((mixed key).2 + ((mixed key).1 + (mixed key).2))) :=
  rfl

/-- The last additions and scrambles keep different words apart. -/
theorem mixed_eq_of_finished {key other : Bytes} (h : finished key = finished other) :
    mixed key = mixed other := by
  rw [finished_eq, finished_eq] at h
  obtain ⟨hfirst, hsecond⟩ := Prod.mk.inj h
  have hsum := scramble_bijective.injective hfirst
  have hboth := scramble_bijective.injective hsecond
  rw [hsum] at hboth
  have hlast : (mixed key).2 = (mixed other).2 := (UInt64.add_left_inj _).1 hboth
  rw [hlast] at hsum
  exact Prod.ext ((UInt64.add_left_inj _).1 hsum) hlast

theorem finished_eq_of_hash {key other : Bytes} (hhash : hash64 key = hash64 other)
    (hsecond : (finished key).2 = (finished other).2) : finished key = finished other := by
  unfold hash64 at hhash
  rw [hsecond] at hhash
  exact Prod.ext ((UInt64.add_left_inj _).1 hhash) hsecond

/-- No step of the hash loses anything by itself. -/
structure Lossless : Prop where
  tail : ∀ l l' : Bytes, l.length = l'.length → l.length < 16 →
    tailWord (l.take 8) = tailWord (l'.take 8) → tailWord (l.drop 8) = tailWord (l'.drop 8) →
    l = l'
  odd : ∀ blocks key, (absorb blocks (State.seeded 9001) key).OddMultipliers
  block : ∀ s : State, s.OddMultipliers →
    Function.Injective fun k : UInt64 × UInt64 => (s.mix k.1 k.2).words
  state : ∀ c1 c2 k1 k2 : UInt64,
    Function.Injective fun h : UInt64 × UInt64 => (State.mix ⟨h.1, h.2, c1, c2⟩ k1 k2).words
  scramble : Function.Bijective scramble

theorem lossless_steps : Lossless := by
  constructor
  case tail => exact fun l l' hlen hshort => tail_injective hlen hshort
  case odd => exact oddMultipliers_absorb (State.oddMultipliers_seeded 9001)
  case block =>
    rintro s hs ⟨k1, k2⟩ ⟨l1, l2⟩ h
    obtain ⟨hfirst, hsecond⟩ := State.mix_injective_block hs h
    exact Prod.ext hfirst hsecond
  case state =>
    intro c1 c2 k1 k2 h h' heq
    have hlevel : State.Level ⟨h.1, h.2, c1, c2⟩ ⟨h'.1, h'.2, c1, c2⟩ := ⟨rfl, rfl⟩
    exact State.mix_injective_words hlevel heq
  case scramble => exact scramble_bijective

/-- The keys are told apart by the two words before the last additions, after the last scrambles
and after the very last addition. -/
structure ToldApart (key other : Bytes) : Prop where
  mixed_ne : mixed key ≠ mixed other
  finished_ne : finished key ≠ finished other
  hashed_ne : (hash64 key, (finished key).2) ≠ (hash64 other, (finished other).2)

/-- Every byte of a key reaches the words of the hash: keys that differ in one block only are
told apart, because no step loses anything. -/
theorem toldApart_of_differIn {block : Nat} {key other : Bytes}
    (h : DifferIn block key other) : Lossless ∧ ToldApart key other := by
  have hfinished : finished key ≠ finished other :=
    fun heq => mixed_ne h (mixed_eq_of_finished heq)
  refine ⟨lossless_steps, mixed_ne h, hfinished, fun heq => hfinished ?_⟩
  obtain ⟨hhash, hsecond⟩ := Prod.mk.inj heq
  exact finished_eq_of_hash hhash hsecond

/-- A whole block and one more byte. -/
def keyEndingIn (last : UInt8) : Bytes :=
  List.replicate 16 0xff ++ [last]

theorem differIn_keyEndingIn : DifferIn 1 (keyEndingIn 0x7f) (keyEndingIn 0xff) where
  length_eq := by decide
  ne := by decide
  within i hne := by
    have hkey : ∀ i < 17, (keyEndingIn 0x7f)[i]? ≠ (keyEndingIn 0xff)[i]? → i / 16 = 1 := by
      decide
    by_cases hi : i < 17
    · exact hkey i hi hne
    · have hlong := Nat.le_of_not_lt hi
      exact absurd ((List.getElem?_eq_none hlong).trans (List.getElem?_eq_none hlong).symm) hne

/-- A last byte with its sign, and the same without. -/
theorem toldApart_of_differIn_sign :
    DifferIn 1 (keyEndingIn 0x7f) (keyEndingIn 0xff) ∧ Lossless ∧
      ToldApart (keyEndingIn 0x7f) (keyEndingIn 0xff) :=
  ⟨differIn_keyEndingIn, toldApart_of_differIn differIn_keyEndingIn⟩

end Hash
end GridClient
