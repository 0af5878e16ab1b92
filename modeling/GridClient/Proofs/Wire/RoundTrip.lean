import GridClient.Expiration
import GridClient.Proofs.Reader.Exact
import GridClient.Wire.Block
import Mathlib.Algebra.Group.Nat.Defs

/-!
# Fields read back

What is written as a field is read as the same value, whatever follows it. Lengths travel as
numbers of 32 bits, and the amounts of durations as numbers of 64 bits.
-/

namespace GridClient

open Reader

/-!
# Words
-/

theorem Bytes.toNat_ofUInt16 (n : UInt16) : (Bytes.ofUInt16 n).toNat = n.toNat := by
  have hn := n.toNat_lt
  simp only [Bytes.ofUInt16, Bytes.toNat, List.foldl_cons, List.foldl_nil, UInt16.toNat_toUInt8,
    UInt16.toNat_shiftRight, UInt16.toNat_ofNat, Nat.shiftRight_eq_div_pow, Nat.reducePow,
    Nat.reduceMod]
  omega

theorem Bytes.toNat_ofUInt64 (n : UInt64) : (Bytes.ofUInt64 n).toNat = n.toNat := by
  have hn := n.toNat_lt
  simp only [Bytes.ofUInt64, Bytes.ofUInt32, Bytes.toNat, List.cons_append, List.nil_append,
    List.foldl_cons, List.foldl_nil, UInt32.toNat_toUInt8, UInt32.toNat_shiftRight,
    UInt32.toNat_ofNat, UInt64.toNat_toUInt32, UInt64.toNat_shiftRight, UInt64.toNat_ofNat,
    Nat.shiftRight_eq_div_pow, Nat.reducePow, Nat.reduceMod]
  omega

namespace Reader

theorem reads_uint16 (n : UInt16) : uint16.Reads (Bytes.ofUInt16 n) n := by
  have hread := (reads_take "short" (Bytes.length_ofUInt16 n)).bind_pure
    fun bytes => UInt16.ofNat bytes.toNat
  rwa [Bytes.toNat_ofUInt16, UInt16.ofNat_toNat] at hread

theorem reads_uint64 (n : UInt64) : uint64.Reads (Bytes.ofUInt64 n) n := by
  have hread := (reads_take "long" (Bytes.length_ofUInt64 n)).bind_pure
    fun bytes => UInt64.ofNat bytes.toNat
  rwa [Bytes.toNat_ofUInt64, UInt64.ofNat_toNat] at hread

/-- A number with a sign is sent as the word that has the same bits. -/
theorem reads_int64 (n : Int64) : int64.Reads (Bytes.ofUInt64 n.toUInt64) n := by
  have hread := (reads_take "long" (Bytes.length_ofUInt64 n.toUInt64)).bind_pure
    fun bytes => (UInt64.ofNat bytes.toNat).toInt64
  rwa [Bytes.toNat_ofUInt64, UInt64.ofNat_toNat, Int64.toInt64_toUInt64] at hread

end Reader

/-!
# Variable-length integers
-/

namespace Varint

/-- The last group has its high bit clear. -/
theorem reads_lastGroup {n : Nat} (hn : n < 128) (left shift sum : Nat) :
    (groups (left + 1) shift sum).Reads (ofNat n) (sum + n * 2 ^ shift) := by
  have hb : (UInt8.ofNat n).toNat = n := by
    rw [UInt8.toNat_ofNat']
    omega
  have hlast : UInt8.ofNat n < 0x80 := by
    rw [UInt8.lt_iff_toNat_lt, hb]
    exact hn
  rw [ofNat, if_pos hn]
  apply Reads.byte_bind
  dsimp only
  rw [if_pos hlast, hb, Nat.mod_eq_of_lt hn]
  exact reads_pure _

/-- Reading goes on from a sum to which the number is added in its place. -/
theorem reads_groups {left n : Nat} (h : n < 128 ^ (left + 1)) (shift sum : Nat) :
    (groups (left + 1) shift sum).Reads (ofNat n) (sum + n * 2 ^ shift) := by
  induction left generalizing n shift sum with
  | zero => exact reads_lastGroup (by omega) 0 shift sum
  | succ left ih =>
      by_cases hn : n < 128
      · exact reads_lastGroup hn (left + 1) shift sum
      · have hb : (UInt8.ofNat (n % 128 + 128)).toNat = n % 128 + 128 := by
          rw [UInt8.toNat_ofNat']
          omega
        have hmore : ¬ UInt8.ofNat (n % 128 + 128) < 0x80 := by
          rw [UInt8.lt_iff_toNat_lt, hb]
          exact Nat.not_lt.2 (Nat.le_add_left _ _)
        have hdiv : n / 128 < 128 ^ (left + 1) := by
          rw [Nat.pow_succ] at h
          exact Nat.div_lt_of_lt_mul (by omega)
        have hsum : sum + n * 2 ^ shift =
            sum + n % 128 * 2 ^ shift + n / 128 * 2 ^ (shift + 7) := by
          have hn : n = n % 128 + n / 128 * 128 := by omega
          calc sum + n * 2 ^ shift
              = sum + (n % 128 + n / 128 * 128) * 2 ^ shift := by rw [← hn]
            _ = sum + n % 128 * 2 ^ shift + n / 128 * 2 ^ (shift + 7) := by
                rw [Nat.pow_add, Nat.add_mul, Nat.mul_assoc (n / 128), Nat.mul_comm 128,
                  Nat.add_assoc]
        rw [ofNat, if_neg hn]
        apply Reads.byte_bind
        dsimp only
        rw [if_neg hmore, hb, Nat.add_mod_right, Nat.mod_mod, hsum]
        exact ih hdiv _ _

theorem reads_uint64 (n : UInt64) : uint64.Reads (ofUInt64 n) n := by
  have hn : n.toNat < 128 ^ (9 + 1) := Nat.lt_trans n.toNat_lt (by decide)
  have hread := (reads_groups hn 0 0).bind_pure UInt64.ofNat
  rwa [Nat.zero_add, Nat.pow_zero, Nat.mul_one, UInt64.ofNat_toNat] at hread

theorem reads_uint32 (n : UInt32) : uint32.Reads (ofUInt32 n) n := by
  have hwide : ofUInt32 n = ofUInt64 n.toUInt64 := by
    unfold ofUInt32 ofUInt64
    rw [UInt32.toNat_toUInt64]
  rw [hwide]
  apply (reads_uint64 n.toUInt64).bind_nil
  rw [if_pos (by rw [UInt32.toNat_toUInt64]; exact n.toNat_lt), UInt32.toUInt32_toUInt64]
  exact reads_pure n

theorem reads_length {n : Nat} (h : n < UInt32.size) : length.Reads (ofLength n) n := by
  have hread := (reads_uint32 (UInt32.ofNat n)).bind_pure UInt32.toNat
  rwa [UInt32.toNat_ofNat_of_lt' h] at hread

theorem zigzag_lt (n : Int32) : zigzag n.toInt < UInt32.size := by
  have hlow := n.le_toInt
  have hhigh := n.toInt_lt
  show zigzag n.toInt < 2 ^ 32
  unfold zigzag
  split <;> omega

theorem reads_int32 (n : Int32) : int32.Reads (ofInt32 n) n := by
  have hread := (reads_uint32 (UInt32.ofNat (zigzag n.toInt))).bind_pure
    fun m => Int32.ofInt (unzigzag m.toNat)
  rwa [ofUInt32, UInt32.toNat_ofNat_of_lt' (zigzag_lt n), unzigzag_zigzag, Int32.ofInt_toInt]
    at hread

end Varint

/-!
# Texts and blocks
-/

theorem Utf8.decode_ofText (text : String) : decode (Bytes.ofText text) = .ok text := by
  have hbytes : (Bytes.ofText text).toByteArray = text.toByteArray := by
    unfold Bytes.ofText
    apply ByteArray.ext
    rw [List.data_toByteArray, Array.toArray_toList]
  unfold decode String.fromUTF8?
  rw [hbytes, dif_pos text.isValidUTF8]
  rfl

/-- A text has no other bytes than those that it is decoded from. -/
theorem Utf8.ofText_of_decode {bytes : Bytes} {text : String} (h : decode bytes = .ok text) :
    Bytes.ofText text = bytes := by
  unfold decode String.fromUTF8? at h
  split at h
  · next hsome =>
    cases h
    split at hsome
    · cases hsome
      show bytes.toByteArray.data.toList = bytes
      rw [List.data_toByteArray]
    · cases hsome
  · cases h

namespace Block

theorem reads_bytes {b : Bytes} (h : b.length < UInt32.size) : bytes.Reads (ofBytes b) b :=
  (Varint.reads_length h).bind (reads_take "array" rfl)

theorem reads_decodeText (s : String) : (decodeText (Bytes.ofText s)).Reads [] s := by
  unfold decodeText
  rw [Utf8.decode_ofText]
  exact reads_pure s

theorem reads_text {s : String} (h : (Bytes.ofText s).length < UInt32.size) :
    text.Reads (ofText s) s :=
  (reads_bytes h).bind_nil (reads_decodeText s)

/-- An optional block has a length with a sign, so one bit less is left for its size. -/
theorem reads_optionalBytes {b : Option Bytes} (h : ∀ bytes ∈ b, bytes.length < 2 ^ 31) :
    optionalBytes.Reads (ofOptionalBytes b) b := by
  cases b with
  | none => exact (Varint.reads_int32 (-1)).bind_nil (reads_pure none)
  | some bytes =>
      have hlength : (Int32.ofNat bytes.length).toInt = bytes.length :=
        Int32.toInt_ofNat_of_lt (h bytes rfl)
      have hpresent : ¬ Int32.ofNat bytes.length < 0 := by
        rw [Int32.lt_iff_toInt_lt, hlength]
        exact Int.not_lt.2 (Int.natCast_nonneg _)
      apply (Varint.reads_int32 (Int32.ofNat bytes.length)).bind
      rw [if_neg hpresent, hlength, Int.toNat_natCast]
      exact (reads_take _ rfl).bind_pure some

theorem reads_optionalText {s : Option String}
    (h : ∀ text ∈ s, (Bytes.ofText text).length < 2 ^ 31) :
    optionalText.Reads (ofOptionalText s) s := by
  cases s with
  | none => exact (reads_optionalBytes (by simp)).bind_nil (reads_pure none)
  | some text =>
      have hbytes : ∀ bytes ∈ some (Bytes.ofText text), bytes.length < 2 ^ 31 := by
        rintro _ ⟨⟩
        exact h text rfl
      exact (reads_optionalBytes hbytes).bind_nil ((reads_decodeText text).bind_pure some)

end Block

/-!
# Durations
-/

namespace Duration

theorem eq_of_nanos {d e : Duration} (h : d.nanos = e.nanos) : d = e := by
  cases d
  cases e
  cases h
  rfl

/-- The unit that a duration is sent in, in nanoseconds. -/
def unit (d : Duration) : Nat :=
  if d.subsecond = 0 then nanosPerSecond
  else if d.subsecond % nanosPerMilli = 0 then nanosPerMilli
  else 1

/-- What is left of a duration when its amount in that unit is cut down to 64 bits. -/
def narrowed (d : Duration) : Duration where
  nanos := d.nanos / d.unit % UInt64.size * d.unit
  nanos_lt :=
    Nat.lt_of_le_of_lt
      (Nat.le_trans (Nat.mul_le_mul_right _ (Nat.mod_le _ _)) (Nat.div_mul_le_self _ _)) d.nanos_lt

variable {d : Duration}

theorem ofSeconds_seconds (h : d.subsecond = 0) :
    ofSeconds (UInt64.ofNat d.seconds) = d.narrowed := by
  have hunit : d.unit = nanosPerSecond := if_pos h
  apply eq_of_nanos
  show _ = d.nanos / d.unit % UInt64.size * d.unit
  rw [hunit]
  rfl

theorem ofMillis_millis (hpart : d.subsecond ≠ 0) (h : d.subsecond % nanosPerMilli = 0) :
    ofMillis (UInt64.ofNat d.millis) = d.narrowed := by
  have hunit : d.unit = nanosPerMilli := by rw [unit, if_neg hpart, if_pos h]
  apply eq_of_nanos
  show _ = d.nanos / d.unit % UInt64.size * d.unit
  rw [hunit]
  rfl

theorem ofNanos_nanos (hpart : d.subsecond ≠ 0) (h : d.subsecond % nanosPerMilli ≠ 0) :
    ofNanos (UInt64.ofNat d.nanos) = d.narrowed := by
  have hunit : d.unit = 1 := by rw [unit, if_neg hpart, if_neg h]
  apply eq_of_nanos
  show _ = d.nanos / d.unit % UInt64.size * d.unit
  rw [hunit, Nat.div_one, Nat.mul_one]
  rfl

theorem unit_pos (d : Duration) : 0 < d.unit := by
  unfold unit
  split
  · decide
  · split <;> decide

/-- The unit keeps the fraction. -/
theorem unit_dvd (d : Duration) : d.unit ∣ d.nanos := by
  unfold unit
  split
  · next hwhole => exact Nat.dvd_of_mod_eq_zero hwhole
  · split
    · next hmillis =>
      have hmilli : nanosPerMilli ∣ nanosPerSecond := by decide
      apply Nat.dvd_of_mod_eq_zero
      rwa [subsecond, Nat.mod_mod_of_dvd _ hmilli] at hmillis
    · exact Nat.one_dvd _

theorem narrowed_eq_iff : d.narrowed = d ↔ d.nanos / d.unit < UInt64.size := by
  have hwhole : d.nanos / d.unit * d.unit = d.nanos := Nat.div_mul_cancel d.unit_dvd
  constructor
  · intro h
    have hnanos : d.nanos / d.unit % UInt64.size * d.unit = d.nanos / d.unit * d.unit :=
      (congrArg nanos h).trans hwhole.symm
    rw [← Nat.eq_of_mul_eq_mul_right d.unit_pos hnanos]
    exact Nat.mod_lt _ (by decide)
  · intro h
    apply eq_of_nanos
    show d.nanos / d.unit % UInt64.size * d.unit = d.nanos
    rw [Nat.mod_eq_of_lt h, hwhole]

end Duration

/-!
# Expirations
-/

namespace Lifetime

/-- The amount that is sent has 64 bits. Whole seconds always fit; milliseconds and nanoseconds
may not. -/
def Fits : Lifetime → Prop
  | after d =>
      d.subsecond = 0 ∨ d.subsecond % nanosPerMilli = 0 ∧ d.millis < UInt64.size ∨
        d.nanos < UInt64.size
  | _ => True

theorem unit_lt (l : Lifetime) : l.parts.1 < 16 := by
  cases l with
  | serverDefault => decide
  | immortal => decide
  | after d =>
      unfold parts
      dsimp only
      split
      · show (0 : UInt8) < 16
        decide
      · split
        · show (1 : UInt8) < 16
          decide
        · show (2 : UInt8) < 16
          decide

/-- The lifetime that the peer reads. -/
def arriving : Lifetime → Lifetime
  | after d => after d.narrowed
  | l => l

/-- The reader knows the unit from the first byte. -/
theorem reads_arriving (l : Lifetime) : (reader l.parts.1).Reads l.amount l.arriving := by
  cases l with
  | serverDefault => exact reads_pure _
  | immortal => exact reads_pure _
  | after d =>
      unfold amount parts arriving
      dsimp only
      split
      · next hwhole =>
        rw [← Duration.ofSeconds_seconds hwhole]
        exact (Varint.reads_uint64 _).bind_pure fun n => after (.ofSeconds n)
      · next hpart =>
        split
        · next hmillis =>
          rw [← Duration.ofMillis_millis hpart hmillis]
          exact (Varint.reads_uint64 _).bind_pure fun n => after (.ofMillis n)
        · next hnanos =>
          rw [← Duration.ofNanos_nanos hpart hnanos]
          exact (Varint.reads_uint64 _).bind_pure fun n => after (.ofNanos n)

theorem fits_after_iff {d : Duration} : (after d).Fits ↔ d.nanos / d.unit < UInt64.size := by
  have hd := d.nanos_lt
  unfold Fits Duration.unit
  dsimp only
  split
  · next hwhole =>
    apply iff_of_true (.inl hwhole)
    rwa [Nat.div_lt_iff_lt_mul (by decide)]
  · next hpart =>
    rw [or_iff_right hpart]
    split
    · next hmillis =>
      constructor
      · rintro (⟨-, hfits⟩ | hfits)
        · exact hfits
        · exact Nat.lt_of_le_of_lt (Nat.div_le_self _ _) hfits
      · intro hfits
        exact .inl ⟨hmillis, hfits⟩
    · next hnanos =>
      rw [Nat.div_one]
      exact or_iff_right fun h => hnanos h.1

theorem arriving_eq_iff (l : Lifetime) : l.arriving = l ↔ l.Fits := by
  cases l with
  | serverDefault => exact iff_of_true rfl trivial
  | immortal => exact iff_of_true rfl trivial
  | after d =>
      rw [fits_after_iff, ← Duration.narrowed_eq_iff]
      exact ⟨fun h => Lifetime.after.inj h, fun h => congrArg after h⟩

end Lifetime

namespace Expiration

def Fits (e : Expiration) : Prop :=
  e.lifespan.Fits ∧ e.maxIdle.Fits

/-- Each unit is found in its half of the first byte. -/
theorem units_apart {a b : UInt8} (ha : a < 16) (hb : b < 16) :
    (a <<< 4 ||| b) >>> 4 = a ∧ (a <<< 4 ||| b) &&& 0x0F = b := by
  have ha : a.toNat < 2 ^ 4 := UInt8.lt_iff_toNat_lt.1 ha
  have hb : b.toNat < 2 ^ 4 := UInt8.lt_iff_toNat_lt.1 hb
  have hbyte : (a <<< 4 ||| b).toNat = 2 ^ 4 * a.toNat + b.toNat := by
    have hhigh : (a <<< 4).toNat = 2 ^ 4 * a.toNat := by
      rw [UInt8.toNat_shiftLeft, Nat.shiftLeft_eq, Nat.mul_comm]
      show 2 ^ 4 * a.toNat % 2 ^ 8 = 2 ^ 4 * a.toNat
      omega
    rw [UInt8.toNat_or, hhigh, Nat.two_pow_add_eq_or_of_lt hb]
  constructor
  · apply UInt8.toNat_inj.1
    rw [UInt8.toNat_shiftRight, hbyte, Nat.shiftRight_eq_div_pow]
    show (2 ^ 4 * a.toNat + b.toNat) / 2 ^ 4 = a.toNat
    omega
  · apply UInt8.toNat_inj.1
    rw [UInt8.toNat_and, hbyte]
    show (2 ^ 4 * a.toNat + b.toNat) &&& (2 ^ 4 - 1) = b.toNat
    rw [Nat.and_two_pow_sub_one_eq_mod]
    omega

/-- Both lifetimes as the peer reads them. -/
def arriving (e : Expiration) : Expiration where
  lifespan := e.lifespan.arriving
  maxIdle := e.maxIdle.arriving

theorem reads_arriving (e : Expiration) : reader.Reads e.toBytes e.arriving := by
  have hunits := units_apart e.lifespan.unit_lt e.maxIdle.unit_lt
  apply Reads.byte_bind
  rw [hunits.1, hunits.2]
  exact e.lifespan.reads_arriving.bind (e.maxIdle.reads_arriving.bind_pure _)

theorem arriving_eq_iff (e : Expiration) : e.arriving = e ↔ e.Fits := by
  rcases e with ⟨lifespan, maxIdle⟩
  show mk lifespan.arriving maxIdle.arriving = mk lifespan maxIdle ↔ lifespan.Fits ∧ maxIdle.Fits
  rw [mk.injEq, lifespan.arriving_eq_iff, maxIdle.arriving_eq_iff]

theorem reads_reader {e : Expiration} (h : e.Fits) : reader.Reads e.toBytes e := by
  have hread := e.reads_arriving
  rwa [e.arriving_eq_iff.2 h] at hread

/-- Every expiration is read back without an error and without touching the bytes behind it. It is
the one that was written exactly if both amounts fit in 64 bits; of a larger amount only the low
64 bits arrive. -/
theorem read_back_iff_fits (e : Expiration) (rest : Bytes) :
    reader (e.toBytes ++ rest) = (.ok e.arriving, rest) ∧
      (reader (e.toBytes ++ rest) = (.ok e, rest) ↔ e.Fits) := by
  have hread := e.reads_arriving rest
  constructor
  · exact hread
  · rw [hread, ← e.arriving_eq_iff]
    constructor
    · intro h
      cases e
      injection h with h _
      exact Except.ok.inj h
    · intro h
      rw [h]

/-- A lifespan of 2 ^ 64 nanoseconds, almost 585 years, arrives as no time at all. -/
theorem read_back_centuries :
    reader
        (toBytes { lifespan := .after (.ofParts 18446744073 709551616), maxIdle := .immortal } ++
          [7]) =
      (.ok { lifespan := .after (.ofNanos 0), maxIdle := .immortal }, [7]) := by
  have hread := (read_back_iff_fits
    { lifespan := .after (.ofParts 18446744073 709551616), maxIdle := .immortal } [7]).1
  rw [hread]
  rfl

end Expiration
end GridClient
