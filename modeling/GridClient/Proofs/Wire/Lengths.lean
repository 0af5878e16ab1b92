import GridClient.Proofs.Reader.Ensures
import GridClient.Proofs.Wire.RoundTrip

/-!
# Lengths that are read

The length that comes before a block has 32 bits, and one of them is a sign if the block is
optional. No block that is read is longer.
-/

namespace GridClient

open Reader

theorem Varint.ensures_length : length.Ensures fun n => n < UInt32.size :=
  (ensures_true uint32).bind fun n _ => ensures_pure n.toNat_lt

namespace Block

theorem ensures_bytes : bytes.Ensures fun b => b.length < UInt32.size := by
  refine Varint.ensures_length.bind ?_
  intro n hn buffer b rest h
  rw [ensures_take n _ buffer b rest h]
  exact hn

theorem ensures_decodeText {b : Bytes} {n : Nat} (hb : b.length < n) :
    (decodeText b).Ensures fun s => (Bytes.ofText s).length < n := by
  unfold decodeText
  split
  · next s hs =>
    apply ensures_pure
    rw [Utf8.ofText_of_decode hs]
    exact hb
  · exact ensures_fault _

theorem ensures_text : text.Ensures fun s => (Bytes.ofText s).length < UInt32.size :=
  ensures_bytes.bind fun _ hb => ensures_decodeText hb

theorem ensures_optionalBytes : optionalBytes.Ensures fun b => ∀ bytes ∈ b, bytes.length < 2 ^ 31 := by
  refine (ensures_true Varint.int32).bind ?_
  intro n _
  split
  · exact ensures_pure (by simp)
  · refine (ensures_take n.toInt.toNat _).bind ?_
    intro taken htaken
    apply ensures_pure
    rintro _ ⟨⟩
    have hlt := n.toInt_lt
    omega

theorem ensures_optionalText :
    optionalText.Ensures fun s => ∀ text ∈ s, (Bytes.ofText text).length < 2 ^ 31 := by
  refine ensures_optionalBytes.bind ?_
  intro b hb
  cases b with
  | none => exact ensures_pure (by simp)
  | some bytes =>
      refine (ensures_decodeText (hb bytes rfl)).bind ?_
      intro text htext
      apply ensures_pure
      rintro _ ⟨⟩
      exact htext

end Block
end GridClient
