import GridClient.Address

/-!
# Addresses as texts

The text of an address is its host, a colon and its port in decimal digits. The host may hold
colons itself, a port has none, so the last colon divides them. Reading accepts a few more texts
than are ever written, since a port may have a plus sign and leading zeros, but it never takes one
address for another.
-/

namespace GridClient
namespace NodeAddress

/-!
# The last colon
-/

theorem splitLast_eq_none_iff {text : List Char} : splitLast text = none ↔ ':' ∉ text := by
  induction text with
  | nil => simp [splitLast]
  | cons c rest ih =>
      rw [splitLast, List.mem_cons, not_or, ← ih]
      cases splitLast rest with
      | none => simp [eq_comm]
      | some parts => simp

theorem splitLast_eq_some_iff {text host port : List Char} :
    splitLast text = some (host, port) ↔ text = host ++ ':' :: port ∧ ':' ∉ port := by
  induction text generalizing host with
  | nil => simp [splitLast]
  | cons c rest ih =>
      rw [splitLast]
      constructor
      · intro h
        split at h
        · next before after hrest =>
          cases h
          rcases ih.1 hrest with ⟨rfl, hport⟩
          exact ⟨rfl, hport⟩
        · next hrest =>
          split at h
          · next hcolon =>
            cases h
            exact ⟨by rw [hcolon, List.nil_append], splitLast_eq_none_iff.1 hrest⟩
          · cases h
      · rintro ⟨htext, hport⟩
        cases host with
        | nil =>
            cases htext
            rw [splitLast_eq_none_iff.2 hport]
            rfl
        | cons d host =>
            cases htext
            rw [ih.2 ⟨rfl, hport⟩]

/-!
# Ports
-/

/-- Digits, one at least, and the number that they make. -/
def IsNumber (digits : List Char) (n : Nat) : Prop :=
  digits ≠ [] ∧ (∀ c ∈ digits, c.isDigit) ∧ Nat.ofDigitChars 10 digits 0 = n

/-- A number with a plus sign before it or without. -/
inductive PortText : List Char → Nat → Prop where
  | plain {digits : List Char} {n : Nat} (h : IsNumber digits n) : PortText digits n
  | signed {digits : List Char} {n : Nat} (h : IsNumber digits n) : PortText ('+' :: digits) n

theorem IsNumber.not_mem {digits : List Char} {n : Nat} (h : IsNumber digits n) {c : Char}
    (hc : c.isDigit = false) : c ∉ digits := by
  intro hmem
  have hdigit := h.2.1 c hmem
  rw [hc] at hdigit
  cases hdigit

theorem portText_signed_iff {digits : List Char} {n : Nat} :
    PortText ('+' :: digits) n ↔ IsNumber digits n := by
  constructor
  · intro hport
    cases hport with
    | plain h => exact absurd List.mem_cons_self (h.not_mem (by decide))
    | signed h => exact h
  · exact .signed

theorem portText_plain_iff {text : List Char} {n : Nat} (hplain : ∀ digits, text ≠ '+' :: digits) :
    PortText text n ↔ IsNumber text n := by
  constructor
  · intro hport
    cases hport with
    | plain h => exact h
    | signed h => exact absurd rfl (hplain _)
  · exact .plain

theorem PortText.colon_not_mem {text : List Char} {n : Nat} (h : PortText text n) :
    ':' ∉ text := by
  cases h with
  | plain h => exact h.not_mem (by decide)
  | signed h =>
      rw [List.mem_cons, not_or]
      exact ⟨by decide, h.not_mem (by decide)⟩

theorem portText_repr (n : Nat) : PortText n.repr.toList n := by
  rw [Nat.toList_repr]
  refine .plain ⟨Nat.toDigits_ne_nil, ?_, Nat.ofDigitChars_ten_toDigits⟩
  intro c hc
  exact Nat.isDigit_of_mem_toDigits (by decide) (by decide) hc

/-- Digits that follow make a number no smaller, so it is safe to stop at the bound. -/
theorem le_ofDigitChars (digits : List Char) (n : Nat) : n ≤ Nat.ofDigitChars 10 digits n := by
  rw [Nat.ofDigitChars_eq_ofDigitChars_zero]
  exact Nat.le_trans (Nat.le_mul_of_pos_left n (Nat.pow_pos (by decide))) (Nat.le_add_right _ _)

theorem portFrom_eq_ok_iff {n : Nat} (hn : n < 65536) {digits : List Char} {port : UInt16} :
    portFrom n digits = .ok port ↔
      (∀ c ∈ digits, c.isDigit) ∧ Nat.ofDigitChars 10 digits n = port.toNat := by
  induction digits generalizing n with
  | nil =>
      have hvalue : (UInt16.ofNat n).toNat = n := UInt16.toNat_ofNat_of_lt' hn
      rw [portFrom, Except.ok.injEq, ← UInt16.toNat_inj, hvalue, Nat.ofDigitChars_nil]
      exact (and_iff_right nofun).symm
  | cons c rest ih =>
      rw [portFrom, List.forall_mem_cons, Nat.ofDigitChars_cons, Nat.mul_comm 10 n]
      dsimp only
      split
      · next hdigit =>
        split
        · next hnext => rw [ih hnext, and_iff_right hdigit]
        · next hlarge =>
          -- the number would be too large whatever digits follow
          refine iff_of_false nofun ?_
          rintro ⟨-, hvalue⟩
          have hgrows := le_ofDigitChars rest (n * 10 + (c.toNat - '0'.toNat))
          have hport := port.toNat_lt
          omega
      · next hother => exact iff_of_false nofun fun h => hother h.1.1

theorem portFrom_zero_eq_ok_iff {digits : List Char} (hne : digits ≠ []) {port : UInt16} :
    portFrom 0 digits = .ok port ↔ IsNumber digits port.toNat := by
  rw [portFrom_eq_ok_iff (by decide), IsNumber, and_iff_right hne]

theorem readPort_eq_ok_iff {text : List Char} {port : UInt16} :
    readPort text = .ok port ↔ PortText text port.toNat := by
  fun_cases readPort text with
  | case1 =>
      have hplain : ∀ digits, [] ≠ '+' :: digits := nofun
      rw [portText_plain_iff hplain]
      exact iff_of_false nofun fun h => h.1 rfl
  | case2 =>
      rw [portText_signed_iff]
      exact iff_of_false nofun fun h => h.1 rfl
  | case3 digits hne =>
      rw [portText_signed_iff, portFrom_zero_eq_ok_iff hne]
  | case4 text hne hsingle hplain =>
      rw [portText_plain_iff hplain, portFrom_zero_eq_ok_iff hne]

/-!
# Addresses
-/

theorem text_eq (a : NodeAddress) : a.text = a.host ++ ":" ++ a.port.toNat.repr := by
  unfold text
  rfl

theorem splitLast_text (a : NodeAddress) :
    splitLast a.text.toList = some (a.host.toList, a.port.toNat.repr.toList) := by
  rw [splitLast_eq_some_iff, text_eq]
  exact ⟨by simp, (portText_repr _).colon_not_mem⟩

/-- Different addresses read differently. -/
theorem text_injective : Function.Injective text := by
  intro a b h
  have hparts := (splitLast_text a).symm.trans (h ▸ splitLast_text b)
  rw [Option.some.injEq, Prod.mk.injEq, Nat.toList_repr, Nat.toList_repr] at hparts
  have hport := congrArg (Nat.ofDigitChars 10 · 0) hparts.2
  rw [Nat.ofDigitChars_ten_toDigits, Nat.ofDigitChars_ten_toDigits, UInt16.toNat_inj] at hport
  cases a
  cases b
  rw [mk.injEq]
  exact ⟨String.toList_injective hparts.1, hport⟩

theorem ofChars_eq_ok_iff {text : List Char} {a : NodeAddress} :
    ofChars text = .ok a ↔ ∃ port, text = a.host.toList ++ ':' :: port ∧ a.host ≠ "" ∧
      ':' ∉ port ∧ PortText port a.port.toNat := by
  constructor
  · intro h
    unfold ofChars at h
    split at h
    · cases h
    · next host port hsplit =>
      split at h
      · cases h
      · next p hread =>
        split at h
        · cases h
        · next hhost =>
          cases h
          rcases splitLast_eq_some_iff.1 hsplit with ⟨htext, hcolon⟩
          refine ⟨port, ?_, ?_, hcolon, readPort_eq_ok_iff.1 hread⟩
          · rw [String.toList_ofList, htext]
          · rwa [Ne, String.ofList_eq_empty_iff]
  · rintro ⟨port, htext, hhost, hcolon, hport⟩
    have hchars : a.host.toList ≠ [] := mt String.toList_eq_nil_iff.1 hhost
    unfold ofChars
    rw [splitLast_eq_some_iff.2 ⟨htext, hcolon⟩]
    dsimp only
    rw [readPort_eq_ok_iff.2 hport]
    dsimp only
    rw [if_neg hchars, String.ofList_toList]

theorem parse_eq_ok_iff_ofChars {text : String} {a : NodeAddress} :
    parse text = .ok a ↔ ofChars text.toList = .ok a := by
  unfold parse
  cases ofChars text.toList with
  | ok b =>
      -- the errors have different types
      rw [Except.ok.injEq, Except.ok.injEq]
  | error f => exact iff_of_false nofun nofun

theorem parse_eq_ok_iff {text : String} {a : NodeAddress} :
    parse text = .ok a ↔ ∃ port : String, text = a.host ++ ":" ++ port ∧ a.host ≠ "" ∧
      ':' ∉ port.toList ∧ PortText port.toList a.port.toNat := by
  have hchars : ∀ port : String, text = a.host ++ ":" ++ port ↔
      text.toList = a.host.toList ++ ':' :: port.toList := by
    intro port
    rw [← String.toList_inj, String.toList_append, String.toList_append, List.append_assoc]
    rfl
  rw [parse_eq_ok_iff_ofChars, ofChars_eq_ok_iff]
  constructor
  · rintro ⟨port, htext, hport⟩
    refine ⟨String.ofList port, ?_, ?_⟩
    · rwa [hchars, String.toList_ofList]
    · rwa [String.toList_ofList]
  · rintro ⟨port, htext, hport⟩
    exact ⟨port.toList, (hchars port).1 htext, hport⟩

theorem parse_text {a : NodeAddress} (h : a.host ≠ "") : parse a.text = .ok a := by
  have hport := portText_repr a.port.toNat
  exact parse_eq_ok_iff.2 ⟨_, a.text_eq, h, hport.colon_not_mem, hport⟩

/-- An address with a host is read from its text. A text is read as an address exactly if it is a
host that is not empty, a colon and a port of at most 65535 that has no colon; this host and this
port are the address, and so its text is read as the same address again. -/
theorem parsed_as_written :
    (∀ a : NodeAddress, a.host ≠ "" → parse a.text = .ok a) ∧
    (∀ text a, parse text = .ok a ↔ ∃ (host port : String) (n : Nat),
      text = host ++ ":" ++ port ∧ host ≠ "" ∧ ':' ∉ port.toList ∧ PortText port.toList n ∧
        n ≤ 65535 ∧ a = ⟨host, UInt16.ofNat n⟩) ∧
    ∀ text a, parse text = .ok a → parse a.text = .ok a := by
  refine ⟨fun a h => parse_text h, ?_, ?_⟩
  · intro text a
    rw [parse_eq_ok_iff]
    constructor
    · rintro ⟨port, htext, hhost, hcolon, hport⟩
      exact ⟨a.host, port, a.port.toNat, htext, hhost, hcolon, hport,
        Nat.le_of_lt_succ a.port.toNat_lt, by rw [UInt16.ofNat_toNat]⟩
    · rintro ⟨host, port, n, htext, hhost, hcolon, hport, hn, rfl⟩
      have hvalue : (UInt16.ofNat n).toNat = n := UInt16.toNat_ofNat_of_lt' (Nat.lt_succ_of_le hn)
      exact ⟨port, htext, hhost, hcolon, by rwa [hvalue]⟩
  · intro text a h
    rcases parse_eq_ok_iff.1 h with ⟨-, -, hhost, -, -⟩
    exact parse_text hhost

/-- A host that is full of colons, and a port with a plus sign and leading zeros. -/
theorem parsed_as_written_colons :
    (⟨"::1", 65535⟩ : NodeAddress).text = "::1:65535" ∧
      parse "::1:65535" = .ok ⟨"::1", 65535⟩ ∧
      PortText "+0080".toList 80 ∧ parse "[::]:+0080" = .ok ⟨"[::]", 80⟩ ∧
      parse (⟨"[::]", 80⟩ : NodeAddress).text = .ok ⟨"[::]", 80⟩ := by
  have htext : (⟨"::1", 65535⟩ : NodeAddress).text = "::1:65535" := by
    decide +kernel
  have hparse := parsed_as_written.1 ⟨"::1", 65535⟩ (by decide)
  rw [htext] at hparse
  have hdigits : ∀ c ∈ ['0', '0', '8', '0'], c.isDigit := by
    simp
  have hport : PortText "+0080".toList 80 := .signed ⟨nofun, hdigits, rfl⟩
  have hspelled : parse "[::]:+0080" = .ok ⟨"[::]", 80⟩ :=
    (parsed_as_written.2.1 _ _).2
      ⟨"[::]", "+0080", 80, by decide, by decide, by decide, hport, by decide, rfl⟩
  exact ⟨htext, hparse, hport, hspelled, parsed_as_written.2.2 _ _ hspelled⟩

end NodeAddress
end GridClient
