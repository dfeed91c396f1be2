/-
# Arac.Theory.Base64 -- the standard base64 encoding

`encode` writes three bytes as four digits of six bits and pads a last group with `=`;
`decode` reads the digits and skips every other character.  `decode_encode` is the
round trip, and `encode_mem` says which characters an encoded text consists of.
-/
import Mathlib.Data.List.Basic

namespace Arac.Theory.Base64

set_option autoImplicit false

def alphabet : List Char :=
  "ABCDEFGHIJKLMNOPQRSTUVWXYZabcdefghijklmnopqrstuvwxyz0123456789+/".toList

/-- The digit of a value of six bits. -/
def digit (v : Nat) : Char := alphabet.getD v '='

/-- The value of a digit; none for any other character. -/
def value (c : Char) : Option Nat := alphabet.findIdx? (· = c)

def encode : List UInt8 → List Char
  | a :: b :: c :: rest =>
      digit (a.toNat / 4) :: digit (a.toNat % 4 * 16 + b.toNat / 16) ::
        digit (b.toNat % 16 * 4 + c.toNat / 64) :: digit (c.toNat % 64) :: encode rest
  | [a, b] =>
      [digit (a.toNat / 4), digit (a.toNat % 4 * 16 + b.toNat / 16), digit (b.toNat % 16 * 4), '=']
  | [a] => [digit (a.toNat / 4), digit (a.toNat % 4 * 16), '=', '=']
  | [] => []

/-- The bytes of a sequence of values; bits that fill no byte are dropped. -/
def bytes : List Nat → List UInt8
  | p :: q :: r :: s :: rest =>
      UInt8.ofNat (p * 4 + q / 16) :: UInt8.ofNat (q % 16 * 16 + r / 4) ::
        UInt8.ofNat (r % 4 * 64 + s) :: bytes rest
  | [p, q, r] => [UInt8.ofNat (p * 4 + q / 16), UInt8.ofNat (q % 16 * 16 + r / 4)]
  | [p, q] => [UInt8.ofNat (p * 4 + q / 16)]
  | _ => []

/-- Read the digits, skipping every other character. -/
def decode (text : List Char) : List UInt8 := bytes (text.filterMap value)

/-! ## Digits -/

theorem value_pad : value '=' = none := by decide

theorem value_digit {v : Nat} (bounded : v < 64) : value (digit v) = some v := by
  have every : ∀ v < 64, value (digit v) = some v := by decide
  exact every v bounded

theorem digit_mem {v : Nat} (bounded : v < 64) : digit v ∈ alphabet := by
  have every : ∀ v < 64, digit v ∈ alphabet := by decide
  exact every v bounded

/-! ## Encoded texts -/

/-- An encoded text consists of digits and padding. -/
theorem encode_mem (bs : List UInt8) : ∀ c ∈ encode bs, c ∈ alphabet ∨ c = '=' := by
  fun_induction encode bs with
  | case1 a b c rest ih =>
      have ha := a.toNat_lt
      have hb := b.toNat_lt
      have hc := c.toNat_lt
      simp only [List.forall_mem_cons]
      exact ⟨.inl (digit_mem (by omega)), .inl (digit_mem (by omega)), .inl (digit_mem (by omega)),
        .inl (digit_mem (by omega)), ih⟩
  | case2 a b =>
      have ha := a.toNat_lt
      have hb := b.toNat_lt
      simp only [List.forall_mem_cons]
      exact ⟨.inl (digit_mem (by omega)), .inl (digit_mem (by omega)), .inl (digit_mem (by omega)),
        .inr trivial, by simp⟩
  | case3 a =>
      have ha := a.toNat_lt
      simp only [List.forall_mem_cons]
      exact ⟨.inl (digit_mem (by omega)), .inl (digit_mem (by omega)), .inr trivial, .inr trivial, by simp⟩
  | case4 => simp

theorem encode_ne_nil {bs : List UInt8} (some_byte : bs ≠ []) : encode bs ≠ [] := by
  fun_cases encode bs with
  | case4 => exact absurd rfl some_byte
  | _ => simp

theorem byte_of_bits {b : UInt8} {n : Nat} (bits : n = b.toNat) : UInt8.ofNat n = b := by
  rw [bits, UInt8.ofNat_toNat]

/-- Decoding inverts encoding. -/
theorem decode_encode (bs : List UInt8) : decode (encode bs) = bs := by
  unfold decode
  fun_induction encode bs with
  | case1 a b c rest ih =>
      have ha := a.toNat_lt
      have hb := b.toNat_lt
      have hc := c.toNat_lt
      simp only [List.filterMap_cons, value_digit (v := a.toNat / 4) (by omega),
        value_digit (v := a.toNat % 4 * 16 + b.toNat / 16) (by omega),
        value_digit (v := b.toNat % 16 * 4 + c.toNat / 64) (by omega),
        value_digit (v := c.toNat % 64) (by omega), bytes, ih]
      rw [byte_of_bits (b := a) (by omega), byte_of_bits (b := b) (by omega),
        byte_of_bits (b := c) (by omega)]
  | case2 a b =>
      have ha := a.toNat_lt
      have hb := b.toNat_lt
      simp only [List.filterMap_cons, value_digit (v := a.toNat / 4) (by omega),
        value_digit (v := a.toNat % 4 * 16 + b.toNat / 16) (by omega),
        value_digit (v := b.toNat % 16 * 4) (by omega), value_pad, List.filterMap_nil, bytes]
      rw [byte_of_bits (b := a) (by omega), byte_of_bits (b := b) (by omega)]
  | case3 a =>
      have ha := a.toNat_lt
      simp only [List.filterMap_cons, value_digit (v := a.toNat / 4) (by omega),
        value_digit (v := a.toNat % 4 * 16) (by omega), value_pad, List.filterMap_nil, bytes]
      rw [byte_of_bits (b := a) (by omega)]
  | case4 => rfl

/-- Characters that are no digits may be inserted anywhere. -/
theorem decode_filter (keep : Char → Bool) (digits : ∀ c ∈ alphabet, keep c = true)
    (text : List Char) : decode (text.filter keep) = decode text := by
  have skipped : (text.filter keep).filterMap value = text.filterMap value := by
    induction text with
    | nil => rfl
    | cons c text ih =>
        by_cases kept : keep c = true
        · rw [List.filter_cons_of_pos kept, List.filterMap_cons, List.filterMap_cons, ih]
        · have unknown : value c = none := by
            refine List.findIdx?_eq_none_iff.mpr fun d member => ?_
            refine decide_eq_false fun same => kept (digits c (same ▸ member))
          rw [List.filter_cons_of_neg kept, List.filterMap_cons, unknown, ih]
  rw [decode, decode, skipped]

end Arac.Theory.Base64
