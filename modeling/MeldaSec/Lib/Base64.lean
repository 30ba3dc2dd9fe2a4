import Mathlib.Data.List.Basic
import Mathlib.Tactic.IntervalCases

/-!
# Base64 text with padding

Three bytes make four characters of six bits.  A last group of one or two
bytes is padded, and the decoder refuses a padded group with stray bits.
-/

namespace Base64

/-- The character of a value below sixty-four. -/
def char (n : Nat) : Char :=
  if n < 26 then Char.ofNat (65 + n)
  else if n < 52 then Char.ofNat (71 + n)
  else if n < 62 then Char.ofNat (n - 4)
  else if n = 62 then '+' else '/'

/-- The value of a character of the alphabet. -/
def val (c : Char) : Option Nat :=
  if 65 ≤ c.toNat ∧ c.toNat ≤ 90 then some (c.toNat - 65)
  else if 97 ≤ c.toNat ∧ c.toNat ≤ 122 then some (c.toNat - 71)
  else if 48 ≤ c.toNat ∧ c.toNat ≤ 57 then some (c.toNat + 4)
  else if c.toNat = 43 then some 62
  else if c.toNat = 47 then some 63
  else none

/-- The characters of a byte string. -/
def encodeChars : List UInt8 → List Char
  | [] => []
  | [b] => [char (b.toNat / 4), char (b.toNat % 4 * 16), '=', '=']
  | [b, c] =>
    [char (b.toNat / 4), char (b.toNat % 4 * 16 + c.toNat / 16), char (c.toNat % 16 * 4), '=']
  | b :: c :: d :: bs =>
    char (b.toNat / 4) :: char (b.toNat % 4 * 16 + c.toNat / 16) ::
      char (c.toNat % 16 * 4 + d.toNat / 64) :: char (d.toNat % 64) :: encodeChars bs

/-- Four characters make one, two or three bytes. -/
def decodeChars : List Char → Option (List UInt8)
  | [] => some []
  | c₀ :: c₁ :: c₂ :: c₃ :: cs =>
    match val c₀, val c₁, val c₂, val c₃ with
    | some n₀, some n₁, some n₂, some n₃ =>
      (decodeChars cs).map fun bs =>
        UInt8.ofNat (n₀ * 4 + n₁ / 16) :: UInt8.ofNat (n₁ % 16 * 16 + n₂ / 4) ::
          UInt8.ofNat (n₂ % 4 * 64 + n₃) :: bs
    | some n₀, some n₁, some n₂, none =>
      if c₃ = '=' ∧ cs = [] ∧ n₂ % 4 = 0 then
        some [UInt8.ofNat (n₀ * 4 + n₁ / 16), UInt8.ofNat (n₁ % 16 * 16 + n₂ / 4)]
      else none
    | some n₀, some n₁, none, none =>
      if c₂ = '=' ∧ c₃ = '=' ∧ cs = [] ∧ n₁ % 16 = 0 then
        some [UInt8.ofNat (n₀ * 4 + n₁ / 16)]
      else none
    | _, _, _, _ => none
  | _ => none

def encode (bs : List UInt8) : String := String.ofList (encodeChars bs)

def decode (s : String) : Option (List UInt8) := decodeChars s.toList

theorem val_char {n : Nat} (h : n < 64) : val (char n) = some n := by
  interval_cases n <;> rfl

theorem val_padding : val '=' = none := rfl

theorem decodeChars_encodeChars (bs : List UInt8) :
    decodeChars (encodeChars bs) = some bs := by
  induction bs using encodeChars.induct with
  | case1 => rfl
  | case2 b =>
    have hb := b.toNat_lt
    have h₀ := val_char (show b.toNat / 4 < 64 by omega)
    have h₁ := val_char (show b.toNat % 4 * 16 < 64 by omega)
    simp only [encodeChars, decodeChars, h₀, h₁, val_padding, true_and]
    rw [if_pos (by omega), show b.toNat / 4 * 4 + b.toNat % 4 * 16 / 16 = b.toNat by omega,
      UInt8.ofNat_toNat]
  | case3 b c =>
    have hb := b.toNat_lt
    have hc := c.toNat_lt
    have h₀ := val_char (show b.toNat / 4 < 64 by omega)
    have h₁ := val_char (show b.toNat % 4 * 16 + c.toNat / 16 < 64 by omega)
    have h₂ := val_char (show c.toNat % 16 * 4 < 64 by omega)
    simp only [encodeChars, decodeChars, h₀, h₁, h₂, val_padding, true_and]
    rw [if_pos (by omega),
      show b.toNat / 4 * 4 + (b.toNat % 4 * 16 + c.toNat / 16) / 16 = b.toNat by omega,
      show (b.toNat % 4 * 16 + c.toNat / 16) % 16 * 16 + c.toNat % 16 * 4 / 4 = c.toNat by omega,
      UInt8.ofNat_toNat, UInt8.ofNat_toNat]
  | case4 b c d bs ih =>
    have hb := b.toNat_lt
    have hc := c.toNat_lt
    have hd := d.toNat_lt
    have h₀ := val_char (show b.toNat / 4 < 64 by omega)
    have h₁ := val_char (show b.toNat % 4 * 16 + c.toNat / 16 < 64 by omega)
    have h₂ := val_char (show c.toNat % 16 * 4 + d.toNat / 64 < 64 by omega)
    have h₃ := val_char (show d.toNat % 64 < 64 by omega)
    simp only [encodeChars, decodeChars, h₀, h₁, h₂, h₃, ih, Option.map_some]
    rw [show b.toNat / 4 * 4 + (b.toNat % 4 * 16 + c.toNat / 16) / 16 = b.toNat by omega,
      show (b.toNat % 4 * 16 + c.toNat / 16) % 16 * 16
        + (c.toNat % 16 * 4 + d.toNat / 64) / 4 = c.toNat by omega,
      show (c.toNat % 16 * 4 + d.toNat / 64) % 4 * 64 + d.toNat % 64 = d.toNat by omega,
      UInt8.ofNat_toNat, UInt8.ofNat_toNat, UInt8.ofNat_toNat]

/-- Decoding gives back the encoded bytes. -/
theorem decode_encode (bs : List UInt8) : decode (encode bs) = some bs := by
  rw [decode, encode, String.toList_ofList, decodeChars_encodeChars]

end Base64
