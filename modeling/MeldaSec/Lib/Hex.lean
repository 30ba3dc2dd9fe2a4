import Mathlib.Data.List.Basic
import Mathlib.Tactic.IntervalCases

/-!
# Hexadecimal text

`encode` writes two lower-case digits a byte.  `decode` reads both cases and
fails on an odd number of digits and on any other character.  On lower-case
text the two are inverse to each other, so a byte string has exactly one
lower-case spelling, and the only lower-case text that fails to decode is
text of odd length.
-/

namespace Hex

/-- The lower-case digit of a value below sixteen. -/
def digit (n : Nat) : Char :=
  if n < 10 then Char.ofNat (48 + n) else Char.ofNat (87 + n)

/-- The value of a digit of either case. -/
def val (c : Char) : Option Nat :=
  if 48 ≤ c.toNat ∧ c.toNat ≤ 57 then some (c.toNat - 48)
  else if 97 ≤ c.toNat ∧ c.toNat ≤ 102 then some (c.toNat - 87)
  else if 65 ≤ c.toNat ∧ c.toNat ≤ 70 then some (c.toNat - 55)
  else none

/-- A digit that `encode` writes: `0` to `9` or `a` to `f`. -/
def isLower (c : Char) : Bool :=
  (48 ≤ c.toNat && c.toNat ≤ 57) || (97 ≤ c.toNat && c.toNat ≤ 102)

/-- The digits of a byte string, high half first. -/
def encodeChars : List UInt8 → List Char
  | [] => []
  | b :: bs => digit (b.toNat / 16) :: digit (b.toNat % 16) :: encodeChars bs

/-- Two digits make one byte. -/
def decodeChars : List Char → Option (List UInt8)
  | [] => some []
  | [_] => none
  | c :: d :: cs =>
    match val c, val d, decodeChars cs with
    | some hi, some lo, some bs => some (UInt8.ofNat (16 * hi + lo) :: bs)
    | _, _, _ => none

/-- `hex::encode`. -/
def encode (bs : List UInt8) : String := String.ofList (encodeChars bs)

/-- `hex::decode`. -/
def decode (s : String) : Option (List UInt8) := decodeChars s.toList

theorem isLower_digit {n : Nat} (h : n < 16) : isLower (digit n) = true := by
  interval_cases n <;> rfl

theorem val_digit {n : Nat} (h : n < 16) : val (digit n) = some n := by
  interval_cases n <;> rfl

/-- A lower-case digit has a value, and is the digit of that value. -/
theorem exists_val_of_isLower {c : Char} (h : isLower c = true) :
    ∃ n, n < 16 ∧ val c = some n ∧ digit n = c := by
  have hback : Char.ofNat c.toNat = c := Char.ofNat_toNat c
  simp only [isLower, Bool.or_eq_true, Bool.and_eq_true, decide_eq_true_eq] at h
  rcases h with h | h
  · refine ⟨c.toNat - 48, by omega, ?_, ?_⟩
    · rw [val, if_pos h]
    · rw [digit, if_pos (by omega), show 48 + (c.toNat - 48) = c.toNat by omega, hback]
  · refine ⟨c.toNat - 87, by omega, ?_, ?_⟩
    · rw [val, if_neg (by omega), if_pos h]
    · rw [digit, if_neg (by omega), show 87 + (c.toNat - 87) = c.toNat by omega, hback]

/-- The encoder writes lower-case digits only. -/
theorem isLower_of_mem_encodeChars {bs : List UInt8} {c : Char}
    (h : c ∈ encodeChars bs) : isLower c = true := by
  induction bs with
  | nil => simp [encodeChars] at h
  | cons b bs ih =>
    have hb := b.toNat_lt
    simp only [encodeChars, List.mem_cons] at h
    rcases h with rfl | rfl | h
    · exact isLower_digit (by omega)
    · exact isLower_digit (by omega)
    · exact ih h

theorem encodeChars_ne_nil {bs : List UInt8} (h : bs ≠ []) : encodeChars bs ≠ [] := by
  cases bs with
  | nil => exact absurd rfl h
  | cons b bs => simp [encodeChars]

theorem decodeChars_encodeChars (bs : List UInt8) :
    decodeChars (encodeChars bs) = some bs := by
  induction bs with
  | nil => rfl
  | cons b bs ih =>
    have hb := b.toNat_lt
    simp only [encodeChars, decodeChars, ih, val_digit (show b.toNat / 16 < 16 by omega),
      val_digit (show b.toNat % 16 < 16 by omega)]
    rw [show 16 * (b.toNat / 16) + b.toNat % 16 = b.toNat by omega, UInt8.ofNat_toNat]

/-- Only the empty text decodes to no bytes. -/
theorem ne_nil_of_decodeChars {cs : List Char} {bs : List UInt8}
    (h : decodeChars cs = some bs) (hcs : cs ≠ []) : bs ≠ [] := by
  match cs, hcs with
  | [_], _ => simp [decodeChars] at h
  | c :: d :: cs, _ =>
    simp only [decodeChars] at h
    split at h
    · obtain rfl := Option.some.inj h
      simp
    · simp at h

/-- Lower-case text fails to decode exactly when its length is odd. -/
theorem decodeChars_eq_none_iff : ∀ {cs : List Char}, (∀ c ∈ cs, isLower c = true) →
    (decodeChars cs = none ↔ cs.length % 2 = 1)
  | [], _ => by simp [decodeChars]
  | [_], _ => by simp [decodeChars]
  | c :: d :: cs, h => by
    obtain ⟨m, -, hm, -⟩ := exists_val_of_isLower (h c (by simp))
    obtain ⟨n, -, hn, -⟩ := exists_val_of_isLower (h d (by simp))
    have ih : decodeChars cs = none ↔ cs.length % 2 = 1 :=
      decodeChars_eq_none_iff fun x hx => h x (by simp [hx])
    have hlen : (c :: d :: cs).length % 2 = cs.length % 2 := by
      simp only [List.length_cons]
      omega
    rw [hlen, ← ih]
    cases hcs : decodeChars cs <;> simp [decodeChars, hm, hn, hcs]

/-- Lower-case text is the encoding of the bytes that it decodes to. -/
theorem encodeChars_of_decodeChars : ∀ {cs : List Char} {bs : List UInt8},
    (∀ c ∈ cs, isLower c = true) → decodeChars cs = some bs → encodeChars bs = cs
  | [], bs, _, h => by
    obtain rfl : [] = bs := Option.some.inj h
    rfl
  | [_], _, _, h => by simp [decodeChars] at h
  | c :: d :: cs, bs, hlower, h => by
    obtain ⟨m, hm, hvalm, hdigitm⟩ := exists_val_of_isLower (hlower c (by simp))
    obtain ⟨n, hn, hvaln, hdigitn⟩ := exists_val_of_isLower (hlower d (by simp))
    cases hcs : decodeChars cs with
    | none => simp [decodeChars, hcs] at h
    | some rest =>
      have ih : encodeChars rest = cs :=
        encodeChars_of_decodeChars (fun x hx => hlower x (by simp [hx])) hcs
      simp only [decodeChars, hvalm, hvaln, hcs, Option.some.injEq] at h
      have hbyte : (UInt8.ofNat (16 * m + n)).toNat = 16 * m + n := by
        rw [UInt8.toNat_ofNat', Nat.mod_eq_of_lt (by omega)]
      rw [← h, encodeChars, hbyte, ih, show (16 * m + n) / 16 = m by omega,
        show (16 * m + n) % 16 = n by omega, hdigitm, hdigitn]

end Hex
