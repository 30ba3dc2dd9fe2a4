import MeldaSec.Lib.Outcome
import MeldaSec.Lib.Hex
import Mathlib.Data.Finset.Defs
import Mathlib.Tactic.SplitIfs

/-!
# What the code takes from its crates and from the standard library

The names of the standard library come first: byte strings, fixed arrays,
`str::as_bytes`, `str::ends_with` and slicing with `usize` bounds.  They are
definitions, because the language fixes them.  The order in which a hash set
is iterated is not fixed, so it is a parameter (`HashIter`).

The third-party crates come second.  `Crates` has one field for each of their
functions that the code calls, and nothing is known about a field beyond its
type.  The structures behind it state the documented behaviour that a proof
may rely on, and a theorem that needs one of them takes it as a hypothesis.
-/

namespace MeldaSec

open Rust

/-- `anyhow::Error`, which the code builds from a message. -/
abbrev Error := String

/-- `anyhow::Result`, with the panic of the call beside its error. -/
abbrev Result (α : Type) := Outcome Error α

/-- `Vec<u8>` and `&[u8]`. -/
abbrev Bytes := List UInt8

/-- `[u8; n]`. -/
abbrev FixedBytes (n : Nat) := { bytes : Bytes // bytes.length = n }

/-- `<[u8; n]>::try_from`, and `slice::as_array`. -/
def tryInto (n : Nat) (bytes : Bytes) : Option (FixedBytes n) :=
  if h : bytes.length = n then some ⟨bytes, h⟩ else none

/-- The message of `std::array::TryFromSliceError`. -/
def tryFromSliceError : Error := "could not convert slice to array"

theorem tryInto_val {n : Nat} (array : FixedBytes n) : tryInto n array.val = some array := by
  rw [tryInto, dif_pos array.property]

theorem tryInto_eq_some_iff {n : Nat} {bytes : Bytes} {array : FixedBytes n} :
    tryInto n bytes = some array ↔ bytes = array.val := by
  constructor
  · intro h
    rw [tryInto] at h
    split_ifs at h
    rw [← Option.some.inj h]
  · rintro rfl
    exact tryInto_val array

theorem tryInto_eq_none_iff {n : Nat} {bytes : Bytes} :
    tryInto n bytes = none ↔ bytes.length ≠ n := by
  simp [tryInto]

/-- `str::as_bytes`. -/
def asBytes (s : String) : Bytes := s.toByteArray.data.toList

/-- `str::ends_with`. -/
def endsWith (s suffix : String) : Bool := suffix.toList.isSuffixOf s.toList

theorem endsWith_iff {s suffix : String} :
    endsWith s suffix = true ↔ ∃ stem, s = stem ++ suffix := by
  rw [endsWith, List.isSuffixOf_iff_suffix]
  constructor
  · intro ⟨stem, hstem⟩
    refine ⟨String.ofList stem, String.toList_inj.mp ?_⟩
    rw [String.toList_append, String.toList_ofList, hstem]
  · rintro ⟨stem, rfl⟩
    exact ⟨stem.toList, String.toList_append.symm⟩

theorem endsWith_append (stem suffix : String) : endsWith (stem ++ suffix) suffix = true :=
  endsWith_iff.mpr ⟨stem, rfl⟩

/-- The two suffixes of the program differ. -/
theorem endsWith_sig_of_delta {name : String} (h : endsWith name ".delta" = true) :
    endsWith name ".sig" = false := by
  rw [Bool.eq_false_iff]
  intro hsig
  obtain ⟨stem, hstem⟩ := endsWith_iff.mp h
  obtain ⟨stem', hstem'⟩ := endsWith_iff.mp hsig
  have hlast := congrArg (fun s : String => s.toList.getLast?) (hstem.symm.trans hstem')
  simp at hlast

/-- `HashSet::iter`: the items of a set in an order that is not specified. -/
structure HashIter (α : Type) where
  items : Finset α → List α
  items_eq : ∀ set, (items set : Multiset α) = set.val

theorem HashIter.mem_items {α : Type} (iter : HashIter α) {set : Finset α} {a : α} :
    a ∈ iter.items set ↔ a ∈ set := by
  rw [← Multiset.mem_coe, iter.items_eq, Finset.mem_val]

/-! ## The third-party crates -/

/-- `serde_json::Number`. -/
inductive Number where
  | posInt (n : UInt64)
  | negInt (n : Int64)
  | float (bits : UInt64)
  deriving DecidableEq

/-- `serde_json::Value`.  An object is its entries in the order of the map. -/
inductive Value where
  | null
  | bool (b : Bool)
  | number (n : Number)
  | string (s : String)
  | array (items : List Value)
  | object (entries : List (String × Value))

/-- The functions of the third-party crates, and the build profile. -/
class Crates where
  /-- Whether the build traps on integer overflow (`overflow-checks`). -/
  overflowChecks : Bool
  /-- `melda::melda::DeltaId`. -/
  DeltaId : Type
  deltaIdDecEq : DecidableEq DeltaId
  /-- `DeltaId::key`. -/
  deltaIdKey : DeltaId → String
  /-- `DeltaId::digest`. -/
  deltaIdDigest : DeltaId → String
  /-- `DeltaId::from`, which panics on an index that is too large for it. -/
  deltaIdFrom : String → Result DeltaId
  /-- Whether `VerifyingKey::from_bytes` accepts these bytes: they are the
  encoding of a curve point. -/
  isPoint : FixedBytes 32 → Bool
  /-- The message of the error that `VerifyingKey::from_bytes` returns. -/
  pointError : Error
  /-- `SigningKey::verifying_key`. -/
  verifyingKey : FixedBytes 32 → { bytes : FixedBytes 32 // isPoint bytes = true }
  /-- `Signer::sign`. -/
  sign : FixedBytes 32 → Bytes → FixedBytes 64
  /-- `Verifier::verify(..).is_ok()`. -/
  verify : { bytes : FixedBytes 32 // isPoint bytes = true } → Bytes → FixedBytes 64 → Bool
  /-- `STANDARD.encode`. -/
  base64Encode : Bytes → String
  /-- `STANDARD.decode`. -/
  base64Decode : String → Except Error Bytes
  /-- `serde_json::from_slice::<Value>`. -/
  valueFromSlice : Bytes → Except Error Value
  /-- `globset::Glob`. -/
  Glob : Type
  /-- `globset::GlobSet`. -/
  GlobSet : Type
  /-- `Glob::new`. -/
  globNew : String → Except Error Glob
  /-- `GlobSetBuilder::build`, after one `add` for each glob. -/
  globSetBuild : List Glob → Except Error GlobSet
  /-- `GlobSet::is_match`. -/
  globSetIsMatch : GlobSet → String → Bool
  /-- The Unicode digits that `\d` matches in a regular expression. -/
  isUnicodeDigit : Char → Bool

/-- `serde_json::from_slice` and `to_vec` at the type `T`. -/
class SerdeSlice (T : Type) where
  fromSlice : Bytes → Except Error T
  toVec : T → Except Error Bytes

/-- `serde_json::from_value` and `to_value` at the type `T`. -/
class SerdeValue (T : Type) where
  fromValue : Value → Except Error T
  toValue : T → Except Error Value

section

variable [Crates]

/-- `melda::melda::DeltaId`: an index and a digest. -/
abbrev DeltaId : Type := Crates.DeltaId

instance : DecidableEq DeltaId := Crates.deltaIdDecEq

/-- `DeltaId::key`, the name of the object that holds the delta. -/
def DeltaId.key (deltaId : DeltaId) : String := Crates.deltaIdKey deltaId

/-- `DeltaId::digest`. -/
def DeltaId.digest (deltaId : DeltaId) : String := Crates.deltaIdDigest deltaId

/-- `DeltaId::from`. -/
def DeltaId.fromStr (s : String) : Result DeltaId := Crates.deltaIdFrom s

/-- `ed25519_dalek::SigningKey`. -/
abbrev SigningKey := FixedBytes 32

/-- `ed25519_dalek::Signature`. -/
abbrev Signature := FixedBytes 64

/-- `ed25519_dalek::VerifyingKey`: the encoding of a curve point.  Equality
of verifying keys is equality of their bytes. -/
abbrev VerifyingKey := { bytes : FixedBytes 32 // Crates.isPoint bytes = true }

/-- `VerifyingKey::from_bytes`. -/
def VerifyingKey.fromBytes (bytes : FixedBytes 32) : Option VerifyingKey :=
  if h : Crates.isPoint bytes = true then some ⟨bytes, h⟩ else none

/-- `VerifyingKey::to_bytes().to_vec()`. -/
def VerifyingKey.toBytes (vk : VerifyingKey) : Bytes := vk.val.val

theorem VerifyingKey.toBytes_injective {vk vk' : VerifyingKey} (h : vk.toBytes = vk'.toBytes) :
    vk = vk' :=
  Subtype.ext (Subtype.ext h)

theorem VerifyingKey.fromBytes_eq_some_iff {bytes : FixedBytes 32} {vk : VerifyingKey} :
    VerifyingKey.fromBytes bytes = some vk ↔ bytes = vk.val := by
  constructor
  · intro h
    rw [VerifyingKey.fromBytes] at h
    split_ifs at h
    rw [← Option.some.inj h]
  · rintro rfl
    rw [VerifyingKey.fromBytes, dif_pos vk.property]

theorem VerifyingKey.fromBytes_val (vk : VerifyingKey) :
    VerifyingKey.fromBytes vk.val = some vk :=
  VerifyingKey.fromBytes_eq_some_iff.mpr rfl

/-- The encoding of a verifying key is thirty-two bytes long. -/
theorem VerifyingKey.tryInto_toBytes (vk : VerifyingKey) : tryInto 32 vk.toBytes = some vk.val :=
  tryInto_val vk.val

/-- Bytes are the encoding of the verifying key that they are read as. -/
theorem VerifyingKey.toBytes_eq_iff {vk : VerifyingKey} {bytes : Bytes} :
    vk.toBytes = bytes ↔
      ∃ array, tryInto 32 bytes = some array ∧ VerifyingKey.fromBytes array = some vk := by
  simp only [tryInto_eq_some_iff, VerifyingKey.fromBytes_eq_some_iff]
  constructor
  · rintro rfl
    exact ⟨vk.val, rfl, rfl⟩
  · rintro ⟨_, rfl, rfl⟩
    rfl

/-- `SigningKey::verifying_key`. -/
def SigningKey.verifyingKey (sk : SigningKey) : VerifyingKey := Crates.verifyingKey sk

/-- `SigningKey::sign` on the bytes of `message`. -/
def SigningKey.sign (sk : SigningKey) (message : Bytes) : Signature := Crates.sign sk message

/-- `VerifyingKey::verify(..).is_ok()`. -/
def VerifyingKey.verify (vk : VerifyingKey) (message : Bytes) (sig : Signature) : Bool :=
  Crates.verify vk message sig

/-! ## Slices with `usize` bounds -/

/-- `a + b` on `usize`: it traps or wraps, as the build profile says. -/
def usizeAdd (a b : UInt64) : Result UInt64 :=
  if Crates.overflowChecks = true ∧ UInt64.size ≤ a.toNat + b.toNat then .panic else .ok (a + b)

/-- `data[start..stop]`, which panics outside of `start <= stop <= len`. -/
def sliceRange (data : Bytes) (start stop : UInt64) : Result Bytes :=
  if start.toNat ≤ stop.toNat ∧ stop.toNat ≤ data.length then
    .ok ((data.drop start.toNat).take (stop.toNat - start.toNat))
  else .panic

/-- The bounds test and the slice that the adapters share, with the message
of the failed test. -/
def sliceOrErr (message : Error) (data : Bytes) (offset length : UInt64) : Result Bytes := do
  let stop ← usizeAdd offset length
  if data.length < stop.toNat then .err message else sliceRange data offset stop

/-- With an end that is a machine integer, the test and the slice agree. -/
theorem sliceOrErr_of_lt {message : Error} {data : Bytes} {offset length : UInt64}
    (h : offset.toNat + length.toNat < UInt64.size) :
    sliceOrErr message data offset length =
      if data.length < offset.toNat + length.toNat then .err message
      else .ok ((data.drop offset.toNat).take length.toNat) := by
  have hsum : (offset + length).toNat = offset.toNat + length.toNat := by
    rw [UInt64.toNat_add]
    exact Nat.mod_eq_of_lt h
  rw [sliceOrErr, usizeAdd, if_neg (fun htrap => absurd htrap.2 (by omega)), Outcome.ok_bind, hsum]
  split_ifs with hout
  · rfl
  · rw [sliceRange, if_pos (by omega), hsum, Nat.add_sub_cancel_left]

/-- A sum that is too large traps, or it wraps to a number before `offset`,
and then the test looks at the wrong end. -/
theorem sliceOrErr_of_overflow {message : Error} {data : Bytes} {offset length : UInt64}
    (h : UInt64.size ≤ offset.toNat + length.toNat) :
    sliceOrErr message data offset length =
      if Crates.overflowChecks = false ∧ data.length + UInt64.size < offset.toNat + length.toNat
      then .err message else .panic := by
  have ho := offset.toNat_lt_size
  have hl := length.toNat_lt_size
  have hsum : (offset + length).toNat = offset.toNat + length.toNat - UInt64.size := by
    rw [UInt64.toNat_add]
    show (offset.toNat + length.toNat) % UInt64.size = _
    rw [Nat.mod_eq_sub_mod h, Nat.mod_eq_of_lt (by omega)]
  unfold sliceOrErr usizeAdd
  cases hchecks : Crates.overflowChecks with
  | true => simp [h]
  | false =>
    have hslice : sliceRange data offset (offset + length) = .panic :=
      if_neg fun hrange => absurd hrange.1 (by omega)
    simp only [Bool.false_eq_true, false_and, if_false, Outcome.ok_bind, hsum, hslice, true_and]
    by_cases hout : data.length + UInt64.size < offset.toNat + length.toNat
    · rw [if_pos hout, if_pos (by omega)]
    · rw [if_neg hout, if_neg (by omega)]

/-- The slice is taken exactly when it lies inside of the data and its end is
a machine integer.  A wrapped sum lies before `offset`, so it never passes
both tests. -/
theorem sliceOrErr_eq_ok_iff {message : Error} {data out : Bytes} {offset length : UInt64} :
    sliceOrErr message data offset length = .ok out ↔
      offset.toNat + length.toNat < UInt64.size ∧ offset.toNat + length.toNat ≤ data.length ∧
        out = (data.drop offset.toNat).take length.toNat := by
  rcases Nat.lt_or_ge (offset.toNat + length.toNat) UInt64.size with hlt | hge
  · rw [sliceOrErr_of_lt hlt]
    split_ifs with hout
    · simp only [false_iff]
      omega
    · rw [Outcome.ok.injEq, and_iff_right hlt, and_iff_right (by omega), eq_comm]
  · rw [sliceOrErr_of_overflow hge]
    refine iff_of_false ?_ fun h => by omega
    split_ifs <;> simp

/-! ## The documented behaviour that proofs rely on -/

/-- A nonempty string of ASCII digits. -/
def IsDecimal (s : String) : Prop :=
  s.toList ≠ [] ∧ ∀ c ∈ s.toList, c.isDigit = true

/-- A nonempty string of lower-case hexadecimal digits. -/
def IsLowerHex (s : String) : Prop :=
  s.toList ≠ [] ∧ ∀ c ∈ s.toList, Hex.isLower c = true

/-- `DeltaId::key` renders `<index>-<digest>.delta` with a decimal index.
When the digest is lower-case hexadecimal, `DeltaId::from` reads it back, also
without the suffix. -/
structure DeltaIdLaws : Prop where
  key_eq : ∀ deltaId : DeltaId, ∃ index, IsDecimal index ∧
    deltaId.key = index ++ "-" ++ deltaId.digest ++ ".delta"
  fromStr_key : ∀ deltaId : DeltaId, IsLowerHex deltaId.digest →
    DeltaId.fromStr deltaId.key = .ok deltaId
  fromStr_stem : ∀ (deltaId : DeltaId) (stem : String), IsLowerHex deltaId.digest →
    deltaId.key = stem ++ ".delta" → DeltaId.fromStr stem = .ok deltaId

/-- `DeltaId::from` inverts `DeltaId::key` on every delta, whatever its
digest.  The crate keeps it for hexadecimal digests only, so this is an
assumption of the theorems that have it, and not one of the laws above. -/
def FromKeyLaw : Prop := ∀ deltaId : DeltaId, DeltaId.fromStr deltaId.key = .ok deltaId

theorem DeltaIdLaws.endsWith_key (hdelta : DeltaIdLaws) (deltaId : DeltaId) :
    endsWith deltaId.key ".delta" = true := by
  obtain ⟨index, -, hkey⟩ := hdelta.key_eq deltaId
  rw [hkey]
  exact endsWith_append _ _

/-- A signature verifies under the key that made it. -/
def SignatureLaw : Prop :=
  ∀ (sk : SigningKey) (message : Bytes),
    sk.verifyingKey.verify message (sk.sign message) = true

/-- Base64 decoding inverts encoding. -/
def Base64Law : Prop :=
  ∀ bytes : Bytes, Crates.base64Decode (Crates.base64Encode bytes) = .ok bytes

/-- A value is written as JSON text, and reads back from that text. -/
def SerdeSliceLaw (T : Type) [SerdeSlice T] : Prop :=
  ∀ value : T, ∃ bytes, SerdeSlice.toVec value = .ok bytes ∧
    SerdeSlice.fromSlice bytes = .ok value

/-- A value is converted to JSON, and back from that JSON. -/
def SerdeValueLaw (T : Type) [SerdeValue T] : Prop :=
  ∀ value : T, ∃ json, SerdeValue.toValue value = .ok json ∧
    SerdeValue.fromValue json = .ok value

/-- Among the ASCII characters, `\d` matches the decimal digits. -/
def DigitLaw : Prop :=
  ∀ c : Char, c.toNat < 128 → Crates.isUnicodeDigit c = c.isDigit

end

end MeldaSec
