import MeldaSec.EncryptionAdapter
import MeldaSec.Reference

/-!
# A reference cipher

The stand-in cipher puts the key and the nonce in front of the plaintext, in
the place of a tag, and the stand-in hash is the beginning of the message.
The blobs are JSON text, with their bytes as arrays of numbers.
-/

namespace MeldaSec.Reference

open Rust

scoped instance cipherCrates : CipherCrates where
  sha256 message := ⟨pad message, by simp [pad]⟩
  aes256GcmEncrypt key nonce plaintext := some (key.val ++ nonce.val ++ plaintext)
  aes256GcmDecrypt key nonce ciphertext :=
    if ciphertext.take 44 = key.val ++ nonce.val then some (ciphertext.drop 44) else none

theorem cipherLaw : CipherLaw := by
  intro key nonce plaintext
  have hlen : (key.val ++ nonce.val).length = 44 := by
    rw [List.length_append, key.property, nonce.property]
  refine ⟨_, rfl, ?_⟩
  rw [CipherCrates.aes256GcmDecrypt, cipherCrates]
  simp only
  rw [if_pos (List.take_left' hlen), List.drop_left' hlen]

/-! ## Blobs -/

def asU8 : Value → Except Error UInt8
  | .number (.posInt n) =>
    if n.toNat < 2 ^ 8 then .ok (UInt8.ofNat n.toNat) else .error "invalid value: expected u8"
  | _ => .error "invalid type: expected u8"

def u8Value (byte : UInt8) : Value := .number (.posInt (UInt64.ofNat byte.toNat))

theorem asU8_u8Value (byte : UInt8) : asU8 (u8Value byte) = .ok byte := by
  have hbyte := byte.toNat_lt
  have hmod : (UInt64.ofNat byte.toNat).toNat = byte.toNat := by
    rw [UInt64.toNat_ofNat', Nat.mod_eq_of_lt (by omega)]
  rw [u8Value, asU8, hmod, if_pos hbyte, UInt8.ofNat_toNat]

/-- The items of an array behind the first one, and the closing bracket. -/
def writeItems : Bytes → List Char
  | [] => [']']
  | byte :: bytes => ',' :: (Nat.toDigits 10 byte.toNat ++ writeItems bytes)

/-- A JSON array of numbers. -/
def writeBytes : Bytes → List Char
  | [] => ['[', ']']
  | byte :: bytes => '[' :: (Nat.toDigits 10 byte.toNat ++ writeItems bytes)

def blobOfValue (value : Value) : Except Error EncryptedBlob := do
  let entries ← asEntries value
  let alg ← field entries "alg" >>= asString
  let nonce ← field entries "nonce" >>= asList asU8
  let data ← field entries "data" >>= asList asU8
  .ok ⟨alg, nonce, data⟩

/-- The text that `serde_json::to_vec` writes for a blob. -/
def writeBlob (blob : EncryptedBlob) : List Char :=
  '\x7b' :: (writeEntry "alg" ('\x22' :: writeString blob.alg.toList) ++
    ',' :: (writeEntry "nonce" (writeBytes blob.nonce) ++
      ',' :: (writeEntry "data" (writeBytes blob.data) ++ ['\x7d'])))

scoped instance : SerdeSlice EncryptedBlob where
  fromSlice bytes := valueFromSlice bytes >>= blobOfValue
  toVec blob := .ok (asBytes (String.ofList (writeBlob blob)))

/-- The rest of an array does not start with a digit. -/
theorem head_writeItems (bytes : Bytes) (rest : List Char) :
    ∀ c ∈ (writeItems bytes ++ rest).head?, c.isDigit = false := by
  cases bytes <;> simp [writeItems]

theorem readItems_writeItems (bytes : Bytes) {byte : UInt8} {fuel : Nat}
    (hfuel : bytes.length + 2 ≤ fuel) (rest : List Char) :
    readItems fuel (Nat.toDigits 10 byte.toNat ++ (writeItems bytes ++ rest))
      = some ((byte :: bytes).map u8Value, rest) := by
  induction bytes generalizing byte fuel with
  | nil =>
    obtain ⟨fuel, rfl⟩ : ∃ k, fuel = k + 2 := Nat.exists_eq_add_of_le' hfuel
    have hvalue := readValue_toDigits fuel byte.toNat (head_writeItems [] rest)
    rw [readItems, hvalue]
    rfl
  | cons byte' bytes ih =>
    rw [List.length_cons] at hfuel
    obtain ⟨fuel, rfl⟩ : ∃ k, fuel = k + 2 := Nat.exists_eq_add_of_le' (by omega)
    have hvalue := readValue_toDigits fuel byte.toNat (head_writeItems (byte' :: bytes) rest)
    have hitems : readItems (fuel + 1) (Nat.toDigits 10 byte'.toNat ++ (writeItems bytes ++ rest))
        = some ((byte' :: bytes).map u8Value, rest) := ih (by omega)
    rw [readItems, hvalue]
    simp only [writeItems, List.cons_append, List.append_assoc, hitems]
    rfl

theorem readValue_writeBytes (bytes : Bytes) {fuel : Nat} (hfuel : bytes.length + 2 ≤ fuel)
    (rest : List Char) :
    readValue fuel (writeBytes bytes ++ rest) = some (.array (bytes.map u8Value), rest) := by
  cases bytes with
  | nil =>
    obtain ⟨fuel, rfl⟩ : ∃ k, fuel = k + 2 := Nat.exists_eq_add_of_le' hfuel
    rfl
  | cons byte bytes =>
    rw [List.length_cons] at hfuel
    obtain ⟨fuel, rfl⟩ : ∃ k, fuel = k + 1 := Nat.exists_eq_add_of_le' (by omega)
    have hlength : bytes.length + 2 ≤ fuel := by omega
    have hitems : readItems fuel (Nat.toDigits 10 byte.toNat ++ (writeItems bytes ++ rest))
        = some ((byte :: bytes).map u8Value, rest) := readItems_writeItems bytes hlength rest
    obtain ⟨d, ds, hd⟩ :=
      List.exists_cons_of_ne_nil (Nat.toDigits_ne_nil (n := byte.toNat) (b := 10))
    have hmem : d ∈ Nat.toDigits 10 byte.toNat := by
      rw [hd]
      exact List.mem_cons_self
    have hdigit := Nat.isDigit_of_mem_toDigits (by omega) (by omega) hmem
    have hbracket : d ≠ ']' := fun heq => absurd hdigit (heq ▸ by decide)
    rw [hd] at hitems
    rw [writeBytes, hd]
    simp only [List.cons_append, List.append_assoc] at hitems ⊢
    rw [readValue, hitems]
    · rfl
    · intro rest' heq
      exact hbracket (List.cons.inj heq).1

/-- The value that the text of a blob is read as. -/
def blobValue (blob : EncryptedBlob) : Value :=
  .object [("alg", .string blob.alg), ("nonce", .array (blob.nonce.map u8Value)),
    ("data", .array (blob.data.map u8Value))]

theorem readValue_writeBlob (blob : EncryptedBlob) {fuel : Nat}
    (hfuel : blob.nonce.length + blob.data.length + 6 ≤ fuel) :
    readValue fuel (writeBlob blob) = some (blobValue blob, []) := by
  obtain ⟨fuel, rfl⟩ : ∃ k, fuel = k + 4 := Nat.exists_eq_add_of_le' (by omega)
  have hnonce : blob.nonce.length + 2 ≤ fuel + 1 := by omega
  have hdata : blob.data.length + 2 ≤ fuel := by omega
  have hentries : readEntries (fuel + 3) (writeBlob blob).tail
      = some ([("alg", .string blob.alg), ("nonce", .array (blob.nonce.map u8Value)),
          ("data", .array (blob.data.map u8Value))], []) := by
    rw [writeBlob, List.tail_cons, readEntries_cons (readValue_writeString _ _ _),
      readEntries_cons (readValue_writeBytes _ hnonce _),
      readEntries_last (readValue_writeBytes _ hdata _)]
    rfl
  obtain ⟨text, htext⟩ : ∃ text, writeBlob blob = '\x7b' :: '\x22' :: text := ⟨_, rfl⟩
  rw [htext, List.tail_cons] at hentries
  rw [htext, readValue, hentries]
  · rfl
  · simp

theorem length_le_writeItems (bytes : Bytes) : bytes.length + 1 ≤ (writeItems bytes).length := by
  induction bytes with
  | nil => simp [writeItems]
  | cons byte bytes ih =>
    simp only [writeItems, List.length_cons, List.length_append]
    omega

theorem length_le_writeBytes (bytes : Bytes) : bytes.length + 2 ≤ (writeBytes bytes).length := by
  cases bytes with
  | nil => simp [writeBytes]
  | cons byte bytes =>
    have hitems := length_le_writeItems bytes
    have hdigits := List.length_pos_iff.mpr (Nat.toDigits_ne_nil (n := byte.toNat) (b := 10))
    simp only [writeBytes, List.length_cons, List.length_append]
    omega

/-- A blob reads back from its text. -/
theorem valueFromSlice_writeBlob (blob : EncryptedBlob) :
    valueFromSlice (asBytes (String.ofList (writeBlob blob))) = .ok (blobValue blob) := by
  have hlength : blob.nonce.length + blob.data.length + 6 ≤ (writeBlob blob).length + 1 := by
    have hnonce := length_le_writeBytes blob.nonce
    have hdata := length_le_writeBytes blob.data
    simp only [writeBlob, writeEntry, List.length_cons, List.length_append]
    omega
  simp only [valueFromSlice, textOf_asBytes, String.toList_ofList,
    readValue_writeBlob blob hlength]

theorem blobOfValue_blobValue (blob : EncryptedBlob) :
    blobOfValue (blobValue blob) = .ok blob := by
  have hbytes : ∀ bytes : Bytes, asList asU8 (.array (bytes.map u8Value)) = .ok bytes :=
    mapM_map_eq_ok asU8_u8Value
  have hfield : blobOfValue (blobValue blob) = (do
      let nonce ← asList asU8 (.array (blob.nonce.map u8Value))
      let data ← asList asU8 (.array (blob.data.map u8Value))
      .ok ⟨blob.alg, nonce, data⟩) := rfl
  rw [hfield, hbytes, hbytes]
  rfl

theorem serdeSliceLaw_encryptedBlob : SerdeSliceLaw EncryptedBlob := by
  intro blob
  refine ⟨_, rfl, ?_⟩
  have hread : SerdeSlice.fromSlice (T := EncryptedBlob)
      (asBytes (String.ofList (writeBlob blob))) = (do
        let value ← valueFromSlice (asBytes (String.ofList (writeBlob blob)))
        blobOfValue value) := rfl
  rw [hread, valueFromSlice_writeBlob]
  exact blobOfValue_blobValue blob

end MeldaSec.Reference
