import MeldaSec.Adapter

/-!
# The encryption adapter

`EncryptionAdapter` wraps an adapter and stores every object as an encrypted
blob under the same name.  The nonce is derived from the plaintext, so that
equal objects are stored as equal blobs.  A read decrypts the whole object and
takes a slice of the plaintext.

The cipher and the hash are third-party code.  `CipherCrates` has one field
for each of their functions, and `CipherLaw` is the behaviour that a proof may
rely on.
-/

namespace MeldaSec

open Rust

/-- The functions of the crates `aes-gcm` and `sha2`. -/
class CipherCrates where
  /-- `Sha256::digest`. -/
  sha256 : Bytes → FixedBytes 32
  /-- `Aes256Gcm::encrypt`, for a key and a nonce. -/
  aes256GcmEncrypt : FixedBytes 32 → FixedBytes 12 → Bytes → Option Bytes
  /-- `Aes256Gcm::decrypt`, which checks the tag. -/
  aes256GcmDecrypt : FixedBytes 32 → FixedBytes 12 → Bytes → Option Bytes

/-- Encryption does not fail, and decryption inverts it. -/
def CipherLaw [CipherCrates] : Prop :=
  ∀ (key : FixedBytes 32) (nonce : FixedBytes 12) (plaintext : Bytes), ∃ ciphertext,
    CipherCrates.aes256GcmEncrypt key nonce plaintext = some ciphertext ∧
      CipherCrates.aes256GcmDecrypt key nonce ciphertext = some plaintext

/-- The content of an encrypted object. -/
structure EncryptedBlob where
  alg : String
  nonce : Bytes
  data : Bytes
  deriving DecidableEq

/-- An adapter with an encryption key. -/
structure EncryptionAdapter (A : Type) where
  inner : A
  key : FixedBytes 32

/-- `GenericArray::from_slice`, which asserts the length. -/
def genericArrayFromSlice (n : Nat) (bytes : Bytes) : Result (FixedBytes n) :=
  Outcome.unwrapSome (tryInto n bytes)

namespace EncryptionAdapter

variable [Crates] [CipherCrates] [SerdeSlice EncryptedBlob] {A : Type}

/-- `derive_nonce`: the first twelve bytes of the hash. -/
def deriveNonce (plaintext : Bytes) : FixedBytes 12 :=
  ⟨(CipherCrates.sha256 plaintext).val.take 12, by
    rw [List.length_take, (CipherCrates.sha256 plaintext).property]
    rfl⟩

/-- `encrypt`. -/
def encrypt (e : EncryptionAdapter A) (plaintext : Bytes) : Result Bytes := do
  let nonce := deriveNonce plaintext
  let ciphertext ← Outcome.okOr "encryption failed"
    (CipherCrates.aes256GcmEncrypt e.key nonce plaintext)
  let blob : EncryptedBlob := ⟨"aes-256-gcm", nonce.val, ciphertext⟩
  Outcome.ofExcept (SerdeSlice.toVec blob)

/-- `decrypt`.  The nonce comes from the blob, and its length is asserted. -/
def decrypt (e : EncryptionAdapter A) (data : Bytes) : Result Bytes :=
  match SerdeSlice.fromSlice data with
  | .error _ => .err "invalid encrypted blob"
  | .ok (blob : EncryptedBlob) =>
    if blob.alg ≠ "aes-256-gcm" then .err ("unsupported algorithm: " ++ blob.alg)
    else do
      let nonce ← genericArrayFromSlice 12 blob.nonce
      Outcome.okOr "decryption failed" (CipherCrates.aes256GcmDecrypt e.key nonce blob.data)

variable [Adapter A]

/-- `write_object`. -/
def writeObject (e : EncryptionAdapter A) (key : String) (data : Bytes) :
    Result Unit × EncryptionAdapter A :=
  match e.encrypt data with
  | .ok enc =>
    let (result, inner) := Adapter.writeObject e.inner key enc
    (result, { e with inner := inner })
  | .err error => (.err error, e)
  | .panic => (.panic, e)

/-- `read_object`. -/
def readObject (e : EncryptionAdapter A) (key : String) (offset length : UInt64) :
    Result Bytes := do
  let enc ← Adapter.readObject e.inner key 0 0
  let dec ← e.decrypt enc
  if offset == 0 && length == 0 then .ok dec
  else sliceOrErr "invalid slice" dec offset length

/-- `list_objects`. -/
def listObjects (e : EncryptionAdapter A) (ext : String) : Result (List String) :=
  Adapter.listObjects e.inner ext

instance : Adapter (EncryptionAdapter A) where
  readObject := readObject
  writeObject := writeObject
  listObjects := listObjects

end EncryptionAdapter

end MeldaSec
