import MeldaSec.Crates
import MeldaSec.Lib.Loop
import Mathlib.Data.Finmap

/-!
# The key store

`KeyStore` holds the local signing key, the trusted public keys and the role
of each public key that has one.  A method with `&mut self` returns its
result beside the state that it leaves behind, because an error does not
undo what was done before it.
-/

namespace MeldaSec

open Rust

variable [Crates]

/-- The keys and roles of one node. -/
structure KeyStore where
  endorsementKey : Option SigningKey
  trustedKeys : Finset VerifyingKey
  roles : Finmap fun _ : Bytes => String

/-- One entry of the serialized key store. -/
structure KeyEntry where
  pubkey : String
  role : Option String
  deriving DecidableEq

/-- The serialized key store.  The signing key is not part of it. -/
structure KeyStoreConfig where
  keys : List KeyEntry
  deriving DecidableEq

namespace KeyStore

/-- A store without keys. -/
def new : KeyStore := ⟨none, ∅, ∅⟩

/-- `add_trusted_public_key`. -/
def addTrustedPublicKey (ks : KeyStore) (bytes : Bytes) : Result Unit × KeyStore :=
  match tryInto 32 bytes with
  | none => (.err tryFromSliceError, ks)
  | some array =>
    match VerifyingKey.fromBytes array with
    | none => (.err Crates.pointError, ks)
    | some vk => (.ok (), { ks with trustedKeys := insert vk ks.trustedKeys })

/-- `add_trusted_public_key_with_role`. -/
def addTrustedPublicKeyWithRole (ks : KeyStore) (bytes : Bytes) (role : String) :
    Result Unit × KeyStore :=
  match tryInto 32 bytes with
  | none => (.err tryFromSliceError, ks)
  | some array =>
    match VerifyingKey.fromBytes array with
    | none => (.err Crates.pointError, ks)
    | some vk =>
      (.ok (), { ks with
        trustedKeys := insert vk ks.trustedKeys
        roles := ks.roles.insert vk.toBytes role })

/-- `set_endorsement_credentials`.  A given public key becomes a trusted
key, and the `unwrap` of that step is the one way to panic. -/
def setEndorsementCredentials (ks : KeyStore) (privateKey : Bytes)
    (publicKey : Option Bytes) : Result Unit × KeyStore :=
  match tryInto 32 privateKey with
  | none => (.err "invalid endorsement private key", ks)
  | some sk =>
    match publicKey with
    | none => (.ok (), { ks with endorsementKey := some sk })
    | some pubkey =>
      match tryInto 32 pubkey with
      | none => (.err "invalid endorsement public key", ks)
      | some expected =>
        if (SigningKey.verifyingKey sk).val ≠ expected then
          (.err "endorsement public key does not match private key", ks)
        else
          match ks.addTrustedPublicKey pubkey with
          | (.ok (), ks) => (.ok (), { ks with endorsementKey := some sk })
          | (_, ks) => (.panic, ks)

/-- `set_endorsement_credentials_with_role`. -/
def setEndorsementCredentialsWithRole (ks : KeyStore) (privateKey publicKey : Bytes)
    (role : String) : Result Unit × KeyStore :=
  Outcome.andThen (ks.setEndorsementCredentials privateKey (some publicKey)) fun ks =>
    ks.addTrustedPublicKeyWithRole publicKey role

/-- `is_trusted`. -/
def isTrusted (ks : KeyStore) (vk : VerifyingKey) : Bool := decide (vk ∈ ks.trustedKeys)

/-- `is_trusted_public_key`.  The `unwrap` panics on bytes of another length. -/
def isTrustedPublicKey (ks : KeyStore) (bytes : Bytes) : Result Bool := do
  let array ← Outcome.unwrapSome (tryInto 32 bytes)
  match VerifyingKey.fromBytes array with
  | some vk => .ok (ks.isTrusted vk)
  | none => .ok false

/-- `get_role`. -/
def getRole (ks : KeyStore) (pubkey : Bytes) : Option String := ks.roles.lookup pubkey

/-- `get_trusted_public_keys`. -/
def getTrustedPublicKeys (ks : KeyStore) (iter : HashIter VerifyingKey) : List Bytes :=
  (iter.items ks.trustedKeys).map VerifyingKey.toBytes

/-- `trusted_key_count`. -/
def trustedKeyCount (ks : KeyStore) : Nat := ks.trustedKeys.card

/-- `endorsement_public_key`. -/
def endorsementPublicKey (ks : KeyStore) : Option Bytes :=
  ks.endorsementKey.map fun sk => (SigningKey.verifyingKey sk).toBytes

/-- `endorse`. -/
def endorse (ks : KeyStore) (data : Bytes) : Option Signature :=
  ks.endorsementKey.map fun sk => SigningKey.sign sk data

/-- `verify`: the first trusted key, in the order of the set, that the
signature verifies for. -/
def verify (ks : KeyStore) (iter : HashIter VerifyingKey) (data : Bytes) (sig : Signature) :
    Option VerifyingKey :=
  (iter.items ks.trustedKeys).find? fun vk => vk.verify data sig

/-- A mutating call followed by `?`. -/
def andThen : Result Unit × KeyStore → Result KeyStore
  | (result, ks) => (fun _ => ks) <$> result

/-- One turn of the loop of `from_json`. -/
def addEntry (ks : KeyStore) (key : KeyEntry) : Result KeyStore := do
  let pubkey ← Outcome.ofExcept (Crates.base64Decode key.pubkey)
  match key.role with
  | some role => andThen (ks.addTrustedPublicKeyWithRole pubkey role)
  | none => andThen (ks.addTrustedPublicKey pubkey)

/-- `KeyStore::from_json`. -/
def fromJson [SerdeValue KeyStoreConfig] (json : Value) : Result KeyStore := do
  let config : KeyStoreConfig ← Outcome.ofExcept (SerdeValue.fromValue json)
  config.keys.foldlM addEntry new

/-- `KeyStore::to_json`.  Roles are looked up for the trusted keys only. -/
def toJson [SerdeValue KeyStoreConfig] (ks : KeyStore) (iter : HashIter VerifyingKey) :
    Result Value :=
  let keys := (iter.items ks.trustedKeys).map fun vk =>
    (⟨Crates.base64Encode vk.toBytes, ks.getRole vk.toBytes⟩ : KeyEntry)
  Outcome.ofExcept (SerdeValue.toValue (⟨keys⟩ : KeyStoreConfig))

/-! ## What installing credentials changes -/

/-- The encoding of a verifying key is accepted, and that key is trusted. -/
theorem addTrustedPublicKey_toBytes (ks : KeyStore) (vk : VerifyingKey) :
    ks.addTrustedPublicKey vk.toBytes
      = (.ok (), { ks with trustedKeys := insert vk ks.trustedKeys }) := by
  rw [addTrustedPublicKey, VerifyingKey.tryInto_toBytes]
  simp only [VerifyingKey.fromBytes_val]

/-- Credentials with a public key that match are installed, and the public
key is trusted from then on. -/
theorem setEndorsementCredentials_of_match (ks : KeyStore) (sk : SigningKey) :
    ks.setEndorsementCredentials sk.val (some (SigningKey.verifyingKey sk).toBytes)
      = (.ok (), { ks with
          trustedKeys := insert (SigningKey.verifyingKey sk) ks.trustedKeys
          endorsementKey := some sk }) := by
  have hexpected := VerifyingKey.tryInto_toBytes (SigningKey.verifyingKey sk)
  simp only [setEndorsementCredentials, tryInto_val, hexpected, ne_eq, not_true_eq_false,
    if_false, addTrustedPublicKey_toBytes]

/-- The encoding of a verifying key gets a role with its trust. -/
theorem addTrustedPublicKeyWithRole_toBytes (ks : KeyStore) (vk : VerifyingKey) (role : String) :
    ks.addTrustedPublicKeyWithRole vk.toBytes role
      = (.ok (), { ks with
          trustedKeys := insert vk ks.trustedKeys
          roles := ks.roles.insert vk.toBytes role }) := by
  rw [addTrustedPublicKeyWithRole, VerifyingKey.tryInto_toBytes]
  simp only [VerifyingKey.fromBytes_val]

/-- A call with a public key ends in an error that changes nothing, or the
key is installed and trusted. -/
theorem setEndorsementCredentials_cases (ks : KeyStore) (privateKey pubkey : Bytes) :
    (∃ e, ks.setEndorsementCredentials privateKey (some pubkey) = (.err e, ks)) ∨
      ∃ sk : SigningKey, privateKey = sk.val ∧ pubkey = (SigningKey.verifyingKey sk).toBytes ∧
        ks.setEndorsementCredentials privateKey (some pubkey)
          = (.ok (), { ks with
              trustedKeys := insert (SigningKey.verifyingKey sk) ks.trustedKeys
              endorsementKey := some sk }) := by
  cases hsk : tryInto 32 privateKey with
  | none =>
    exact Or.inl ⟨"invalid endorsement private key", by
      simp only [setEndorsementCredentials, hsk]⟩
  | some sk =>
    cases hpk : tryInto 32 pubkey with
    | none =>
      exact Or.inl ⟨"invalid endorsement public key", by
        simp only [setEndorsementCredentials, hsk, hpk]⟩
    | some expected =>
      by_cases hmatch : (SigningKey.verifyingKey sk).val = expected
      · obtain rfl := tryInto_eq_some_iff.mp hsk
        have hpub : pubkey = (SigningKey.verifyingKey sk).toBytes := by
          rw [tryInto_eq_some_iff.mp hpk, ← hmatch]
          rfl
        refine Or.inr ⟨sk, rfl, hpub, ?_⟩
        rw [hpub, setEndorsementCredentials_of_match]
      · exact Or.inl ⟨"endorsement public key does not match private key", by
          simp only [setEndorsementCredentials, hsk, hpk, ne_eq, hmatch, not_false_eq_true,
            if_true]⟩

end KeyStore

end MeldaSec
