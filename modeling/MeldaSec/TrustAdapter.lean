import MeldaSec.Adapter
import MeldaSec.DeltaFilter
import MeldaSec.EndorsementKey
import MeldaSec.Policy.Engine
import MeldaSec.Utils
import Mathlib.Algebra.BigOperators.Group.Finset.Basic

/-!
# The trust adapter

`TrustAdapter` wraps an adapter and decides which deltas are visible through
it.  The order here is the order of the source: the endorsement records, the
scan of the endorsements of a delta, the local endorsement, the configuration
as JSON, and then the three methods of the storage interface.

`readObject` is the gate.  A whole read of a delta passes the blacklist, the
whitelist and the endorsement mode in that order, and a mode that counts
endorsements counts twice: the valid ones first, and then those of them that
the policy allows on every object of the delta.
-/

namespace MeldaSec

open Rust

variable [Crates]

/-- `EndorsementMode`. -/
inductive EndorsementMode where
  | permissive
  | single
  | majority
  | unanimous
  deriving DecidableEq

/-- The content of a `.sig` object. -/
structure EndorsementRecord where
  version : UInt32
  algorithm : String
  signature : String
  deriving DecidableEq

/-- The keys that endorsed a delta: the trusted ones whose signature
verifies, and all others. -/
structure EndorsementFetchResult where
  valid : Finset Bytes
  invalid : Finset Bytes

/-- The serialized trust configuration. -/
structure TrustConfiguration where
  endorsementMode : EndorsementMode
  keystore : Value
  deltaFilter : Value
  policy : Value

/-- An adapter with its trust configuration. -/
structure TrustAdapter (A : Type) where
  inner : A
  keystore : KeyStore
  deltaFilter : DeltaFilter
  policy : PolicyEngine
  endorsementMode : EndorsementMode

/-- The verdict on one name goes into the result: nothing, a valid key or an
invalid key. -/
def EndorsementFetchResult.record (result : EndorsementFetchResult) :
    Option (Bytes × Bool) → EndorsementFetchResult
  | none => result
  | some (pk, true) => { result with valid := insert pk result.valid }
  | some (pk, false) => { result with invalid := insert pk result.invalid }

/-- The keys with a verdict. -/
def EndorsementFetchResult.keys (result : EndorsementFetchResult) : Bool → Finset Bytes
  | true => result.valid
  | false => result.invalid

omit [Crates] in
/-- Each of the two sets collects the keys with its verdict. -/
theorem EndorsementFetchResult.mem_keys_foldl {verdicts : List (Option (Bytes × Bool))}
    {pk : Bytes} {valid : Bool} {result : EndorsementFetchResult} :
    pk ∈ (verdicts.foldl EndorsementFetchResult.record result).keys valid ↔
      pk ∈ result.keys valid ∨ some (pk, valid) ∈ verdicts := by
  induction verdicts generalizing result with
  | nil => simp
  | cons verdict verdicts ih =>
    rw [List.foldl_cons, ih, List.mem_cons]
    rcases verdict with _ | ⟨pk', _ | _⟩ <;> cases valid <;>
      simp [EndorsementFetchResult.record, EndorsementFetchResult.keys, or_assoc, or_left_comm]

/-- Whether `count` endorsers are enough among `trustedCount` trusted keys.
Only the majority mode looks for an empty set of trusted keys. -/
def EndorsementMode.enough (mode : EndorsementMode) (count trustedCount : Nat) : Bool :=
  match mode with
  | .permissive => true
  | .single => decide (0 < count)
  | .majority => if trustedCount = 0 then false else decide (trustedCount < count * 2)
  | .unanimous => decide (count = trustedCount)

namespace TrustAdapter

variable {A B : Type}

/-- `new_single_full`. -/
def newSingleFull (inner : A) (keystore : KeyStore) (deltaFilter : DeltaFilter)
    (policy : PolicyEngine) : TrustAdapter A :=
  ⟨inner, keystore, deltaFilter, policy, .single⟩

/-- `new_majority_full`. -/
def newMajorityFull (inner : A) (keystore : KeyStore) (deltaFilter : DeltaFilter)
    (policy : PolicyEngine) : TrustAdapter A :=
  ⟨inner, keystore, deltaFilter, policy, .majority⟩

/-- `new_permissive_full`. -/
def newPermissiveFull (inner : A) (keystore : KeyStore) (deltaFilter : DeltaFilter)
    (policy : PolicyEngine) : TrustAdapter A :=
  ⟨inner, keystore, deltaFilter, policy, .permissive⟩

/-- `new_unanimous_full`. -/
def newUnanimousFull (inner : A) (keystore : KeyStore) (deltaFilter : DeltaFilter)
    (policy : PolicyEngine) : TrustAdapter A :=
  ⟨inner, keystore, deltaFilter, policy, .unanimous⟩

/-- `new_single`. -/
def newSingle (inner : A) : TrustAdapter A :=
  newSingleFull inner KeyStore.new DeltaFilter.new PolicyEngine.new

/-- `new_majority`. -/
def newMajority (inner : A) : TrustAdapter A :=
  newMajorityFull inner KeyStore.new DeltaFilter.new PolicyEngine.new

/-- `new_permissive`. -/
def newPermissive (inner : A) : TrustAdapter A :=
  newPermissiveFull inner KeyStore.new DeltaFilter.new PolicyEngine.new

/-- `new_unanimous`. -/
def newUnanimous (inner : A) : TrustAdapter A :=
  newUnanimousFull inner KeyStore.new DeltaFilter.new PolicyEngine.new

/-- `set_endorsement_mode`. -/
def setEndorsementMode (t : TrustAdapter A) (mode : EndorsementMode) : TrustAdapter A :=
  { t with endorsementMode := mode }

/-- `set_keystore`. -/
def setKeystore (t : TrustAdapter A) (keystore : KeyStore) : TrustAdapter A :=
  { t with keystore := keystore }

/-- `set_policy`. -/
def setPolicy (t : TrustAdapter A) (policy : PolicyEngine) : TrustAdapter A :=
  { t with policy := policy }

/-- What `get_delta_filter_mut` leaves behind. -/
def setDeltaFilter (t : TrustAdapter A) (deltaFilter : DeltaFilter) : TrustAdapter A :=
  { t with deltaFilter := deltaFilter }

/-- `add_delta_to_whitelist`. -/
def addDeltaToWhitelist (t : TrustAdapter A) (deltaId : DeltaId) : Result Bool × TrustAdapter A :=
  let (result, deltaFilter) := t.deltaFilter.addToWhitelist deltaId
  (result, t.setDeltaFilter deltaFilter)

/-- `add_delta_to_blacklist`. -/
def addDeltaToBlacklist (t : TrustAdapter A) (deltaId : DeltaId) : Result Bool × TrustAdapter A :=
  let (result, deltaFilter) := t.deltaFilter.addToBlacklist deltaId
  (result, t.setDeltaFilter deltaFilter)

/-- The same configuration over another store.  Several adapters over one
shared store are configurations over its current state. -/
def withInner (t : TrustAdapter B) (inner : A) : TrustAdapter A :=
  ⟨inner, t.keystore, t.deltaFilter, t.policy, t.endorsementMode⟩

variable [Adapter A] [SerdeSlice EndorsementRecord]

/-- `read_endorsement_record`. -/
def readEndorsementRecord (t : TrustAdapter A) (key : EndorsementKey) :
    Result EndorsementRecord := do
  let bytes ← Adapter.readObject t.inner key.fileName 0 0
  let sigFile : EndorsementRecord ← Outcome.ofExcept (SerdeSlice.fromSlice bytes)
  if sigFile.version ≠ 1 ∨ sigFile.algorithm ≠ "Ed25519" then
    .err "unsupported endorsement format"
  else .ok sigFile

/-- One turn of the loop of `fetch_endorsements`: a name that does not parse
or is about another delta is skipped, and an endorsement of the delta is
valid or not.  Every `?` of this turn leaves the whole loop. -/
def endorsementVerdict (t : TrustAdapter A) (deltaId : DeltaId) (sigFile : String) :
    Result (Option (Bytes × Bool)) :=
  match EndorsementKey.fromStr sigFile with
  | .panic => .panic
  | .err _ => .ok none
  | .ok endorsementKey =>
    if endorsementKey.deltaId = deltaId then do
      let endorsement ← t.readEndorsementRecord endorsementKey
      let sigBytes ← Outcome.ofExcept (Crates.base64Decode endorsement.signature)
      let sig ← Outcome.okOr "invalid signature length" (tryInto 64 sigBytes)
      let pk := endorsementKey.pubkey
      let pubKeySlice ← Outcome.unwrapSome (tryInto 32 pk)
      let vk ← Outcome.okOr "invalid endorsement public key"
        (VerifyingKey.fromBytes pubKeySlice)
      .ok (some (pk, t.keystore.isTrusted vk && vk.verify (asBytes deltaId.digest) sig))
    else .ok none

/-- `fetch_endorsements`.  A listing that fails counts as empty. -/
def fetchEndorsements (t : TrustAdapter A) (deltaId : DeltaId) :
    Result EndorsementFetchResult :=
  match Adapter.listObjects t.inner ".sig" with
  | .panic => .panic
  | .err _ => .ok ⟨∅, ∅⟩
  | .ok sigFiles =>
    sigFiles.foldlM
      (fun result sigFile => result.record <$> t.endorsementVerdict deltaId sigFile) ⟨∅, ∅⟩

/-- The name of the endorsement that `sk` writes for the delta. -/
def ownEndorsementKey (sk : SigningKey) (deltaId : DeltaId) : EndorsementKey :=
  ⟨deltaId, (SigningKey.verifyingKey sk).toBytes⟩

/-- The first half of `endorse`: whether the stored record of this key
already verifies.  A record that cannot be read counts as absent. -/
def alreadyEndorsed (t : TrustAdapter A) (sk : SigningKey) (deltaId : DeltaId) :
    Result Bool :=
  match t.readEndorsementRecord (ownEndorsementKey sk deltaId) with
  | .panic => .panic
  | .err _ => .ok false
  | .ok endorsementRecord => do
    let sg ← Outcome.ofExcept (Crates.base64Decode endorsementRecord.signature)
    match tryInto 64 sg with
    | none => .ok false
    | some sig =>
      let vk ← Outcome.okOr "invalid endorsement public key"
        (VerifyingKey.fromBytes (SigningKey.verifyingKey sk).val)
      .ok (vk.verify (asBytes deltaId.digest) sig)

/-- The record that `sk` writes for the delta. -/
def signedRecord (sk : SigningKey) (deltaId : DeltaId) : EndorsementRecord where
  version := 1
  algorithm := "Ed25519"
  signature := Crates.base64Encode (SigningKey.sign sk (asBytes deltaId.digest)).val

/-- The second half of `endorse`: sign the digest and write the record. -/
def writeEndorsement (t : TrustAdapter A) (sk : SigningKey) (deltaId : DeltaId) :
    Result Unit × A :=
  match SerdeSlice.toVec (signedRecord sk deltaId) with
  | .error e => (.err e, t.inner)
  | .ok bytes => Adapter.writeObject t.inner (ownEndorsementKey sk deltaId).fileName bytes

/-- `endorse`, with the store that it leaves behind. -/
def endorse (t : TrustAdapter A) (deltaId : DeltaId) : Result Unit × A :=
  match t.keystore.endorsementKey with
  | none => (.err "missing endorsement key", t.inner)
  | some sk =>
    match t.alreadyEndorsed sk deltaId with
    | .panic => (.panic, t.inner)
    | .err e => (.err e, t.inner)
    | .ok true => (.ok (), t.inner)
    | .ok false => t.writeEndorsement sk deltaId

/-- The number of valid endorsers that the policy allows on every object that
the delta touches. -/
def allowedEndorsers (t : TrustAdapter A) (endorsements : EndorsementFetchResult)
    (data : Bytes) : Nat :=
  let ids := extractCreatedAndModifiedObjectIds data
  ∑ e ∈ endorsements.valid,
    let allowedIds := (ids.filter fun id => t.policy.allows t.keystore e id).length
    if allowedIds = ids.length then 1 else 0

/-- `read_object`: the gate. -/
def readObject (t : TrustAdapter A) (key : String) (offset length : UInt64) :
    Result Bytes := do
  let data ← Adapter.readObject t.inner key 0 0
  -- Slices leave here, deltas included, so the slices below are never reached.
  if !endsWith key ".delta" || offset != 0 || length != 0 then
    if offset == 0 && length == 0 then .ok data
    else sliceOrErr "invalid_slice" data offset length
  else
    match DeltaId.fromStr key with
    | .panic => .panic
    | .err _ => .err "invalid delta"
    | .ok deltaId =>
      if t.deltaFilter.isBlacklisted deltaId then .err "blacklisted_object_key"
      else if t.deltaFilter.isWhitelisted deltaId || t.endorsementMode == .permissive then
        if offset == 0 && length == 0 then .ok data
        else sliceOrErr "invalid_slice" data offset length
      else do
        let endorsements ← t.fetchEndorsements deltaId
        let trustedCount := t.keystore.trustedKeyCount
        if !t.endorsementMode.enough endorsements.valid.card trustedCount then
          .err "missing_or_insufficient_endorsements"
        else
          let allowedEndorsers := t.allowedEndorsers endorsements data
          if !t.endorsementMode.enough allowedEndorsers trustedCount then
            .err "not_allowed_by_policy"
          else if offset == 0 && length == 0 then .ok data
          else sliceOrErr "invalid slice" data offset length

/-- `check_delta`. -/
def checkDelta (t : TrustAdapter A) (deltaId : DeltaId) : Result Bool :=
  match t.readObject deltaId.key 0 0 with
  | .ok _ => .ok true
  | .err _ => .ok false
  | .panic => .panic

/-- `TrustAdapter::to_json`, with the orders of its three hash sets. -/
def toJson [SerdeValue TrustConfiguration] [SerdeValue KeyStoreConfig]
    [SerdeValue DeltaFilterConfig] [SerdeValue PolicyEngineConfig] (t : TrustAdapter A)
    (iter : HashIter VerifyingKey) (white black : HashIter String) : Result Value := do
  let keystore ← t.keystore.toJson iter
  let deltaFilter ← t.deltaFilter.toJson white black
  let policy ← t.policy.toJson
  let config : TrustConfiguration := ⟨t.endorsementMode, keystore, deltaFilter, policy⟩
  Outcome.ofExcept (SerdeValue.toValue config)

/-- `TrustAdapter::from_json`. -/
def fromJson [SerdeValue TrustConfiguration] [SerdeValue KeyStoreConfig]
    [SerdeValue DeltaFilterConfig] [SerdeValue PolicyEngineConfig] (inner : A) (json : Value) :
    Result (TrustAdapter A) := do
  let config : TrustConfiguration ← Outcome.ofExcept (SerdeValue.fromValue json)
  let keystore ← KeyStore.fromJson config.keystore
  let deltaFilter ← DeltaFilter.fromJson config.deltaFilter
  let policy ← PolicyEngine.fromJson config.policy
  .ok ⟨inner, keystore, deltaFilter, policy, config.endorsementMode⟩

/-- The policy check of `write_object`. -/
def checkWrite (t : TrustAdapter A) (key : String) (data : Bytes) : Result Unit :=
  if t.policy.strictWrite && endsWith key ".delta" then do
    let ids := extractCreatedAndModifiedObjectIds data
    let pubkey ← Outcome.okOr "missing endorsement public key"
      t.keystore.endorsementPublicKey
    ids.forM fun id =>
      if !t.policy.allows t.keystore pubkey id then .err "write_denied_by_policy"
      else .ok ()
  else .ok ()

/-- `write_object`. -/
def writeObject (t : TrustAdapter A) (key : String) (data : Bytes) :
    Result Unit × TrustAdapter A :=
  match t.checkWrite key data with
  | .ok () =>
    let (result, inner) := Adapter.writeObject t.inner key data
    (result, { t with inner := inner })
  | .err e => (.err e, t)
  | .panic => (.panic, t)

/-- `list_objects`. -/
def listObjects (t : TrustAdapter A) (ext : String) : Result (List String) :=
  Adapter.listObjects t.inner ext

instance : Adapter (TrustAdapter A) where
  readObject := readObject
  writeObject := writeObject
  listObjects := listObjects

end TrustAdapter

end MeldaSec
