import MeldaSec.Reload
import MeldaSec.Authorisation

/-!
# Saving and loading a policy

A policy is saved as a list of rules, and an engine that is loaded checks
writes.  Whether the saved engine did is not written down, so an adapter that
takes every write becomes one that asks its policy.  Everything else that a
write depends on is there again once the credentials are: the rules, and the
role of the key.  `reload_writesAlike_iff` says which writes are left alone, and
that nothing is loaded when a key on the lists is not read as a delta.
-/

namespace MeldaSec

open Rust

section

variable [Crates]

/-! ## The credentials -/

namespace KeyStore

/-- A signing key can be installed, with its public key or without, and no
role changes. -/
theorem exists_setEndorsementCredentials_eq (ks : KeyStore) (sk : SigningKey)
    {publicKey : Option Bytes} (hpublic : ∀ pubkey ∈ publicKey, pubkey = sk.verifyingKey.toBytes) :
    ∃ ks', ks.setEndorsementCredentials sk.val publicKey = (.ok (), ks') ∧
      ks'.endorsementKey = some sk ∧ ks'.roles = ks.roles := by
  cases publicKey with
  | none =>
    refine ⟨{ ks with endorsementKey := some sk }, ?_, rfl, rfl⟩
    simp only [setEndorsementCredentials, tryInto_val]
  | some pubkey =>
    rw [hpublic pubkey rfl]
    exact ⟨_, ks.setEndorsementCredentials_of_match sk, rfl, rfl⟩

end KeyStore

/-! ## The writes -/

namespace TrustAdapter

variable {A : Type} [Adapter A]

/-- Both adapters take the write or neither does, and it leaves the same store
behind. -/
structure WritesAlike (t t' : TrustAdapter A) (key : String) (data : Bytes) : Prop where
  ok : (t.writeObject key data).1 = .ok () ↔ (t'.writeObject key data).1 = .ok ()
  inner : (t.writeObject key data).2.inner = (t'.writeObject key data).2.inner

theorem inner_writeObject_of_checkWrite {t : TrustAdapter A} {key : String} {data : Bytes}
    (h : t.checkWrite key data = .ok ()) :
    (t.writeObject key data).2.inner = (Adapter.writeObject t.inner key data).2 := by
  rw [writeObject, h]

theorem inner_writeObject_of_checkWrite_ne_ok {t : TrustAdapter A} {key : String} {data : Bytes}
    (h : t.checkWrite key data ≠ .ok ()) : (t.writeObject key data).2.inner = t.inner := by
  obtain ⟨e, he⟩ := writeObject_of_checkWrite_ne_ok h
  rw [he]

/-- A write that the store does not take, and that leaves the store as it is,
has no effect through an adapter either. -/
theorem inner_writeObject_of_kept {t : TrustAdapter A} {key : String} {data : Bytes}
    (hkept : (Adapter.writeObject t.inner key data).2 = t.inner) :
    (t.writeObject key data).2.inner = t.inner := by
  by_cases hcheck : t.checkWrite key data = .ok ()
  · rw [inner_writeObject_of_checkWrite hcheck, hkept]
  · exact inner_writeObject_of_checkWrite_ne_ok hcheck

theorem WritesAlike.symm {t t' : TrustAdapter A} {key : String} {data : Bytes}
    (h : t.WritesAlike t' key data) : t'.WritesAlike t key data := ⟨h.ok.symm, h.inner.symm⟩

/-- Where one adapter writes and the other one does not, they write alike only
over a store that does not take the write and stays as it is. -/
theorem WritesAlike.kept {t t' : TrustAdapter A} (hinner : t'.inner = t.inner) {key : String}
    {data : Bytes} (h : t.WritesAlike t' key data) (hcheck : t.checkWrite key data = .ok ())
    (hcheck' : t'.checkWrite key data ≠ .ok ()) :
    (Adapter.writeObject t.inner key data).1 ≠ .ok () ∧
      (Adapter.writeObject t.inner key data).2 = t.inner := by
  constructor
  · intro htaken
    have htaken' := h.ok.mp (writeObject_eq_ok_iff.mpr ⟨hcheck, htaken⟩)
    exact hcheck' (writeObject_eq_ok_iff.mp htaken').1
  · have hleft := h.inner
    rwa [inner_writeObject_of_checkWrite hcheck, inner_writeObject_of_checkWrite_ne_ok hcheck',
      hinner] at hleft

/-- Two adapters over one store write alike when the check says the same, or
when the store does not take the write and stays as it is. -/
theorem writesAlike_iff (t t' : TrustAdapter A) (hinner : t'.inner = t.inner) {key : String}
    {data : Bytes} :
    t.WritesAlike t' key data ↔
      (t.checkWrite key data = .ok () ↔ t'.checkWrite key data = .ok ()) ∨
        ((Adapter.writeObject t.inner key data).1 ≠ .ok () ∧
          (Adapter.writeObject t.inner key data).2 = t.inner) := by
  constructor
  · intro h
    by_cases hcheck : t.checkWrite key data = .ok ()
    · by_cases hcheck' : t'.checkWrite key data = .ok ()
      · exact Or.inl (iff_of_true hcheck hcheck')
      · exact Or.inr (h.kept hinner hcheck hcheck')
    · by_cases hcheck' : t'.checkWrite key data = .ok ()
      · have hkept := h.symm.kept hinner.symm hcheck' hcheck
        rw [hinner] at hkept
        exact Or.inr hkept
      · exact Or.inl (iff_of_false hcheck hcheck')
  · intro h
    cases h with
    | inl hsame =>
      constructor
      · rw [writeObject_eq_ok_iff, writeObject_eq_ok_iff, hsame, hinner]
      · by_cases hcheck : t.checkWrite key data = .ok ()
        · have hcheck' := hsame.mp hcheck
          rw [inner_writeObject_of_checkWrite hcheck, inner_writeObject_of_checkWrite hcheck',
            hinner]
        · have hcheck' := mt hsame.mpr hcheck
          rw [inner_writeObject_of_checkWrite_ne_ok hcheck,
            inner_writeObject_of_checkWrite_ne_ok hcheck', hinner]
    | inr hkept =>
      constructor
      · simp only [writeObject_eq_ok_iff, hinner, hkept.1, and_false]
      · have hkept' : (Adapter.writeObject t'.inner key data).2 = t'.inner := by
          rw [hinner]
          exact hkept.2
        rw [inner_writeObject_of_kept hkept.2, inner_writeObject_of_kept hkept', hinner]

omit [Adapter A] in
/-- With credentials, the check of a write depends on the rules, the role of
the key and the flag. -/
theorem checkWrite_iff_authorises {t : TrustAdapter A} {sk : SigningKey}
    (hsk : t.keystore.endorsementKey = some sk) {key : String} {data : Bytes} :
    t.checkWrite key data = .ok () ↔
      (t.policy.strictWrite = true → endsWith key ".delta" = true →
        t.Authorises data sk.verifyingKey) := by
  rw [checkWrite_iff]
  simp only [hsk, Option.some.injEq, exists_eq_left']

/-- Against an adapter with the same rules and the same credentials that checks
writes, a write is the same exactly when both check writes, or the check has
nothing against this one, or the store does not take it and stays as it is. -/
theorem writesAlike_reloaded {t t' : TrustAdapter A} {sk : SigningKey}
    (hsk : t.keystore.endorsementKey = some sk) (hinner : t'.inner = t.inner)
    (hrules : t'.policy.rules = t.policy.rules) {ks : KeyStore}
    (hroles : ks.roles = t.keystore.roles) (hks : ks.endorsementKey = some sk)
    (hstrict' : t'.policy.strictWrite = true) (key : String) (data : Bytes) :
    t.WritesAlike (t'.setKeystore ks) key data ↔
      t.policy.strictWrite = true ∨ endsWith key ".delta" = false ∨
        t.Authorises data sk.verifyingKey ∨
        ((Adapter.writeObject t.inner key data).1 ≠ .ok () ∧
          (Adapter.writeObject t.inner key data).2 = t.inner) := by
  have hrole : (t'.setKeystore ks).keystore.getRole sk.verifyingKey.toBytes
      = t.keystore.getRole sk.verifyingKey.toBytes := by
    show ks.roles.lookup _ = t.keystore.roles.lookup _
    rw [hroles]
  have hauthorises : (t'.setKeystore ks).Authorises data sk.verifyingKey
      ↔ t.Authorises data sk.verifyingKey :=
    authorises_congr (t := t'.setKeystore ks) hrules hrole data
  have hchecks : (t'.setKeystore ks).policy.strictWrite = true := hstrict'
  rw [writesAlike_iff t (t'.setKeystore ks) hinner, checkWrite_iff_authorises hsk,
    checkWrite_iff_authorises (t := t'.setKeystore ks) hks, hauthorises, hchecks,
    ← Bool.not_eq_true]
  by_cases hstrict : t.policy.strictWrite = true
  · simp only [hstrict, true_implies, true_or]
  · -- Only the loaded adapter asks the policy.
    simp only [hstrict, Bool.false_eq_true, false_implies, true_implies, true_iff, false_or]
    rw [imp_iff_not_or, or_assoc]

variable [SerdeYaml PolicyFile] [SerdeValue TrustConfiguration] [SerdeValue KeyStoreConfig]
  [SerdeValue DeltaFilterConfig] [SerdeValue PolicyEngineConfig]

/-- A configuration can be saved.  It can be loaded over the same store, gets
its credentials again and then writes as before, exactly when the keys on its
lists are read as deltas, and the saved adapter checked writes, or the check
has nothing against this write, or the store does not take it and stays as it
is. -/
theorem reload_writesAlike_iff (hbase64 : Base64Law)
    (hconfig : SerdeValueLaw TrustConfiguration) (hkeystore : SerdeValueLaw KeyStoreConfig)
    (hfilter : SerdeValueLaw DeltaFilterConfig) (hpolicy : SerdeValueLaw PolicyEngineConfig)
    {t : TrustAdapter A} (h : t.Built) {sk : SigningKey}
    (hsk : t.keystore.endorsementKey = some sk) {publicKey : Option Bytes}
    (hpublic : ∀ pubkey ∈ publicKey, pubkey = sk.verifyingKey.toBytes)
    (iter : HashIter VerifyingKey) (white black : HashIter String) :
    ∃ json, t.toJson iter white black = .ok json ∧
      ∀ key data,
        (∃ t' ks, TrustAdapter.fromJson t.inner json = .ok t' ∧
            t'.keystore.setEndorsementCredentials sk.val publicKey = (.ok (), ks) ∧
            t.WritesAlike (t'.setKeystore ks) key data) ↔
          t.deltaFilter.Loads ∧
            (t.policy.strictWrite = true ∨ endsWith key ".delta" = false ∨
              t.Authorises data sk.verifyingKey ∨
              ((Adapter.writeObject t.inner key data).1 ≠ .ok () ∧
                (Adapter.writeObject t.inner key data).2 = t.inner)) := by
  obtain ⟨json, hsaved, hloads, hsame⟩ :=
    exists_saved hbase64 hconfig hkeystore hfilter hpolicy h iter white black
  refine ⟨json, hsaved, fun key data => ?_⟩
  -- Once it is loaded, the credentials can be installed and the writes compared.
  have hloaded : ∀ t', TrustAdapter.fromJson t.inner json = .ok t' → ∃ ks,
      t'.keystore.setEndorsementCredentials sk.val publicKey = (.ok (), ks) ∧
        (t.WritesAlike (t'.setKeystore ks) key data ↔
          t.policy.strictWrite = true ∨ endsWith key ".delta" = false ∨
            t.Authorises data sk.verifyingKey ∨
            ((Adapter.writeObject t.inner key data).1 ≠ .ok () ∧
              (Adapter.writeObject t.inner key data).2 = t.inner)) := by
    intro t' hload
    obtain ⟨hgate, hstrict, -⟩ := hsame t' hload
    obtain ⟨ks, hset, hks, hroles⟩ := t'.keystore.exists_setEndorsementCredentials_eq sk hpublic
    have hinner : t'.inner = t.inner := hgate.inner
    have hrules : t'.policy.rules = t.policy.rules := hgate.rules
    have hroles' : ks.roles = t.keystore.roles := hroles.trans hgate.roles
    exact ⟨ks, hset, writesAlike_reloaded hsk hinner hrules hroles' hks hstrict key data⟩
  rw [← hloads]
  constructor
  · rintro ⟨t', ks, hload, hset, halike⟩
    obtain ⟨ks', hset', hiff⟩ := hloaded t' hload
    obtain rfl : ks = ks' := congrArg Prod.snd (hset.symm.trans hset')
    exact ⟨⟨t', hload⟩, hiff.mp halike⟩
  · rintro ⟨⟨t', hload⟩, hcond⟩
    obtain ⟨ks, hset, hiff⟩ := hloaded t' hload
    exact ⟨t', ks, hload, hset, hiff.mpr hcond⟩

end TrustAdapter

end

section

open Reference

/-- An adapter without rules that takes every write, with the first sample key. -/
def uncheckedWriter : TrustAdapter MemoryMap :=
  let t := TrustAdapter.newSingle MemoryMap.new
  let t := t.setKeystore (t.keystore.setEndorsementCredentials (sampleKey 1).val none).2
  t.setPolicy (t.policy.setStrictWrite false)

theorem built_uncheckedWriter : uncheckedWriter.Built :=
  .getPolicyMut (.getKeystoreMut (.newSingle MemoryMap.new)
    (.setEndorsementCredentials (sampleKey 1).val none)) (.setStrictWrite false)

/-- What is saved of it. -/
def uncheckedConfiguration : Value :=
  .object [("endorsement_mode", .string "Single"),
    ("keystore", .object [("keys", .array [])]),
    ("delta_filter", .object [("whitelist", .array []), ("blacklist", .array [])]),
    ("policy", .object [("rules", .array [])])]

theorem toJson_uncheckedWriter :
    uncheckedWriter.toJson (hashIter VerifyingKey) (hashIter String) (hashIter String)
      = .ok uncheckedConfiguration := by
  have hkeys : (hashIter VerifyingKey).items uncheckedWriter.keystore.trustedKeys = [] :=
    Finset.toList_empty
  have hwhite : (hashIter String).items uncheckedWriter.deltaFilter.whitelist = [] :=
    Finset.toList_empty
  have hblack : (hashIter String).items uncheckedWriter.deltaFilter.blacklist = [] :=
    Finset.toList_empty
  simp only [TrustAdapter.toJson, KeyStore.toJson, DeltaFilter.toJson, hkeys, hwhite, hblack]
  rfl

/-- The adapter writes a delta that it refuses once its configuration was
saved and loaded, with the same key. -/
theorem uncheckedWriter_not_writesAlike :
    ∃ t' ks, uncheckedWriter.Built ∧
      uncheckedWriter.toJson (hashIter VerifyingKey) (hashIter String) (hashIter String)
        = .ok uncheckedConfiguration ∧
      TrustAdapter.fromJson uncheckedWriter.inner uncheckedConfiguration = .ok t' ∧
      t'.keystore.setEndorsementCredentials (sampleKey 1).val none = (.ok (), ks) ∧
      (uncheckedWriter.writeObject (sampleDelta 1).key sampleData).1 = .ok () ∧
      ((t'.setKeystore ks).writeObject (sampleDelta 1).key sampleData).1
        = .err "write_denied_by_policy" ∧
      ¬ uncheckedWriter.WritesAlike (t'.setKeystore ks) (sampleDelta 1).key sampleData := by
  have hwrite : (uncheckedWriter.writeObject (sampleDelta 1).key sampleData).1 = .ok () := rfl
  have hdenied : (((TrustAdapter.newSingle MemoryMap.new).setKeystore
      ⟨some (sampleKey 1), ∅, ∅⟩).writeObject (sampleDelta 1).key sampleData).1
        = .err "write_denied_by_policy" := by decide +kernel
  refine ⟨TrustAdapter.newSingle MemoryMap.new, ⟨some (sampleKey 1), ∅, ∅⟩,
    built_uncheckedWriter, toJson_uncheckedWriter, rfl, rfl, hwrite, hdenied, fun halike => ?_⟩
  have htaken := halike.ok.mp hwrite
  rw [hdenied] at htaken
  cases htaken

/-- The adapter of the sample configuration, with credentials. -/
def signingBuilt : TrustAdapter MemoryMap :=
  sampleBuilt.setKeystore (sampleBuilt.keystore.setEndorsementCredentials (sampleKey 1).val
    (some (sampleKey 1).verifyingKey.toBytes)).2

/-- It checks writes, so it writes everything as before once its configuration
was saved and loaded. -/
theorem reload_writesAlike_iff_sample :
    ∃ json, signingBuilt.toJson (hashIter VerifyingKey) (hashIter String) (hashIter String)
        = .ok json ∧
      ∀ key data, ∃ t' ks, TrustAdapter.fromJson signingBuilt.inner json = .ok t' ∧
        t'.keystore.setEndorsementCredentials (sampleKey 1).val
          (some (sampleKey 1).verifyingKey.toBytes) = (.ok (), ks) ∧
        signingBuilt.WritesAlike (t'.setKeystore ks) key data := by
  have hbuilt : signingBuilt.Built :=
    .getKeystoreMut built_sampleBuilt (.setEndorsementCredentials _ _)
  have hsk : signingBuilt.keystore.endorsementKey = some (sampleKey 1) := by
    show (sampleBuilt.keystore.setEndorsementCredentials _ _).2.endorsementKey = _
    rw [KeyStore.setEndorsementCredentials_of_match]
  have hpublic : ∀ pubkey ∈ some (sampleKey 1).verifyingKey.toBytes,
      pubkey = (sampleKey 1).verifyingKey.toBytes := by
    intro pubkey hpubkey
    exact (Option.mem_some_iff.mp hpubkey).symm
  obtain ⟨json, hsaved, hwrites⟩ :=
    TrustAdapter.reload_writesAlike_iff base64Law serdeValueLaw_trustConfiguration
      serdeValueLaw_keyStoreConfig serdeValueLaw_deltaFilterConfig
      serdeValueLaw_policyEngineConfig hbuilt hsk hpublic (hashIter VerifyingKey)
      (hashIter String) (hashIter String)
  refine ⟨json, hsaved, fun key data => (hwrites key data).mpr ⟨?_, Or.inl rfl⟩⟩
  exact (hbuilt.parts.deltaFilter.hasKeys.readsBack fromKeyLaw).loads

end

end MeldaSec
