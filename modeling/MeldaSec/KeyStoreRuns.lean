import MeldaSec.Reload

/-!
# Runs of calls on a key store

`Call` is a call of one of the four methods that change a key store, and
`runCalls` makes one call after the other, whatever they return.
`Consistent` is the invariant of such runs: the roles are for trusted keys,
and the count is the number of distinct encodings.  `Safe` says what a single
call does from any state: it does not panic, it takes no key away, and an
error changes nothing.  `runCalls_consistent` is the statement about runs
from an empty and from a loaded key store.
-/

namespace MeldaSec

open Rust

section

variable [Crates]

namespace KeyStore

/-- A call of a method with `&mut self`. -/
inductive Call where
  | setEndorsementCredentials (privateKey : Bytes) (publicKey : Option Bytes)
  | setEndorsementCredentialsWithRole (privateKey publicKey : Bytes) (role : String)
  | addTrustedPublicKey (bytes : Bytes)
  | addTrustedPublicKeyWithRole (bytes : Bytes) (role : String)
  deriving DecidableEq

/-- What the call returns, and what it leaves behind. -/
def Call.run (ks : KeyStore) : Call → Result Unit × KeyStore
  | .setEndorsementCredentials privateKey publicKey =>
    ks.setEndorsementCredentials privateKey publicKey
  | .setEndorsementCredentialsWithRole privateKey publicKey role =>
    ks.setEndorsementCredentialsWithRole privateKey publicKey role
  | .addTrustedPublicKey bytes => ks.addTrustedPublicKey bytes
  | .addTrustedPublicKeyWithRole bytes role => ks.addTrustedPublicKeyWithRole bytes role

/-- The key store after these calls. -/
def runCalls (ks : KeyStore) (calls : List Call) : KeyStore :=
  calls.foldl (fun ks call => (call.run ks).2) ks

/-- An empty key store, or one that was loaded. -/
inductive Start [SerdeValue KeyStoreConfig] : KeyStore → Prop where
  | new : Start new
  | fromJson {json : Value} {ks : KeyStore} : KeyStore.fromJson json = .ok ks → Start ks

/-! ## One call -/

theorem Call.settled (call : Call) (ks : KeyStore) : ks.Settled (call.run ks) := by
  cases call with
  | setEndorsementCredentials privateKey publicKey =>
    exact ks.settled_setEndorsementCredentials privateKey publicKey
  | setEndorsementCredentialsWithRole privateKey publicKey role =>
    exact ks.settled_setEndorsementCredentialsWithRole privateKey publicKey role
  | addTrustedPublicKey bytes => exact ks.settled_addTrustedPublicKey bytes
  | addTrustedPublicKeyWithRole bytes role => exact ks.settled_addTrustedPublicKeyWithRole bytes role

/-- Trusting more keys keeps the trusted ones. -/
theorem Trusts.subset {ks ks' : KeyStore} (h : ks.Trusts ks') :
    ks.trustedKeys ⊆ ks'.trustedKeys := by
  obtain ⟨entries, sk, rfl⟩ := h
  intro vk hvk
  exact mem_trustedKeys_foldl.mpr (Or.inl hvk)

/-- The call returns, it keeps the trusted keys, and an error changes
nothing. -/
structure Call.Safe (call : Call) (ks : KeyStore) : Prop where
  returns : (call.run ks).1 ≠ .panic
  keeps : ks.trustedKeyCount ≤ (call.run ks).2.trustedKeyCount
  atomic : ∀ e, (call.run ks).1 = .err e → (call.run ks).2 = ks

theorem Call.safe (call : Call) (ks : KeyStore) : call.Safe ks := by
  have hsettled := call.settled ks
  have hsubset := hsettled.trusts.subset
  generalize hcall : call.run ks = outcome at hsettled hsubset
  cases hsettled with
  | rejected e =>
    refine ⟨?_, ?_, ?_⟩ <;> simp [hcall]
  | accepted htrusts =>
    refine ⟨?_, ?_, ?_⟩
    · simp [hcall]
    · rw [hcall]
      exact Finset.card_le_card hsubset
    · simp [hcall]

/-! ## The invariant -/

/-- Every role is that of a trusted key with a name of thirty-two bytes, and
the count of trusted keys is the number of their distinct encodings. -/
structure Consistent (ks : KeyStore) : Prop where
  roles : ∀ pubkey ∈ ks.roles, pubkey.length = 32 ∧ ∃ vk ∈ ks.trustedKeys, vk.toBytes = pubkey
  count : ∀ iter, ks.trustedKeyCount = (ks.getTrustedPublicKeys iter).toFinset.card

/-- Different keys have different encodings. -/
theorem card_getTrustedPublicKeys (ks : KeyStore) (iter : HashIter VerifyingKey) :
    (ks.getTrustedPublicKeys iter).toFinset.card = ks.trustedKeyCount := by
  have himage : (ks.getTrustedPublicKeys iter).toFinset
      = ks.trustedKeys.image VerifyingKey.toBytes := by
    ext pubkey
    simp only [getTrustedPublicKeys, List.mem_toFinset, List.mem_map, iter.mem_items,
      Finset.mem_image]
  rw [himage, trustedKeyCount]
  exact Finset.card_image_of_injective _ fun _ _ => VerifyingKey.toBytes_injective

theorem RolesTrusted.consistent {ks : KeyStore} (h : ks.RolesTrusted) : ks.Consistent where
  roles pubkey hpubkey := by
    obtain ⟨role, hrole⟩ := Finmap.mem_iff.mp hpubkey
    obtain ⟨vk, hvk, rfl⟩ := h pubkey role hrole
    exact ⟨vk.val.property, vk, hvk, rfl⟩
  count iter := (ks.card_getTrustedPublicKeys iter).symm

/-- The roles stay roles of trusted keys through a run. -/
theorem RolesTrusted.runCalls {ks : KeyStore} (h : ks.RolesTrusted) (calls : List Call) :
    (ks.runCalls calls).RolesTrusted := by
  induction calls generalizing ks with
  | nil => exact h
  | cons call calls ih => exact ih (h.trusts (call.settled ks).trusts)

variable [SerdeValue KeyStoreConfig]

theorem Start.rolesTrusted {ks : KeyStore} (h : ks.Start) : ks.RolesTrusted := by
  cases h with
  | new => exact rolesTrusted_new
  | fromJson hload => exact rolesTrusted_new.trusts (trusts_of_fromJson hload)

omit [SerdeValue KeyStoreConfig] in
theorem decodeEntry_ne_panic (key : KeyEntry) : decodeEntry key ≠ .panic := by
  simp [decodeEntry, Outcome.bind_eq_panic_iff, Outcome.ofExcept_ne_panic, Outcome.okOr_ne_panic]

/-- Loading returns a key store or an error. -/
theorem fromJson_ne_panic (json : Value) : fromJson json ≠ .panic := by
  have hturn : addEntry = fun ks key => ks.trust <$> decodeEntry key :=
    funext fun ks => funext fun key => addEntry_eq ks key
  rw [fromJson, hturn]
  simp only [ne_eq, Outcome.bind_eq_panic_iff, Outcome.ofExcept_ne_panic, false_or,
    Outcome.foldlM_record, Outcome.map_eq_panic_iff, Outcome.mapM_eq_panic_iff,
    decodeEntry_ne_panic]
  simp

/-- After any calls on an empty or loaded key store, the key store is
consistent and every further call is safe; and loading does not panic. -/
theorem runCalls_consistent :
    (∀ json, fromJson json ≠ .panic) ∧
      ∀ start : KeyStore, start.Start → ∀ calls : List Call,
        (start.runCalls calls).Consistent ∧ ∀ call : Call, call.Safe (start.runCalls calls) := by
  refine ⟨fromJson_ne_panic, fun start hstart calls => ⟨?_, fun call => call.safe _⟩⟩
  exact (hstart.rolesTrusted.runCalls calls).consistent

end KeyStore

end

section

open Reference

/-- Credentials with a role, and a second role for another key. -/
def sampleCalls : List KeyStore.Call :=
  [.setEndorsementCredentialsWithRole (sampleKey 1).val (sampleKey 1).verifyingKey.toBytes "owner",
    .setEndorsementCredentials (sampleKey 2).val (some []),
    .addTrustedPublicKeyWithRole (sampleKey 3).verifyingKey.toBytes "editor"]

/-- The sample calls leave roles for trusted keys behind. -/
theorem runCalls_consistent_sample : (KeyStore.new.runCalls sampleCalls).Consistent :=
  (KeyStore.runCalls_consistent.2 KeyStore.new .new sampleCalls).1

end

end MeldaSec
