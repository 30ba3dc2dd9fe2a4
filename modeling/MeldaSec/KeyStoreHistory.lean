import MeldaSec.KeyStoreRuns

/-!
# A key store as the history of its calls

A key store has no method that forgets anything.  So its content is given by
the calls that were made on it: a key is trusted when one of them trusted it,
and the role of a key and the signing key are those of the last call that set
them.  `runCalls_history` says this for every sequence of calls, among them
those that fail, and `verify_endorse_of_run` what follows for the signatures
that the store makes.
-/

namespace MeldaSec

open Rust

section

variable [Crates]

namespace KeyStore

/-! ## What a call says -/

/-- The key that these bytes encode. -/
def decodeKey (bytes : Bytes) : Option VerifyingKey :=
  (tryInto 32 bytes).bind VerifyingKey.fromBytes

/-- The signing key of credentials that are accepted. -/
def decodeCredentials (privateKey : Bytes) (publicKey : Option Bytes) : Option SigningKey :=
  (tryInto 32 privateKey).filter fun sk =>
    publicKey.all fun pubkey => decide (pubkey = (SigningKey.verifyingKey sk).toBytes)

/-- The key that the call trusts. -/
def Call.trusted : Call → Option VerifyingKey
  | .setEndorsementCredentials privateKey (some publicKey) =>
    (decodeCredentials privateKey (some publicKey)).map SigningKey.verifyingKey
  | .setEndorsementCredentials _ none => none
  | .setEndorsementCredentialsWithRole privateKey publicKey _ =>
    (decodeCredentials privateKey (some publicKey)).map SigningKey.verifyingKey
  | .addTrustedPublicKey bytes => decodeKey bytes
  | .addTrustedPublicKeyWithRole bytes _ => decodeKey bytes

/-- The role that the call gives to the key with these bytes. -/
def Call.role (pubkey : Bytes) : Call → Option String
  | .setEndorsementCredentialsWithRole privateKey publicKey role =>
    if publicKey = pubkey then (decodeCredentials privateKey (some publicKey)).map fun _ => role
    else none
  | .addTrustedPublicKeyWithRole bytes role =>
    if bytes = pubkey then (decodeKey bytes).map fun _ => role else none
  | _ => none

/-- The signing key that the call installs. -/
def Call.installed : Call → Option SigningKey
  | .setEndorsementCredentials privateKey publicKey => decodeCredentials privateKey publicKey
  | .setEndorsementCredentialsWithRole privateKey publicKey _ =>
    decodeCredentials privateKey (some publicKey)
  | _ => none

theorem decodeKey_eq_some_iff {bytes : Bytes} {vk : VerifyingKey} :
    decodeKey bytes = some vk ↔ bytes = vk.toBytes := by
  rw [decodeKey, Option.bind_eq_some_iff, eq_comm, VerifyingKey.toBytes_eq_iff]

theorem decodeKey_toBytes (vk : VerifyingKey) : decodeKey vk.toBytes = some vk :=
  decodeKey_eq_some_iff.mpr rfl

theorem decodeCredentials_eq_some_iff {privateKey : Bytes} {publicKey : Option Bytes}
    {sk : SigningKey} :
    decodeCredentials privateKey publicKey = some sk ↔
      privateKey = sk.val ∧
        ∀ pubkey ∈ publicKey, pubkey = (SigningKey.verifyingKey sk).toBytes := by
  rw [decodeCredentials, Option.filter_eq_some_iff, tryInto_eq_some_iff]
  apply and_congr_right
  intro _
  cases publicKey <;> simp

theorem decodeKey_eq_none_iff {bytes : Bytes} :
    decodeKey bytes = none ↔ ∀ vk : VerifyingKey, bytes ≠ vk.toBytes := by
  simp only [Option.eq_none_iff_forall_ne_some, ne_eq, decodeKey_eq_some_iff]

theorem decodeCredentials_eq_none_iff {privateKey publicKey : Bytes} :
    decodeCredentials privateKey (some publicKey) = none ↔
      ∀ sk : SigningKey, privateKey = sk.val →
        publicKey ≠ (SigningKey.verifyingKey sk).toBytes := by
  simp [Option.eq_none_iff_forall_ne_some, decodeCredentials_eq_some_iff]

/-! ## What a call does -/

/-- The second key store is the first one with what the call says. -/
structure Call.Records (call : Call) (ks ks' : KeyStore) : Prop where
  trusted : ∀ vk, vk ∈ ks'.trustedKeys ↔ vk ∈ ks.trustedKeys ∨ call.trusted = some vk
  role : ∀ pubkey, ks'.getRole pubkey = (call.role pubkey).or (ks.getRole pubkey)
  installed : ks'.endorsementKey = call.installed.or ks.endorsementKey

/-- A call that says nothing changes nothing. -/
theorem Call.Records.same {call : Call} (ks : KeyStore) (htrusted : call.trusted = none)
    (hrole : ∀ pubkey, call.role pubkey = none) (hinstalled : call.installed = none) :
    call.Records ks ks where
  trusted vk := by simp [htrusted]
  role pubkey := by simp [hrole]
  installed := by simp [hinstalled]

omit [Crates] in
theorem lookup_insert (roles : Finmap fun _ : Bytes => String) (bytes pubkey : Bytes)
    (role : String) :
    (roles.insert bytes role).lookup pubkey
      = if bytes = pubkey then some role else roles.lookup pubkey := by
  split_ifs with h
  · rw [h]
    exact Finmap.lookup_insert _
  · exact Finmap.lookup_insert_of_ne _ (Ne.symm h)

/-- Bytes that are no key are refused. -/
theorem addTrustedPublicKey_of_none {ks : KeyStore} {bytes : Bytes} (h : decodeKey bytes = none) :
    (ks.addTrustedPublicKey bytes).2 = ks ∧
      ∀ role, (ks.addTrustedPublicKeyWithRole bytes role).2 = ks := by
  unfold addTrustedPublicKey addTrustedPublicKeyWithRole
  unfold decodeKey at h
  cases htry : tryInto 32 bytes with
  | none => exact ⟨rfl, fun _ => rfl⟩
  | some array =>
    rw [htry, Option.bind_some] at h
    simp [h]

/-- Credentials that do not match are refused. -/
theorem setEndorsementCredentials_of_none (ks : KeyStore) {privateKey publicKey : Bytes}
    (h : decodeCredentials privateKey (some publicKey) = none) :
    ∃ e, ks.setEndorsementCredentials privateKey (some publicKey) = (.err e, ks) := by
  rcases ks.setEndorsementCredentials_cases privateKey publicKey with herr | ⟨sk, hsk, hpub, -⟩
  · exact herr
  · exact absurd hpub (decodeCredentials_eq_none_iff.mp h sk hsk)

theorem Call.records_addTrustedPublicKey (ks : KeyStore) (bytes : Bytes) :
    (Call.addTrustedPublicKey bytes).Records ks (ks.addTrustedPublicKey bytes).2 := by
  cases hkey : decodeKey bytes with
  | none =>
    rw [(addTrustedPublicKey_of_none hkey).1]
    exact .same ks hkey (fun _ => rfl) rfl
  | some vk =>
    rw [decodeKey_eq_some_iff.mp hkey, addTrustedPublicKey_toBytes]
    refine ⟨fun vk' => ?_, fun pubkey => rfl, rfl⟩
    rw [Call.trusted, decodeKey_toBytes, Option.some.injEq, Finset.mem_insert, or_comm,
      eq_comm]

theorem Call.records_addTrustedPublicKeyWithRole (ks : KeyStore) (bytes : Bytes)
    (role : String) :
    (Call.addTrustedPublicKeyWithRole bytes role).Records ks
      (ks.addTrustedPublicKeyWithRole bytes role).2 := by
  cases hkey : decodeKey bytes with
  | none =>
    rw [(addTrustedPublicKey_of_none hkey).2 role]
    exact .same ks hkey (fun pubkey => by simp [Call.role, hkey]) rfl
  | some vk =>
    rw [decodeKey_eq_some_iff.mp hkey, addTrustedPublicKeyWithRole_toBytes]
    refine ⟨fun vk' => ?_, fun pubkey => ?_, rfl⟩
    · rw [Call.trusted, decodeKey_toBytes, Option.some.injEq, Finset.mem_insert, or_comm,
        eq_comm]
    · have hsays : (Call.addTrustedPublicKeyWithRole vk.toBytes role).role pubkey
          = if vk.toBytes = pubkey then (decodeKey vk.toBytes).map fun _ => role else none := rfl
      show (ks.roles.insert vk.toBytes role).lookup pubkey = _
      rw [lookup_insert, hsays, decodeKey_toBytes]
      split_ifs <;> rfl

theorem Call.records_setEndorsementCredentials (ks : KeyStore) (privateKey : Bytes)
    (publicKey : Option Bytes) :
    (Call.setEndorsementCredentials privateKey publicKey).Records ks
      (ks.setEndorsementCredentials privateKey publicKey).2 := by
  cases publicKey with
  | none =>
    unfold KeyStore.setEndorsementCredentials
    cases hsk : tryInto 32 privateKey with
    | none =>
      exact .same ks rfl (fun _ => rfl) (by simp [Call.installed, decodeCredentials, hsk])
    | some sk =>
      refine ⟨fun vk => by simp [Call.trusted], fun _ => rfl, ?_⟩
      simp [Call.installed, decodeCredentials, hsk, Option.filter]
  | some publicKey =>
    cases hcred : decodeCredentials privateKey (some publicKey) with
    | none =>
      obtain ⟨e, herr⟩ := setEndorsementCredentials_of_none ks hcred
      rw [herr]
      exact .same ks (by simp [Call.trusted, hcred]) (fun _ => rfl) hcred
    | some sk =>
      obtain ⟨hsk, hpub⟩ := decodeCredentials_eq_some_iff.mp hcred
      have hpubkey : publicKey = (SigningKey.verifyingKey sk).toBytes := hpub publicKey rfl
      have hok := ks.setEndorsementCredentials_of_match sk
      rw [← hsk, ← hpubkey] at hok
      rw [hok]
      refine ⟨fun vk => ?_, fun _ => rfl, by simp [Call.installed, hcred]⟩
      rw [Call.trusted, hcred, Option.map_some, Option.some.injEq, Finset.mem_insert, or_comm,
        eq_comm]

theorem Call.records_setEndorsementCredentialsWithRole (ks : KeyStore)
    (privateKey publicKey : Bytes) (role : String) :
    (Call.setEndorsementCredentialsWithRole privateKey publicKey role).Records ks
      (ks.setEndorsementCredentialsWithRole privateKey publicKey role).2 := by
  unfold KeyStore.setEndorsementCredentialsWithRole
  cases hcred : decodeCredentials privateKey (some publicKey) with
  | none =>
    obtain ⟨e, herr⟩ := setEndorsementCredentials_of_none ks hcred
    rw [herr]
    exact .same ks (by simp [Call.trusted, hcred]) (fun _ => by simp [Call.role, hcred]) hcred
  | some sk =>
    obtain ⟨hsk, hpub⟩ := decodeCredentials_eq_some_iff.mp hcred
    have hpubkey : publicKey = (SigningKey.verifyingKey sk).toBytes := hpub publicKey rfl
    have hok := ks.setEndorsementCredentials_of_match sk
    rw [← hsk, ← hpubkey] at hok
    have hrole := addTrustedPublicKeyWithRole_toBytes
      { ks with
        trustedKeys := insert (SigningKey.verifyingKey sk) ks.trustedKeys
        endorsementKey := some sk } (SigningKey.verifyingKey sk) role
    rw [← hpubkey] at hrole
    rw [hok, Outcome.ok_andThen, hrole]
    refine ⟨fun vk => ?_, fun pubkey => ?_, by simp [Call.installed, hcred]⟩
    · rw [Call.trusted, hcred, Option.map_some, Option.some.injEq, Finset.insert_idem,
        Finset.mem_insert, or_comm, eq_comm]
    · have hsays : (Call.setEndorsementCredentialsWithRole privateKey publicKey role).role pubkey
          = if publicKey = pubkey then (decodeCredentials privateKey (some publicKey)).map
              fun _ => role else none := rfl
      show (ks.roles.insert publicKey role).lookup pubkey = _
      rw [lookup_insert, hsays, hcred]
      split_ifs <;> rfl

/-- Every call records what it says. -/
theorem Call.records (call : Call) (ks : KeyStore) : call.Records ks (call.run ks).2 := by
  cases call with
  | setEndorsementCredentials privateKey publicKey =>
    exact Call.records_setEndorsementCredentials ks privateKey publicKey
  | setEndorsementCredentialsWithRole privateKey publicKey role =>
    exact Call.records_setEndorsementCredentialsWithRole ks privateKey publicKey role
  | addTrustedPublicKey bytes => exact Call.records_addTrustedPublicKey ks bytes
  | addTrustedPublicKeyWithRole bytes role =>
    exact Call.records_addTrustedPublicKeyWithRole ks bytes role

/-! ## Runs of calls -/

theorem mem_trustedKeys_runCalls {ks : KeyStore} {calls : List Call} {vk : VerifyingKey} :
    vk ∈ (ks.runCalls calls).trustedKeys ↔
      vk ∈ ks.trustedKeys ∨ ∃ call ∈ calls, call.trusted = some vk := by
  induction calls generalizing ks with
  | nil => simp [runCalls]
  | cons call calls ih =>
    have hrun : ks.runCalls (call :: calls) = (call.run ks).2.runCalls calls := rfl
    rw [hrun, ih, (call.records ks).trusted vk, List.exists_mem_cons_iff, or_assoc]

theorem getRole_runCalls (ks : KeyStore) (calls : List Call) (pubkey : Bytes) :
    (ks.runCalls calls).getRole pubkey
      = (lastSome (Call.role pubkey) calls).or (ks.getRole pubkey) :=
  foldl_lastSome (fun ks => ks.getRole pubkey)
    (fun ks call => (call.records ks).role pubkey) ks calls

theorem endorsementKey_runCalls (ks : KeyStore) (calls : List Call) :
    (ks.runCalls calls).endorsementKey
      = (lastSome Call.installed calls).or ks.endorsementKey :=
  foldl_lastSome KeyStore.endorsementKey (fun ks call => (call.records ks).installed) ks calls

/-- The question about bytes of the right length is answered, and the answer
is about the key that they encode. -/
theorem isTrustedPublicKey_of_length (ks : KeyStore) {bytes : Bytes} (h : bytes.length = 32) :
    ∃ answer, ks.isTrustedPublicKey bytes = .ok answer ∧
      (answer = true ↔ ∃ vk ∈ ks.trustedKeys, vk.toBytes = bytes) := by
  unfold isTrustedPublicKey
  cases htry : tryInto 32 bytes with
  | none => exact absurd h (tryInto_eq_none_iff.mp htry)
  | some array =>
    cases hkey : VerifyingKey.fromBytes array with
    | none =>
      refine ⟨false, by simp [hkey], ?_⟩
      have hnone : decodeKey bytes = none := by simp [decodeKey, htry, hkey]
      simp only [Bool.false_eq_true, false_iff, not_exists, not_and]
      intro vk _ hvk
      exact decodeKey_eq_none_iff.mp hnone vk hvk.symm
    | some vk =>
      refine ⟨ks.isTrusted vk, by simp [hkey], ?_⟩
      have hsome : bytes = vk.toBytes := decodeKey_eq_some_iff.mp (by simp [decodeKey, htry, hkey])
      rw [isTrusted, decide_eq_true_eq, hsome]
      constructor
      · intro htrusted
        exact ⟨vk, htrusted, rfl⟩
      · intro hex
        obtain ⟨vk', htrusted, hvk'⟩ := hex
        rw [← VerifyingKey.toBytes_injective hvk']
        exact htrusted

/-- The other question panics. -/
theorem isTrustedPublicKey_eq_panic_iff {ks : KeyStore} {bytes : Bytes} :
    ks.isTrustedPublicKey bytes = .panic ↔ bytes.length ≠ 32 := by
  constructor
  · intro hpanic hlength
    obtain ⟨answer, hanswer, -⟩ := isTrustedPublicKey_of_length ks hlength
    rw [hpanic] at hanswer
    cases hanswer
  · intro hlength
    unfold isTrustedPublicKey
    rw [tryInto_eq_none_iff.mpr hlength]
    rfl

/-- After any calls, the trusted keys are the old ones and those that a call
trusted, and the roles and the signing key are those of the last call that set
them.  The question whether bytes are a trusted key is answered accordingly,
and panics on bytes of another length. -/
theorem runCalls_history (ks : KeyStore) (calls : List Call) :
    (∀ vk, vk ∈ (ks.runCalls calls).trustedKeys ↔
      vk ∈ ks.trustedKeys ∨ ∃ call ∈ calls, call.trusted = some vk) ∧
    (∀ pubkey, (ks.runCalls calls).getRole pubkey
      = (lastSome (Call.role pubkey) calls).or (ks.getRole pubkey)) ∧
    (ks.runCalls calls).endorsementKey
      = (lastSome Call.installed calls).or ks.endorsementKey ∧
    ∀ bytes, (bytes.length ≠ 32 → (ks.runCalls calls).isTrustedPublicKey bytes = .panic) ∧
      (bytes.length = 32 → ∃ answer, (ks.runCalls calls).isTrustedPublicKey bytes = .ok answer ∧
        (answer = true ↔ ∃ vk : VerifyingKey, vk.toBytes = bytes ∧
          (vk ∈ ks.trustedKeys ∨ ∃ call ∈ calls, call.trusted = some vk))) := by
  refine ⟨fun _ => mem_trustedKeys_runCalls, getRole_runCalls ks calls,
    endorsementKey_runCalls ks calls, fun bytes => ⟨isTrustedPublicKey_eq_panic_iff.mpr,
      fun hlength => ?_⟩⟩
  obtain ⟨answer, hanswer, htrusted⟩ :=
    isTrustedPublicKey_of_length (ks.runCalls calls) hlength
  refine ⟨answer, hanswer, ?_⟩
  simp only [htrusted, mem_trustedKeys_runCalls, and_comm]

/-! ## Signatures -/

/-- The answer is a trusted key that the signature verifies for. -/
theorem of_verify_eq_some {ks : KeyStore} {iter : HashIter VerifyingKey} {data : Bytes}
    {sig : Signature} {vk : VerifyingKey} (h : ks.verify iter data sig = some vk) :
    vk ∈ ks.trustedKeys ∧ vk.verify data sig = true := by
  constructor
  · exact iter.mem_items.mp (List.mem_of_find?_eq_some h)
  · unfold verify at h
    have hfound := List.find?_some h
    exact hfound

/-- A signature that verifies for a trusted key is found. -/
theorem exists_verify_eq_some {ks : KeyStore} {vk : VerifyingKey} (hvk : vk ∈ ks.trustedKeys)
    {data : Bytes} {sig : Signature} (hverify : vk.verify data sig = true)
    (iter : HashIter VerifyingKey) : ∃ vk', ks.verify iter data sig = some vk' := by
  rw [← Option.isSome_iff_exists, verify, List.find?_isSome]
  exact ⟨vk, iter.mem_items.mpr hvk, hverify⟩

/-- After the credentials with a public key are installed, and until others
are, every signature that the store makes is one that the store accepts: then
and after all later calls, in every order of its keys. -/
theorem verify_endorse_of_run (hsign : SignatureLaw) {ks ks' : KeyStore}
    {privateKey publicKey : Bytes}
    (hset : ks.setEndorsementCredentials privateKey (some publicKey) = (.ok (), ks'))
    (calls : List Call) (hkept : ∀ call ∈ calls, call.installed = none) (data : Bytes) :
    ∃ sig, (ks'.runCalls calls).endorse data = some sig ∧
      ∀ (later : List Call) (iter : HashIter VerifyingKey),
        ∃ vk ∈ (ks'.runCalls (calls ++ later)).trustedKeys,
          (ks'.runCalls (calls ++ later)).verify iter data sig = some vk ∧
            vk.verify data sig = true := by
  obtain ⟨sk, hsk, hpub, hok⟩ : ∃ sk : SigningKey, privateKey = sk.val ∧
      publicKey = (SigningKey.verifyingKey sk).toBytes ∧
      ks.setEndorsementCredentials privateKey (some publicKey) = (.ok (), { ks with
        trustedKeys := insert (SigningKey.verifyingKey sk) ks.trustedKeys
        endorsementKey := some sk }) := by
    rcases ks.setEndorsementCredentials_cases privateKey publicKey with ⟨e, herr⟩ | hcase
    · rw [herr] at hset
      cases hset
    · exact hcase
  have hstore := (Prod.mk.inj (hset.symm.trans hok)).2
  have hkey : (ks'.runCalls calls).endorsementKey = some sk := by
    have hnone : lastSome Call.installed calls = none := by
      unfold lastSome
      rw [List.findSome?_eq_none_iff]
      intro call hcall
      exact hkept call (List.mem_reverse.mp hcall)
    rw [endorsementKey_runCalls, hnone, hstore]
    rfl
  refine ⟨sk.sign data, by rw [endorse, hkey, Option.map_some], fun later iter => ?_⟩
  have htrusted : SigningKey.verifyingKey sk ∈ (ks'.runCalls (calls ++ later)).trustedKeys := by
    rw [mem_trustedKeys_runCalls, hstore]
    exact Or.inl (Finset.mem_insert_self _ _)
  obtain ⟨vk, hvk⟩ := exists_verify_eq_some htrusted (hsign sk data) iter
  obtain ⟨hmem, hverify⟩ := of_verify_eq_some hvk
  exact ⟨vk, hmem, hvk, hverify⟩

end KeyStore

end

section

open Reference

/-- The sample key signs after another key got a role. -/
theorem verify_endorse_of_run_sample :
    ∃ sig, ((KeyStore.new.setEndorsementCredentials (sampleKey 1).val
        (some (sampleKey 1).verifyingKey.toBytes)).2.runCalls
          [.addTrustedPublicKeyWithRole (sampleKey 3).verifyingKey.toBytes "editor"]).endorse
        sampleData = some sig := by
  have hset : KeyStore.new.setEndorsementCredentials (sampleKey 1).val
      (some (sampleKey 1).verifyingKey.toBytes) = (.ok (), (KeyStore.new.setEndorsementCredentials
        (sampleKey 1).val (some (sampleKey 1).verifyingKey.toBytes)).2) := by
    rw [KeyStore.setEndorsementCredentials_of_match]
  obtain ⟨sig, hsig, -⟩ := KeyStore.verify_endorse_of_run signatureLaw hset
    [.addTrustedPublicKeyWithRole (sampleKey 3).verifyingKey.toBytes "editor"]
    (fun call hcall => by rw [List.mem_singleton.mp hcall]; rfl) sampleData
  exact ⟨sig, hsig⟩

end

end MeldaSec
