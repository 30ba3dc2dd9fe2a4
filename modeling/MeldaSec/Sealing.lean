import MeldaSec.Encryption
import MeldaSec.Gate
import Mathlib.Logic.Relation

/-!
# Tampering with encrypted storage

The nodes share an encryption key, and keep their objects in a store that
others can write to.  A run has two kinds of steps.  A node makes a call of a
trust adapter over the encrypted store, or an adversary without the key
replaces or deletes an object.  The adversary may write any bytes but a
ciphertext that the key opens and that no node has made.

* `exists_readObject_iff`: an adversary can make a node read, under any name,
  exactly what some node has encrypted, as a ciphertext does not depend on the
  name of its object.
* `encrypted_of_readObject`: a gated delta that is read was encrypted by a
  node, and so was each endorsement that it is read for.
-/

namespace MeldaSec

open Rust

/-! ## What a call writes -/

section

variable [Crates] [SerdeSlice EndorsementRecord] {A : Type} [Adapter A]

omit [Crates] [SerdeSlice EndorsementRecord] in
/-- The store after a write, or after none. -/
def applyWrite (store : A) : Option (String × Bytes) → A
  | none => store
  | some (name, bytes) => (Adapter.writeObject store name bytes).2

namespace TrustAdapter

/-- The object that a call hands to the store. -/
def writeOf (t : TrustAdapter A) : Request → Option (String × Bytes)
  | .writeObject key data =>
    match t.checkWrite key data with
    | .ok () => some (key, data)
    | _ => none
  | .endorse deltaId =>
    match t.keystore.endorsementKey with
    | none => none
    | some sk =>
      match t.alreadyEndorsed sk deltaId, SerdeSlice.toVec (signedRecord sk deltaId) with
      | .ok false, .ok bytes => some ((ownEndorsementKey sk deltaId).fileName, bytes)
      | _, _ => none
  | _ => none

/-- A call changes the store by this one write. -/
theorem call_snd (t : TrustAdapter A) (request : Request) :
    (t.call request).2 = t.withInner (applyWrite t.inner (t.writeOf request)) := by
  cases request with
  | writeObject key data =>
    show (t.writeObject key data).2 = _
    unfold TrustAdapter.writeObject writeOf
    simp only
    cases t.checkWrite key data <;> rfl
  | endorse deltaId =>
    show t.withInner (t.endorse deltaId).2 = _
    unfold TrustAdapter.endorse writeOf
    simp only
    cases t.keystore.endorsementKey with
    | none => rfl
    | some sk =>
      simp only
      cases t.alreadyEndorsed sk deltaId with
      | panic => rfl
      | err e => rfl
      | ok present =>
        cases present with
        | true => rfl
        | false =>
          simp only
          unfold writeEndorsement
          cases SerdeSlice.toVec (signedRecord sk deltaId) <;> rfl
  | readObject key offset length => rfl
  | listObjects ext => rfl
  | fetchEndorsements deltaId => rfl
  | checkDelta deltaId => rfl

end TrustAdapter

end

/-! ## Runs -/

section

variable [CipherCrates] [SerdeSlice EncryptedBlob]

/-- What the key opens among these bytes is a ciphertext of one of the
plaintexts. -/
def Genuine (key : FixedBytes 32) (plaintexts : List Bytes) (bytes : Bytes) : Prop :=
  ∀ (blob : EncryptedBlob) (nonce : FixedBytes 12), SerdeSlice.fromSlice bytes = .ok blob →
    blob.nonce = nonce.val → (CipherCrates.aes256GcmDecrypt key nonce blob.data).isSome →
    ∃ plaintext ∈ plaintexts, nonce = EncryptionAdapter.deriveNonce plaintext ∧
      CipherCrates.aes256GcmEncrypt key nonce plaintext = some blob.data

theorem Genuine.mono {key : FixedBytes 32} {plaintexts plaintexts' : List Bytes} {bytes : Bytes}
    (h : Genuine key plaintexts bytes) (hsubset : plaintexts ⊆ plaintexts') :
    Genuine key plaintexts' bytes := by
  intro blob nonce hblob hnonce hopens
  obtain ⟨plaintext, hmem, hderived, hencrypt⟩ := h blob nonce hblob hnonce hopens
  exact ⟨plaintext, hsubset hmem, hderived, hencrypt⟩

section

variable {A : Type} {e : EncryptionAdapter A}

/-- What `encrypt` returns is genuine. -/
theorem genuine_of_encrypt (hserde : SerdeSliceLaw EncryptedBlob) {plaintext enc : Bytes}
    (h : e.encrypt plaintext = .ok enc) {plaintexts : List Bytes} (hmem : plaintext ∈ plaintexts) :
    Genuine e.key plaintexts enc := by
  obtain ⟨ciphertext, hencrypt, hvec⟩ := EncryptionAdapter.encrypt_eq_ok_iff.mp h
  obtain ⟨enc', hvec', hparse⟩ := hserde
    ⟨"aes-256-gcm", (EncryptionAdapter.deriveNonce plaintext).val, ciphertext⟩
  have henc : enc = enc' := Except.ok.inj (hvec.symm.trans hvec')
  intro blob nonce hblob hnonce _
  rw [henc, hparse] at hblob
  rw [← Except.ok.inj hblob] at hnonce ⊢
  have hderived : nonce = EncryptionAdapter.deriveNonce plaintext := Subtype.ext hnonce.symm
  rw [hderived]
  exact ⟨plaintext, hmem, rfl, hencrypt⟩

/-- Genuine bytes open to one of the plaintexts. -/
theorem Genuine.mem_of_opens (hcipher : CipherLaw) {plaintexts : List Bytes} {enc plaintext : Bytes}
    (h : Genuine e.key plaintexts enc) (hopens : e.Opens enc plaintext) :
    plaintext ∈ plaintexts := by
  obtain ⟨blob, nonce, hblob, -, hnonce, hdecrypt⟩ := hopens
  obtain ⟨plaintext', hmem, -, hencrypt⟩ := h blob nonce hblob hnonce (by rw [hdecrypt]; rfl)
  obtain ⟨ciphertext, hencrypt', hdecrypt'⟩ := hcipher e.key nonce plaintext'
  have hsame : blob.data = ciphertext := Option.some.inj (hencrypt.symm.trans hencrypt')
  rw [hsame, hdecrypt'] at hdecrypt
  rw [← Option.some.inj hdecrypt]
  exact hmem

end

/-- The shared store, and the plaintexts that the nodes have encrypted. -/
structure SealedState (M : Type) where
  store : M
  plaintexts : List Bytes

variable {M : Type} [MapAdapter M] (key : FixedBytes 32)

/-- A step of the adversary. -/
inductive Tamper : SealedState M → SealedState M → Prop where
  | write {s : SealedState M} (store : M) (name : String) (content : Option Bytes) :
    MapAdapter.objects store = Function.update (MapAdapter.objects s.store) name content →
    (∀ bytes ∈ content, Genuine key s.plaintexts bytes) →
    Tamper s ⟨store, s.plaintexts⟩

variable [Crates] [SerdeSlice EndorsementRecord]

/-- One step: a call of a node, or a step of the adversary. -/
inductive SealedStep : SealedState M → SealedState M → Prop where
  | call {s : SealedState M} (t : TrustAdapter (EncryptionAdapter M)) (request : Request) :
    t.inner = ⟨s.store, key⟩ →
    SealedStep s ⟨(t.call request).2.inner.inner,
      ((t.writeOf request).map Prod.snd).toList ++ s.plaintexts⟩
  | tamper {s s' : SealedState M} : Tamper key s s' → SealedStep s s'

omit [Crates] [SerdeSlice EndorsementRecord] in
/-- Every object of the store is genuine. -/
def AllGenuine (s : SealedState M) : Prop :=
  ∀ name bytes, MapAdapter.objects s.store name = some bytes → Genuine key s.plaintexts bytes

variable {key}

section

variable {s s' : SealedState M}

omit [Crates] [SerdeSlice EndorsementRecord] in
/-- A further genuine object keeps the store genuine. -/
theorem AllGenuine.update (h : AllGenuine key s) {store : M} {plaintexts : List Bytes}
    (hsubset : s.plaintexts ⊆ plaintexts) {name : String} {content : Option Bytes}
    (hwrite : MapAdapter.objects store
      = Function.update (MapAdapter.objects s.store) name content)
    (hcontent : ∀ bytes ∈ content, Genuine key plaintexts bytes) :
    AllGenuine key ⟨store, plaintexts⟩ := by
  intro name' bytes hobj
  rw [hwrite] at hobj
  by_cases hname : name' = name
  · rw [hname, Function.update_self] at hobj
    exact hcontent bytes hobj
  · rw [Function.update_of_ne hname] at hobj
    exact (h name' bytes hobj).mono hsubset

omit [Crates] [SerdeSlice EndorsementRecord] in
theorem AllGenuine.tamper (h : AllGenuine key s) (hstep : Tamper key s s') :
    AllGenuine key s' := by
  cases hstep with
  | write store name content hwrite hcontent =>
    exact h.update (List.Subset.refl _) hwrite hcontent

/-- What a node writes is genuine, since the node encrypts it. -/
theorem AllGenuine.step (hserde : SerdeSliceLaw EncryptedBlob) (h : AllGenuine key s)
    (hstep : SealedStep key s s') : AllGenuine key s' := by
  cases hstep with
  | tamper htamper => exact h.tamper htamper
  | call t request hinner =>
    rw [t.call_snd, hinner]
    cases t.writeOf request with
    | none => exact h
    | some write =>
      obtain ⟨name, data⟩ := write
      have hmem : data ∈ ((some (name, data)).map Prod.snd).toList ++ s.plaintexts :=
        List.mem_cons_self
      have hsubset := List.subset_append_right
        ((some (name, data)).map Prod.snd).toList s.plaintexts
      show AllGenuine key ⟨((EncryptionAdapter.mk s.store key).writeObject name data).2.inner, _⟩
      unfold EncryptionAdapter.writeObject
      cases henc : (EncryptionAdapter.mk s.store key).encrypt data with
      | panic => exact fun name' bytes hobj => (h name' bytes hobj).mono hsubset
      | err e => exact fun name' bytes hobj => (h name' bytes hobj).mono hsubset
      | ok enc =>
        refine h.update hsubset (MapAdapter.objects_writeObject s.store name enc) ?_
        intro bytes hbytes
        rw [← Option.mem_some_iff.mp hbytes]
        exact genuine_of_encrypt hserde henc hmem

/-- No run brings an object into the store that is not genuine. -/
theorem AllGenuine.run (hserde : SerdeSliceLaw EncryptedBlob) (h : AllGenuine key s)
    (hrun : Relation.ReflTransGen (SealedStep key) s s') : AllGenuine key s' := by
  induction hrun with
  | refl => exact h
  | tail _ hstep ih => exact ih.step hserde hstep

omit [Crates] [SerdeSlice EndorsementRecord] in
/-- The adversary encrypts nothing. -/
theorem plaintexts_of_tamper (hrun : Relation.ReflTransGen (Tamper key) s s') :
    s'.plaintexts = s.plaintexts := by
  induction hrun with
  | refl => rfl
  | tail _ hstep ih =>
    cases hstep with
    | write store name content hwrite hcontent => exact ih

/-- A call leaves the encryption key alone. -/
theorem inner_key_call (t : TrustAdapter (EncryptionAdapter M)) (request : Request) :
    (t.call request).2.inner.key = t.inner.key := by
  rw [t.call_snd]
  cases t.writeOf request with
  | none => rfl
  | some write =>
    show (t.inner.writeObject write.1 write.2).2.key = t.inner.key
    unfold EncryptionAdapter.writeObject
    cases t.inner.encrypt write.2 <;> rfl

/-- The calls of one node are a run. -/
theorem exists_run_of_calls (requests : List Request) {t : TrustAdapter (EncryptionAdapter M)}
    (hinner : t.inner = ⟨s.store, key⟩) :
    ∃ s', Relation.ReflTransGen (SealedStep key) s s' ∧
      (requests.foldl (fun t request => (t.call request).2) t).inner = ⟨s'.store, key⟩ := by
  induction requests generalizing t s with
  | nil => exact ⟨s, Relation.ReflTransGen.refl, hinner⟩
  | cons request requests ih =>
    have hstep := SealedStep.call t request hinner
    have hkey : (t.call request).2.inner.key = key := by
      rw [inner_key_call, hinner]
    have hnext : (t.call request).2.inner = ⟨(t.call request).2.inner.inner, key⟩ := by
      rw [← hkey]
    obtain ⟨s', hrun, hlast⟩ := ih (s := ⟨(t.call request).2.inner.inner,
      ((t.writeOf request).map Prod.snd).toList ++ s.plaintexts⟩) hnext
    exact ⟨s', Relation.ReflTransGen.head hstep hrun, hlast⟩

end

/-! ## Reads of the encryption adapter -/

/-- The part of a plaintext that a read returns. -/
def readPart (plaintext : Bytes) (offset length : UInt64) : Result Bytes :=
  if offset == 0 && length == 0 then .ok plaintext
  else sliceOrErr "invalid slice" plaintext offset length

omit [SerdeSlice EndorsementRecord] in
/-- A read opens the stored bytes and takes the part. -/
theorem EncryptionAdapter.readObject_eq_ok_iff {e : EncryptionAdapter M} {name : String}
    {offset length : UInt64} {out : Bytes} :
    e.readObject name offset length = .ok out ↔
      ∃ enc plaintext, MapAdapter.objects e.inner name = some enc ∧ e.Opens enc plaintext ∧
        readPart plaintext offset length = .ok out := by
  unfold EncryptionAdapter.readObject
  simp only [Outcome.bind_eq_ok_iff, MapAdapter.readObject_eq_ok_iff, decrypt_eq_ok_iff]
  constructor
  · intro ⟨enc, henc, plaintext, hopens, hpart⟩
    exact ⟨enc, plaintext, henc, hopens, hpart⟩
  · intro ⟨enc, plaintext, henc, hopens, hpart⟩
    exact ⟨enc, henc, plaintext, hopens, hpart⟩

omit [SerdeSlice EndorsementRecord] in
/-- From a genuine store, a node reads what a node has encrypted. -/
theorem AllGenuine.mem_of_readObject (hcipher : CipherLaw) {s : SealedState M}
    (h : AllGenuine key s) {name : String} {offset length : UInt64} {out : Bytes}
    (hread : (EncryptionAdapter.mk s.store key).readObject name offset length = .ok out) :
    ∃ plaintext ∈ s.plaintexts, readPart plaintext offset length = .ok out := by
  obtain ⟨enc, plaintext, hobj, hopens, hpart⟩ := EncryptionAdapter.readObject_eq_ok_iff.mp hread
  exact ⟨plaintext, (h name enc hobj).mem_of_opens hcipher hopens, hpart⟩

/-- In every reachable state, the adversary can make a node read, as any part
of an object of any name, exactly the parts of what nodes have encrypted. -/
theorem exists_readObject_iff (hcipher : CipherLaw) (hserde : SerdeSliceLaw EncryptedBlob)
    {s₀ s : SealedState M} (hgenuine : AllGenuine key s₀)
    (hrun : Relation.ReflTransGen (SealedStep key) s₀ s) (name : String)
    (offset length : UInt64) (out : Bytes) :
    (∃ s', Relation.ReflTransGen (Tamper key) s s' ∧
        (EncryptionAdapter.mk s'.store key).readObject name offset length = .ok out) ↔
      ∃ plaintext ∈ s.plaintexts, readPart plaintext offset length = .ok out := by
  have hreached := hgenuine.run hserde hrun
  constructor
  · intro ⟨s', htamper, hread⟩
    have hrun' : Relation.ReflTransGen (SealedStep key) s s' :=
      Relation.ReflTransGen.mono (fun _ _ hstep => .tamper hstep) _ _ htamper
    rw [← plaintexts_of_tamper htamper]
    exact (hreached.run hserde hrun').mem_of_readObject hcipher hread
  · intro ⟨plaintext, hmem, hpart⟩
    -- The adversary copies the ciphertext to the name.
    let e := EncryptionAdapter.mk s.store key
    obtain ⟨hencrypt, hdecrypt⟩ := e.encrypt_eq hcipher hserde plaintext
    have hwrite := MapAdapter.objects_writeObject s.store name (e.sealed plaintext)
    refine ⟨⟨(Adapter.writeObject s.store name (e.sealed plaintext)).2, s.plaintexts⟩, ?_, ?_⟩
    · apply Relation.ReflTransGen.single
      refine Tamper.write _ name (some (e.sealed plaintext)) hwrite fun bytes hbytes => ?_
      rw [← Option.mem_some_iff.mp hbytes]
      exact genuine_of_encrypt hserde hencrypt hmem
    · refine EncryptionAdapter.readObject_eq_ok_iff.mpr
        ⟨e.sealed plaintext, plaintext, ?_, ?_, hpart⟩
      · rw [hwrite, Function.update_self]
      · exact EncryptionAdapter.decrypt_eq_ok_iff.mp hdecrypt

end

section

open Reference

/-- The encrypted store of the examples. -/
def sealedStore (store : MemoryMap) : EncryptionAdapter MemoryMap :=
  ⟨store, sampleKey 7⟩

/-- An empty store, before the first call. -/
def sealedStart : SealedState MemoryMap := ⟨MemoryMap.new, []⟩

theorem allGenuine_sealedStart : AllGenuine (sampleKey 7) sealedStart :=
  fun _ _ hobj => by cases hobj

/-- A node writes the sample delta, and the adversary copies it to another
name. -/
theorem exists_readObject_iff_sample : ∃ s s' : SealedState MemoryMap,
    Relation.ReflTransGen (SealedStep (sampleKey 7)) sealedStart s ∧
      Relation.ReflTransGen (Tamper (sampleKey 7)) s s' ∧
      (sealedStore s'.store).readObject "b" 0 0 = .ok sampleData := by
  have hstep : SealedStep (sampleKey 7) sealedStart _ :=
    .call (emptyNode.withInner (sealedStore MemoryMap.new)) (.writeObject "a" sampleData) rfl
  have hrun := Relation.ReflTransGen.single hstep
  obtain ⟨s', htamper, hread⟩ := (exists_readObject_iff cipherLaw serdeSliceLaw_encryptedBlob
    allGenuine_sealedStart hrun "b" 0 0 sampleData).mpr ⟨sampleData, List.mem_cons_self, rfl⟩
  exact ⟨_, s', hrun, htamper, hread⟩

end

/-! ## Reads of the trust adapter -/

section

variable [Crates] [CipherCrates] [SerdeSlice EncryptedBlob] [SerdeSlice EndorsementRecord]
  {M : Type} [MapAdapter M] {key : FixedBytes 32}

omit [CipherCrates] [SerdeSlice EncryptedBlob] [MapAdapter M] in
/-- The bytes are a version-1 Ed25519 record with a signature of the key on the
digest. -/
def Certifies (bytes : Bytes) (deltaId : DeltaId) (vk : VerifyingKey) : Prop :=
  ∃ (endorsement : EndorsementRecord) (sig : Signature),
    SerdeSlice.fromSlice bytes = .ok endorsement ∧ endorsement.version = 1 ∧
      endorsement.algorithm = "Ed25519" ∧
      Crates.base64Decode endorsement.signature = .ok sig.val ∧
      vk.verify (asBytes deltaId.digest) sig = true

open Classical in
/-- The trusted keys with an endorsement that a node has encrypted, and that
the policy allows on the delta. -/
noncomputable def TrustAdapter.encryptedVoters {A : Type} (t : TrustAdapter A)
    (plaintexts : List Bytes) (deltaId : DeltaId) (data : Bytes) : Finset VerifyingKey :=
  t.keystore.trustedKeys.filter fun vk =>
    (∃ bytes ∈ plaintexts, Certifies bytes deltaId vk) ∧ t.Authorises data vk

/-- Every authorised endorser has an endorsement that a node has encrypted. -/
theorem AllGenuine.authorisedEndorsers_subset (hcipher : CipherLaw) {s : SealedState M}
    (h : AllGenuine key s) {t : TrustAdapter (EncryptionAdapter M)}
    (hreader : t.inner = ⟨s.store, key⟩) (deltaId : DeltaId) (data : Bytes) :
    t.authorisedEndorsers deltaId data ⊆ t.encryptedVoters s.plaintexts deltaId data := by
  classical
  intro vk hvk
  rw [TrustAdapter.mem_authorisedEndorsers, hreader] at hvk
  obtain ⟨htrusted, ⟨name, -, -, sig, hsig, hverify⟩, hauthorises⟩ := hvk
  obtain ⟨bytes, hread, endorsement, hparse, hversion, halgorithm, hdecode⟩ := hsig
  obtain ⟨plaintext, hmem, hpart⟩ := h.mem_of_readObject hcipher hread
  have hwhole : plaintext = bytes := Outcome.ok.inj hpart
  rw [hwhole] at hmem
  rw [TrustAdapter.encryptedVoters, Finset.mem_filter]
  exact ⟨htrusted, ⟨bytes, hmem, endorsement, sig, hparse, hversion, halgorithm, hdecode, hverify⟩,
    hauthorises⟩

/-- When a node reads a gated delta in a reachable state, a node has encrypted
it, and enough authorised trusted keys have an endorsement that a node has
encrypted. -/
theorem encrypted_of_readObject (hcipher : CipherLaw) (hserde : SerdeSliceLaw EncryptedBlob)
    {s₀ s : SealedState M} (hgenuine : AllGenuine key s₀)
    (hrun : Relation.ReflTransGen (SealedStep key) s₀ s) (t : TrustAdapter (EncryptionAdapter M))
    (hreader : t.inner = ⟨s.store, key⟩) {name : String}
    (hname : endsWith name ".delta" = true) {deltaId : DeltaId}
    (hid : DeltaId.fromStr name = .ok deltaId) (hgated : t.Gated deltaId) {data : Bytes}
    (hread : t.readObject name 0 0 = .ok data) :
    data ∈ s.plaintexts ∧
      t.endorsementMode.rule (t.encryptedVoters s.plaintexts deltaId data).card
        t.keystore.trustedKeyCount := by
  classical
  have hreached := hgenuine.run hserde hrun
  constructor
  · obtain ⟨hinner, -⟩ := (TrustAdapter.readObject_of_fromStr hname hid).mp hread
    rw [hreader] at hinner
    obtain ⟨plaintext, hmem, hpart⟩ := hreached.mem_of_readObject hcipher hinner
    have hwhole : plaintext = data := Outcome.ok.inj hpart
    rw [← hwhole]
    exact hmem
  · have hsubset := hreached.authorisedEndorsers_subset hcipher hreader deltaId data
    have hcard : (t.encryptedVoters s.plaintexts deltaId data).card ≤ t.keystore.trustedKeyCount :=
      Finset.card_le_card (Finset.filter_subset _ _)
    exact t.endorsementMode.rule_monotone (Finset.card_le_card hsubset) hcard
      (TrustAdapter.rule_of_readObject hname hid hgated hread)

end

section

open Reference

/-- A node that trusts its own key, over a store without encryption. -/
def plainNode (store : MemoryMap) : TrustAdapter MemoryMap :=
  ⟨store, ⟨some (sampleKey 1), {(sampleKey 1).verifyingKey}, ∅⟩, DeltaFilter.new,
    ⟨allowAll.rules, false⟩, .majority⟩

/-- It writes a delta and endorses it. -/
def publishing : List Request :=
  [.writeObject (sampleDelta 1).key sampleData, .endorse (sampleDelta 1)]

theorem call_writeObject_plainNode (store : MemoryMap) (key : String) (data : Bytes) :
    ((plainNode store).call (.writeObject key data)).2
      = plainNode (Adapter.writeObject store key data).2 := rfl

/-- Then it reads the delta. -/
theorem readObject_plainNode :
    (publishing.foldl (fun t request => (t.call request).2)
      (plainNode MemoryMap.new)).readObject (sampleDelta 1).key 0 0 = .ok sampleData := by
  obtain ⟨store, hstore⟩ : ∃ store : MemoryMap,
      store = (Adapter.writeObject MemoryMap.new (sampleDelta 1).key sampleData).2 := ⟨_, rfl⟩
  have hobjects : MapAdapter.objects store = Function.update (fun _ => none)
      (sampleDelta 1).key (some sampleData) := by
    rw [hstore]
    exact MapAdapter.objects_writeObject _ _ _
  have hnone : ∀ name bytes, MapAdapter.objects store name = some bytes →
      endsWith name ".sig" = false := by
    intro name bytes hobj
    by_cases hname : name = (sampleDelta 1).key
    · rw [hname]
      exact endsWith_sig_of_delta (endsWith_key _)
    · rw [hobjects, Function.update_of_ne hname] at hobj
      cases hobj
  have hsigned := (EndorsedExactly.empty hnone).endorse deltaIdLaws digitLaw signatureLaw
    base64Law serdeSliceLaw (t := plainNode store) rfl rfl (isLowerHex_sampleDelta 1)
  have hobject : MapAdapter.objects ((plainNode store).endorse (sampleDelta 1)).2
      (sampleDelta 1).key = some sampleData := by
    rw [objects_endorse_of_not_sig serdeSliceLaw _ _ (endsWith_sig_of_delta (endsWith_key _))]
    show MapAdapter.objects store _ = _
    rw [hobjects, Function.update_self]
  show (((plainNode MemoryMap.new).call (.writeObject (sampleDelta 1).key sampleData)).2.call
    (.endorse (sampleDelta 1))).2.readObject (sampleDelta 1).key 0 0 = _
  rw [call_writeObject_plainNode, ← hstore]
  rw [TrustAdapter.readObject_of_fromStr (endsWith_key _) (fromKeyLaw _)]
  have hkeys : 0 < ({(sampleKey 1).verifyingKey} : Finset VerifyingKey).card := by decide
  refine ⟨MapAdapter.readObject_some hobject, ?_⟩
  refine hsigned.admits_of_all_signed deltaIdLaws digitLaw signatureLaw base64Law serdeSliceLaw
    rfl rfl hkeys fun vk hvk => ⟨⟨sampleKey 1, Or.inr ⟨rfl, rfl⟩, ?_⟩, ?_⟩
  · exact (Finset.mem_singleton.mp hvk).symm
  · exact fun objectId _ => allows_allowAll _ _ objectId

/-- The node publishes the delta through the encryption, and what it reads was
encrypted. -/
theorem encrypted_of_readObject_sample : ∃ s : SealedState MemoryMap,
    ((plainNode MemoryMap.new).withInner (sealedStore s.store)).readObject
        (sampleDelta 1).key 0 0 = .ok sampleData ∧
      sampleData ∈ s.plaintexts := by
  obtain ⟨s, hrun, hinner⟩ := exists_run_of_calls (s := sealedStart) publishing
    (t := (plainNode MemoryMap.new).withInner (sealedStore MemoryMap.new)) rfl
  have hsame : SameConfiguration MemoryMap.new (plainNode MemoryMap.new)
      ((plainNode MemoryMap.new).withInner (sealedStore MemoryMap.new)) :=
    ⟨_, rfl, [], rfl, rfl⟩
  have hlist := listsByName_memoryAdapter MemoryMap.new
  obtain ⟨-, hwritten⟩ := hsame.call cipherLaw serdeSliceLaw_encryptedBlob (fun _ => rfl) hlist
    (.writeObject (sampleDelta 1).key sampleData)
  obtain ⟨-, e, hnode, hmirrors⟩ := hwritten.call cipherLaw serdeSliceLaw_encryptedBlob
    (fun _ => rfl) hlist (.endorse (sampleDelta 1))
  have he : e = sealedStore s.store := by
    have hinner' := congrArg TrustAdapter.inner hnode
    exact hinner'.symm.trans hinner
  -- The node reads the same through the encryption as without it.
  have hlook := hmirrors.lookAlike cipherLaw serdeSliceLaw_encryptedBlob (fun _ => rfl) hlist
  have hagree := TrustAdapter.readObject_agree hlook (sampleDelta 1).key 0 0
  rw [he] at hagree
  have hread : ((plainNode MemoryMap.new).withInner (sealedStore s.store)).readObject
      (sampleDelta 1).key 0 0 = .ok sampleData :=
    Outcome.Agree.eq_ok hagree readObject_plainNode
  have hmode : EndorsementMode.majority ≠ .permissive := by decide
  exact ⟨s, hread, (encrypted_of_readObject cipherLaw serdeSliceLaw_encryptedBlob
    allGenuine_sealedStart hrun _ rfl (endsWith_key _) (fromKeyLaw _)
    ⟨rfl, rfl, hmode⟩ hread).1⟩

end

end MeldaSec
