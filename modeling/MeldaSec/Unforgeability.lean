import MeldaSec.Reference
import Mathlib.Logic.Relation

/-!
# Forged and replayed endorsements

A run has two kinds of steps.  A holder of an honest key calls `endorse`, and
an adversary writes or deletes one object.  The adversary may write any bytes
but a record with a signature of an honest key on a message that this key has
not signed, so it may copy records to other names.

The signature covers the digest of the delta, and the index stands in the
file name only.  An endorsement therefore binds the key to the digest
(`exists_call_of_mem_valid`), and a copied record counts for another index
with that digest.
-/

namespace MeldaSec

open Rust

section

variable [Crates] {M : Type} [MapAdapter M] [SerdeSlice EndorsementRecord]

/-- A call of `endorse`. -/
structure Call where
  signer : VerifyingKey
  deltaId : DeltaId

/-- The shared store, and the calls that holders of honest keys have made. -/
structure RunState (M : Type) where
  store : M
  calls : List Call

/-- The key has signed the message in one of the calls. -/
def Signed (calls : List Call) (vk : VerifyingKey) (message : Bytes) : Prop :=
  ∃ call ∈ calls, call.signer = vk ∧ asBytes call.deltaId.digest = message

variable (honest : Set VerifyingKey) (messages : Set Bytes)

/-- Bytes that can be written after these calls: a record with a signature of
an honest key is on a message that the key has signed. -/
def Producible (calls : List Call) (bytes : Bytes) : Prop :=
  ∀ (endorsement : EndorsementRecord) (sig : Signature), ∀ vk ∈ honest, ∀ message ∈ messages,
    SerdeSlice.fromSlice bytes = .ok endorsement →
    Crates.base64Decode endorsement.signature = .ok sig.val →
    vk.verify message sig = true → Signed calls vk message

omit [SerdeSlice EndorsementRecord] in
/-- Among the honest keys and the messages of the run, a signature verifies
for the key and the message that it was made for, and for no others. -/
def Binding : Prop :=
  ∀ sk : SigningKey, sk.verifyingKey ∈ honest → ∀ vk ∈ honest, ∀ message ∈ messages,
    ∀ message' ∈ messages, vk.verify message' (sk.sign message) = true →
      sk.verifyingKey = vk ∧ message = message'

/-- One step: a holder of an honest key endorses a delta with an adapter over
the store, or the adversary writes or deletes an object. -/
inductive Step : RunState M → RunState M → Prop where
  | endorse {s : RunState M} (t : TrustAdapter M) (sk : SigningKey) (deltaId : DeltaId) :
    t.inner = s.store → t.keystore.endorsementKey = some sk → sk.verifyingKey ∈ honest →
    asBytes deltaId.digest ∈ messages →
    Step s ⟨(t.endorse deltaId).2, ⟨sk.verifyingKey, deltaId⟩ :: s.calls⟩
  | adversary {s : RunState M} (store : M) (name : String) (content : Option Bytes) :
    MapAdapter.objects store = Function.update (MapAdapter.objects s.store) name content →
    (∀ bytes ∈ content, Producible honest messages s.calls bytes) →
    Step s ⟨store, s.calls⟩

/-- Every object of the store can have been written after the calls. -/
def Unforged (s : RunState M) : Prop :=
  ∀ name bytes, MapAdapter.objects s.store name = some bytes →
    Producible honest messages s.calls bytes

/-- A state before the first call, without a forged record. -/
structure Fresh (s : RunState M) : Prop where
  calls : s.calls = []
  unforged : Unforged honest messages s

variable {honest messages}

/-- The adversary writes what can be written. -/
theorem exists_adversaryStep (s : RunState M) (name : String) {bytes : Bytes}
    (hbytes : Producible honest messages s.calls bytes) :
    ∃ s', Step honest messages s s' ∧ s'.calls = s.calls ∧
      MapAdapter.objects s'.store
        = Function.update (MapAdapter.objects s.store) name (some bytes) := by
  have hwrite := MapAdapter.objects_writeObject s.store name bytes
  refine ⟨⟨(Adapter.writeObject s.store name bytes).2, s.calls⟩, ?_, rfl, hwrite⟩
  apply Step.adversary _ name (some bytes) hwrite
  intro content hcontent
  rw [← Option.some.inj hcontent]
  exact hbytes

theorem Producible.cons {calls : List Call} {bytes : Bytes}
    (h : Producible honest messages calls bytes) (call : Call) :
    Producible honest messages (call :: calls) bytes := by
  intro endorsement sig vk hvk message hmessage hparse hdecode hverify
  obtain ⟨call', hcall', hsigned⟩ :=
    h endorsement sig vk hvk message hmessage hparse hdecode hverify
  exact ⟨call', List.mem_cons_of_mem _ hcall', hsigned⟩

/-- The record of a call can be written after the call. -/
theorem producible_signedRecord (hbase64 : Base64Law) (hserde : SerdeSliceLaw EndorsementRecord)
    (hbinding : Binding honest messages) {sk : SigningKey} (hsk : sk.verifyingKey ∈ honest)
    {deltaId : DeltaId} (hdigest : asBytes deltaId.digest ∈ messages) {bytes : Bytes}
    (hbytes : SerdeSlice.toVec (TrustAdapter.signedRecord sk deltaId) = .ok bytes)
    (calls : List Call) :
    Producible honest messages (⟨sk.verifyingKey, deltaId⟩ :: calls) bytes := by
  intro endorsement sig vk hvk message hmessage hparse hdecode hverify
  obtain ⟨bytes', hbytes', hparse'⟩ := hserde (TrustAdapter.signedRecord sk deltaId)
  obtain rfl := Except.ok.inj (hbytes.symm.trans hbytes')
  obtain rfl := Except.ok.inj (hparse'.symm.trans hparse)
  obtain rfl := Subtype.ext (Except.ok.inj ((hbase64 _).symm.trans hdecode))
  exact ⟨_, List.mem_cons_self, hbinding sk hsk vk hvk _ hdigest message hmessage hverify⟩

/-- No step forges a record. -/
theorem Unforged.step (hbase64 : Base64Law) (hserde : SerdeSliceLaw EndorsementRecord)
    (hbinding : Binding honest messages) {s s' : RunState M}
    (h : Unforged honest messages s) (hstep : Step honest messages s s') :
    Unforged honest messages s' := by
  cases hstep with
  | endorse t sk deltaId hstore hsk hhonest hdigest =>
    intro name bytes hobj
    rcases t.endorse_cases hserde deltaId with hsame | ⟨sk', bytes', hsk', hbytes', hwrite⟩
    · rw [hsame, hstore] at hobj
      exact (h name bytes hobj).cons _
    · obtain rfl := Option.some.inj (hsk.symm.trans hsk')
      rw [hwrite, hstore] at hobj
      by_cases hname : name = (TrustAdapter.ownEndorsementKey sk deltaId).fileName
      · subst hname
        rw [Function.update_self] at hobj
        obtain rfl := Option.some.inj hobj
        exact producible_signedRecord hbase64 hserde hbinding hhonest hdigest hbytes' _
      · rw [Function.update_of_ne hname] at hobj
        exact (h name bytes hobj).cons _
  | adversary store name content hwrite hcontent =>
    intro name' bytes hobj
    rw [hwrite] at hobj
    by_cases hname : name' = name
    · subst hname
      rw [Function.update_self] at hobj
      exact hcontent bytes hobj
    · rw [Function.update_of_ne hname] at hobj
      exact h name' bytes hobj

/-- No run forges a record. -/
theorem Unforged.run (hbase64 : Base64Law) (hserde : SerdeSliceLaw EndorsementRecord)
    (hbinding : Binding honest messages) {s₀ s : RunState M} (h : Unforged honest messages s₀)
    (hrun : Relation.ReflTransGen (Step honest messages) s₀ s) :
    Unforged honest messages s := by
  induction hrun with
  | refl => exact h
  | tail _ hstep ih => exact ih.step hbase64 hserde hbinding hstep

omit [Crates] [MapAdapter M] [SerdeSlice EndorsementRecord] in
theorem asBytes_injective {s s' : String} (h : asBytes s = asBytes s') : s = s' := by
  rw [asBytes, asBytes, Array.toList_inj] at h
  exact String.toByteArray_inj.mp (ByteArray.ext h)

/-- In every reachable state, the key of an honest holder counts as a valid
endorser of a delta only after the holder endorsed a delta with its digest. -/
theorem exists_call_of_mem_valid (hbase64 : Base64Law)
    (hserde : SerdeSliceLaw EndorsementRecord) (hbinding : Binding honest messages)
    {s₀ s : RunState M} (hfresh : Fresh honest messages s₀)
    (hrun : Relation.ReflTransGen (Step honest messages) s₀ s) (t : TrustAdapter M)
    (hreader : t.inner = s.store) {deltaId : DeltaId}
    (hdigest : asBytes deltaId.digest ∈ messages) {result : EndorsementFetchResult}
    (hfetch : t.fetchEndorsements deltaId = .ok result) {vk : VerifyingKey} (hvk : vk ∈ honest)
    (hvalid : vk.toBytes ∈ result.valid) :
    ∃ call ∈ s.calls, call.signer = vk ∧ call.deltaId.digest = deltaId.digest := by
  obtain ⟨vk', -, hvk', name, -, -, sig, hsig, hverify⟩ := (mem_valid_iff hfetch).mp hvalid
  obtain rfl := VerifyingKey.toBytes_injective hvk'
  obtain ⟨bytes, hread, endorsement, hparse, -, -, hdecode⟩ := hsig
  rw [hreader, MapAdapter.readObject_eq_ok_iff] at hread
  obtain ⟨call, hcall, hsigner, hmessage⟩ :=
    hfresh.unforged.run hbase64 hserde hbinding hrun _ bytes hread endorsement sig vk' hvk _ hdigest
      hparse hdecode hverify
  exact ⟨call, hcall, hsigner, asBytes_injective hmessage⟩

end

section

open Reference

/-- The two honest keys of the examples. -/
def replayHonest : Set VerifyingKey := {(sampleKey 1).verifyingKey, (sampleKey 3).verifyingKey}

theorem sampleKey_mem : (sampleKey 1).verifyingKey ∈ replayHonest := Or.inl rfl

theorem otherKey_mem : (sampleKey 3).verifyingKey ∈ replayHonest := Or.inr rfl

/-- `1-bb`, in conflict with the sample delta `1-aa`. -/
def rivalDelta : DeltaId :=
  (⟨1, ['b', 'b'], by simp, fun c hc => by
    have hb : c = 'b' := by rcases List.mem_pair.mp hc with h | h <;> exact h
    rw [hb]
    rfl⟩ : Id)

theorem digest_rivalDelta : rivalDelta.digest = String.ofList ['b', 'b'] := rfl

theorem digest_sampleDelta (index : Nat) :
    (sampleDelta index).digest = String.ofList ['a', 'a'] := rfl

theorem isLowerHex_rivalDelta : IsLowerHex rivalDelta.digest := by
  have hchars : rivalDelta.digest.toList = ['b', 'b'] := String.toList_ofList
  rw [IsLowerHex, hchars]
  refine ⟨by simp, fun c hc => ?_⟩
  have hb : c = 'b' := by rcases List.mem_pair.mp hc with h | h <;> exact h
  rw [hb]
  rfl

/-- The digests of the deltas. -/
def replayMessages : Set Bytes := {asBytes (sampleDelta 1).digest, asBytes rivalDelta.digest}

theorem asBytes_digest_mem (index : Nat) :
    asBytes (sampleDelta index).digest ∈ replayMessages := Or.inl rfl

theorem asBytes_rival_mem : asBytes rivalDelta.digest ∈ replayMessages := Or.inr rfl

/-- A stand-in signature verifies for the key that made it, and for the
messages with the same first bytes. -/
theorem eq_of_verify {vk : VerifyingKey} {sk : SigningKey} {message message' : Bytes}
    (h : vk.verify message' (sk.sign message) = true) :
    sk.verifyingKey = vk ∧ pad message = pad message' := by
  have hsign : sign sk message = sign vk.val message' := of_decide_eq_true h
  have hval : sk.val ++ pad message = vk.val.val ++ pad message' := congrArg Subtype.val hsign
  have hlength : sk.val.length = vk.val.val.length := by
    rw [sk.property, vk.val.property]
  obtain ⟨hkey, hpad⟩ := List.append_inj hval hlength
  exact ⟨Subtype.ext (Subtype.ext hkey), hpad⟩

theorem pad_digests_ne :
    pad (asBytes (sampleDelta 1).digest) ≠ pad (asBytes rivalDelta.digest) := by
  rw [digest_sampleDelta, digest_rivalDelta]
  decide

/-- A signature verifies for one of the messages only. -/
theorem eq_of_verify_of_mem {vk : VerifyingKey} {sk : SigningKey} {message message' : Bytes}
    (hmessage : message ∈ replayMessages) (hmessage' : message' ∈ replayMessages)
    (h : vk.verify message' (sk.sign message) = true) :
    sk.verifyingKey = vk ∧ message = message' := by
  obtain ⟨hkey, hpad⟩ := eq_of_verify h
  refine ⟨hkey, ?_⟩
  rcases hmessage with h | h <;> rcases hmessage' with h' | h' <;> rw [h, h'] at hpad ⊢
  · exact absurd hpad pad_digests_ne
  · exact absurd hpad.symm pad_digests_ne

theorem binding_replay : Binding replayHonest replayMessages :=
  fun _ _ _ _ _ hmessage _ hmessage' => eq_of_verify_of_mem hmessage hmessage'

/-- The adapter of the holder of a key over a store. -/
def honestSigner (sk : SigningKey) (store : MemoryMap) : TrustAdapter MemoryMap :=
  { sampleAdapter .single ∅ store with keystore := ⟨some sk, ∅, ∅⟩ }

/-- A step of a holder, from a state whose endorsements are known. -/
theorem exists_honestStep {s : RunState MemoryMap} {signed : SigningKey → DeltaId → Prop}
    (hexactly : EndorsedExactly s.store signed) (sk : SigningKey)
    (hsk : sk.verifyingKey ∈ replayHonest) {deltaId : DeltaId}
    (hmessage : asBytes deltaId.digest ∈ replayMessages) (hdigest : IsLowerHex deltaId.digest) :
    ∃ s' : RunState MemoryMap, Step replayHonest replayMessages s s' ∧
      s'.calls = ⟨sk.verifyingKey, deltaId⟩ :: s.calls ∧
      EndorsedExactly s'.store (fun sk' deltaId' =>
        signed sk' deltaId' ∨ (sk' = sk ∧ deltaId' = deltaId)) ∧
      ∀ name, endsWith name ".sig" = false →
        MapAdapter.objects s'.store name = MapAdapter.objects s.store name := by
  refine ⟨_, Step.endorse (honestSigner sk s.store) sk deltaId rfl rfl hsk hmessage, rfl, ?_, ?_⟩
  · exact hexactly.endorse deltaIdLaws digitLaw signatureLaw base64Law serdeSliceLaw rfl rfl hdigest
  · intro name hname
    exact objects_endorse_of_not_sig serdeSliceLaw (honestSigner sk s.store) deltaId hname

theorem toVec_signedRecord (sk : SigningKey) (deltaId : DeltaId) :
    SerdeSlice.toVec (TrustAdapter.signedRecord sk deltaId)
      = .ok (endorsementObject sk deltaId).2 := rfl

/-- The adversary writes the record of a key. -/
theorem exists_recordStep {s : RunState MemoryMap} {signed : SigningKey → DeltaId → Prop}
    (hexactly : EndorsedExactly s.store signed) {sk : SigningKey} {deltaId : DeltaId}
    (hdigest : IsLowerHex deltaId.digest)
    (hbytes : Producible replayHonest replayMessages s.calls (endorsementObject sk deltaId).2) :
    ∃ s' : RunState MemoryMap, Step replayHonest replayMessages s s' ∧ s'.calls = s.calls ∧
      EndorsedExactly s'.store (fun sk' deltaId' =>
        signed sk' deltaId' ∨ (sk' = sk ∧ deltaId' = deltaId)) ∧
      ∀ name, endsWith name ".sig" = false →
        MapAdapter.objects s'.store name = MapAdapter.objects s.store name := by
  obtain ⟨s', hstep, hcalls, hwrite⟩ :=
    exists_adversaryStep s (TrustAdapter.ownEndorsementKey sk deltaId).fileName hbytes
  refine ⟨s', hstep, hcalls, hexactly.insert hdigest (toVec_signedRecord sk deltaId) hwrite,
    fun name hname => ?_⟩
  have hne : name ≠ (TrustAdapter.ownEndorsementKey sk deltaId).fileName := by
    intro heq
    rw [heq, EndorsementKey.endsWith_fileName] at hname
    cases hname
  rw [hwrite, Function.update_of_ne hne]

/-- An empty store, before the first call. -/
def replayStart : RunState MemoryMap := ⟨MemoryMap.new, []⟩

theorem fresh_replayStart : Fresh replayHonest replayMessages replayStart :=
  ⟨rfl, fun _ _ hobj => by cases hobj⟩

/-- One holder endorses `1-aa`, the other one endorses `1-bb`, and the adversary
copies the record of the first one to the name for `2-aa`. -/
theorem exists_replay : ∃ s : RunState MemoryMap,
    Relation.ReflTransGen (Step replayHonest replayMessages) replayStart s ∧
      s.calls = [⟨(sampleKey 3).verifyingKey, rivalDelta⟩,
        ⟨(sampleKey 1).verifyingKey, sampleDelta 1⟩] ∧
      EndorsedExactly s.store fun sk deltaId =>
        ((False ∨ (sk = sampleKey 1 ∧ deltaId = sampleDelta 1)) ∨
          (sk = sampleKey 3 ∧ deltaId = rivalDelta)) ∨
          (sk = sampleKey 1 ∧ deltaId = sampleDelta 2) := by
  have hempty : EndorsedExactly replayStart.store fun _ _ => False :=
    .empty fun _ _ hobj => by cases hobj
  obtain ⟨s₁, hstep₁, hcalls₁, hexactly₁, -⟩ := exists_honestStep hempty (sampleKey 1)
    sampleKey_mem (asBytes_digest_mem 1) (isLowerHex_sampleDelta 1)
  obtain ⟨s₂, hstep₂, hcalls₂, hexactly₂, -⟩ := exists_honestStep hexactly₁ (sampleKey 3)
    otherKey_mem asBytes_rival_mem isLowerHex_rivalDelta
  -- The record of `1-aa` is the record of `2-aa` as well.
  have hrecord : SerdeSlice.toVec (TrustAdapter.signedRecord (sampleKey 1) (sampleDelta 1))
      = .ok (endorsementObject (sampleKey 1) (sampleDelta 2)).2 := by
    have hsame : TrustAdapter.signedRecord (sampleKey 1) (sampleDelta 1)
        = TrustAdapter.signedRecord (sampleKey 1) (sampleDelta 2) := by
      rw [TrustAdapter.signedRecord, TrustAdapter.signedRecord, digest_sampleDelta,
        digest_sampleDelta]
    rw [hsame, toVec_signedRecord]
  have hcopy : Producible replayHonest replayMessages s₂.calls
      (endorsementObject (sampleKey 1) (sampleDelta 2)).2 := by
    rw [hcalls₂]
    apply Producible.cons
    rw [hcalls₁]
    exact producible_signedRecord base64Law serdeSliceLaw binding_replay sampleKey_mem
      (asBytes_digest_mem 1) hrecord _
  obtain ⟨s₃, hstep₃, hcalls₃, hexactly₃, -⟩ :=
    exists_recordStep hexactly₂ (isLowerHex_sampleDelta 2) hcopy
  refine ⟨s₃, ((Relation.ReflTransGen.single hstep₁).tail hstep₂).tail hstep₃, ?_, hexactly₃⟩
  rw [hcalls₃, hcalls₂, hcalls₁]
  rfl

/-- A node that trusts both holders. -/
def replayReader (store : MemoryMap) : TrustAdapter MemoryMap :=
  sampleAdapter .single {(sampleKey 1).verifyingKey, (sampleKey 3).verifyingKey} store

/-- The endorsement of one delta counts for another delta with the same
digest, which the holder of the key has never endorsed. -/
theorem replayed_endorsement_counts :
    Binding replayHonest replayMessages ∧ Fresh replayHonest replayMessages replayStart ∧
      ∃ s : RunState MemoryMap,
        Relation.ReflTransGen (Step replayHonest replayMessages) replayStart s ∧
          (∃ result, (replayReader s.store).fetchEndorsements (sampleDelta 2) = .ok result ∧
            (sampleKey 1).verifyingKey.toBytes ∈ result.valid) ∧
          ∀ call ∈ s.calls, call.deltaId ≠ sampleDelta 2 := by
  obtain ⟨s, hrun, hcalls, hexactly⟩ := exists_replay
  obtain ⟨result, hfetch, hvalid, -⟩ :=
    hexactly.exists_fetchEndorsements deltaIdLaws digitLaw signatureLaw base64Law serdeSliceLaw
      (t := replayReader s.store) rfl (sampleDelta 2)
  refine ⟨binding_replay, fresh_replayStart, s, hrun, ⟨result, hfetch, ?_⟩, ?_⟩
  · exact (hvalid _).mpr ⟨_, Finset.mem_insert_self _ _, rfl, sampleKey 1, Or.inr ⟨rfl, rfl⟩, rfl⟩
  · rw [hcalls]
    intro call hcall
    rcases List.mem_pair.mp hcall with h | h <;> rw [h]
    · decide
    · decide

/-- In that run the holder has endorsed a delta with the digest. -/
theorem exists_call_of_mem_valid_replay : ∃ s : RunState MemoryMap,
    ∃ call ∈ s.calls, call.signer = (sampleKey 1).verifyingKey ∧
      call.deltaId.digest = (sampleDelta 2).digest := by
  obtain ⟨s, hrun, -, hexactly⟩ := exists_replay
  obtain ⟨result, hfetch, hvalid, -⟩ :=
    hexactly.exists_fetchEndorsements deltaIdLaws digitLaw signatureLaw base64Law serdeSliceLaw
      (t := replayReader s.store) rfl (sampleDelta 2)
  have hmem := (hvalid (sampleKey 1).verifyingKey.toBytes).mpr
    ⟨_, Finset.mem_insert_self _ _, rfl, sampleKey 1, Or.inr ⟨rfl, rfl⟩, rfl⟩
  exact ⟨s, exists_call_of_mem_valid base64Law serdeSliceLaw binding_replay fresh_replayStart hrun
    _ rfl (asBytes_digest_mem 2) hfetch sampleKey_mem hmem⟩

end

end MeldaSec
