import MeldaSec.Unforgeability

/-!
# Corrupt keys

In the runs of `MeldaSec.Unforgeability` every key outside the set of honest
keys belongs to the adversary.  This module says how many of the trusted keys
the adversary must hold to get a delta through the gate.

* `honest_and_corrupt_enough`: a gated delta that is read in a reachable state
  has enough voters, where a voter is a trusted key of the adversary, or an
  honest one whose holder called `endorse` for the digest.  In the unanimous
  mode, for example, the holders of all honest trusted keys have called it.
* `exists_corrupt_of_conflict`: two nodes that trust the same keys, and ask
  for a majority or for all of them, read two deltas at two moments of a run.
  When no honest holder endorses both digests, a trusted key is corrupt, and
  the policies of both nodes allow it.
-/

namespace MeldaSec

open Rust

section

variable [Crates] {M : Type} [MapAdapter M] [SerdeSlice EndorsementRecord]
  {honest : Set VerifyingKey} {messages : Set Bytes}

/-- A holder of the key has called `endorse` for a delta with this digest. -/
def Called (calls : List Call) (vk : VerifyingKey) (digest : String) : Prop :=
  ∃ call ∈ calls, call.signer = vk ∧ call.deltaId.digest = digest

open Classical in
/-- The honest trusted keys whose holders called `endorse` for the digest, and
that the policy allows on the delta. -/
noncomputable def TrustAdapter.honestVoters (t : TrustAdapter M) (honest : Set VerifyingKey)
    (calls : List Call) (deltaId : DeltaId) (data : Bytes) : Finset VerifyingKey :=
  t.keystore.trustedKeys.filter fun vk =>
    vk ∈ honest ∧ Called calls vk deltaId.digest ∧ t.Authorises data vk

open Classical in
/-- The trusted keys of the adversary that the policy allows on the delta. -/
noncomputable def TrustAdapter.corruptVoters (t : TrustAdapter M) (honest : Set VerifyingKey)
    (data : Bytes) : Finset VerifyingKey :=
  t.keystore.trustedKeys.filter fun vk => vk ∉ honest ∧ t.Authorises data vk

omit [MapAdapter M] [SerdeSlice EndorsementRecord] in
theorem disjoint_voters (t : TrustAdapter M) (calls : List Call) (deltaId : DeltaId)
    (data : Bytes) :
    Disjoint (t.honestVoters honest calls deltaId data) (t.corruptVoters honest data) := by
  classical
  rw [TrustAdapter.honestVoters, TrustAdapter.corruptVoters, Finset.disjoint_filter]
  intro vk _ hhonest hcorrupt
  exact hcorrupt.1 hhonest.1

/-- No step forgets a call. -/
theorem calls_subset_of_run {s s' : RunState M}
    (hrun : Relation.ReflTransGen (Step honest messages) s s') : s.calls ⊆ s'.calls := by
  induction hrun with
  | refl => exact List.Subset.refl _
  | tail _ hstep ih =>
    cases hstep with
    | endorse t sk deltaId hstore hsk hhonest hdigest => exact List.subset_cons_of_subset _ ih
    | adversary store name content hwrite hcontent => exact ih

/-- In a state without forged records, an honest endorser is a caller. -/
theorem Unforged.called {s : RunState M} (h : Unforged honest messages s) {deltaId : DeltaId}
    (hdigest : asBytes deltaId.digest ∈ messages) {vk : VerifyingKey} (hvk : vk ∈ honest)
    (hendorses : Endorses s.store deltaId vk) : Called s.calls vk deltaId.digest := by
  obtain ⟨name, -, -, sig, hsig, hverify⟩ := hendorses
  obtain ⟨bytes, hread, endorsement, hparse, -, -, hdecode⟩ := hsig
  rw [MapAdapter.readObject_eq_ok_iff] at hread
  obtain ⟨call, hcall, hsigner, hmessage⟩ :=
    h _ bytes hread endorsement sig vk hvk _ hdigest hparse hdecode hverify
  exact ⟨call, hcall, hsigner, asBytes_injective hmessage⟩

/-- Every authorised endorser is an honest caller or corrupt. -/
theorem Unforged.authorisedEndorsers_subset [DecidableEq VerifyingKey] {s : RunState M}
    (h : Unforged honest messages s) {t : TrustAdapter M} (hreader : t.inner = s.store)
    {deltaId : DeltaId} (hdigest : asBytes deltaId.digest ∈ messages) (data : Bytes) :
    t.authorisedEndorsers deltaId data ⊆
      t.honestVoters honest s.calls deltaId data ∪ t.corruptVoters honest data := by
  classical
  intro vk hvk
  rw [TrustAdapter.mem_authorisedEndorsers, hreader] at hvk
  obtain ⟨htrusted, hendorses, hauthorises⟩ := hvk
  rw [Finset.mem_union, TrustAdapter.honestVoters, TrustAdapter.corruptVoters,
    Finset.mem_filter, Finset.mem_filter]
  by_cases hhonest : vk ∈ honest
  · exact Or.inl ⟨htrusted, hhonest, h.called hdigest hhonest hendorses, hauthorises⟩
  · exact Or.inr ⟨htrusted, hhonest, hauthorises⟩

/-- A gated delta that is read without forged records has enough voters. -/
theorem Unforged.enough_voters {s : RunState M} (h : Unforged honest messages s)
    {t : TrustAdapter M} (hreader : t.inner = s.store) {key : String}
    (hkey : endsWith key ".delta" = true) {deltaId : DeltaId}
    (hid : DeltaId.fromStr key = .ok deltaId) (hdigest : asBytes deltaId.digest ∈ messages)
    (hgated : t.Gated deltaId) {data : Bytes} (hread : t.readObject key 0 0 = .ok data) :
    t.endorsementMode.rule
      ((t.honestVoters honest s.calls deltaId data).card + (t.corruptVoters honest data).card)
      t.keystore.trustedKeyCount := by
  classical
  exact t.endorsementMode.rule_monotone.card_add_card (Finset.filter_subset _ _)
    (Finset.filter_subset _ _) (disjoint_voters t s.calls deltaId data)
    (h.authorisedEndorsers_subset hreader hdigest data)
    (TrustAdapter.rule_of_readObject hkey hid hgated hread)

/-- When a node reads a gated delta in a reachable state, the honest callers
and the corrupt keys are enough together.  So when the corrupt keys are not
enough alone, an honest holder has called `endorse` for the digest. -/
theorem honest_and_corrupt_enough (hbase64 : Base64Law)
    (hserde : SerdeSliceLaw EndorsementRecord) (hbinding : Binding honest messages)
    {s₀ s : RunState M} (hfresh : Fresh honest messages s₀)
    (hrun : Relation.ReflTransGen (Step honest messages) s₀ s) (t : TrustAdapter M)
    (hreader : t.inner = s.store) {key : String} (hkey : endsWith key ".delta" = true)
    {deltaId : DeltaId} (hid : DeltaId.fromStr key = .ok deltaId)
    (hdigest : asBytes deltaId.digest ∈ messages) (hgated : t.Gated deltaId) {data : Bytes}
    (hread : t.readObject key 0 0 = .ok data) :
    t.endorsementMode.rule
        ((t.honestVoters honest s.calls deltaId data).card + (t.corruptVoters honest data).card)
        t.keystore.trustedKeyCount ∧
      (¬ t.endorsementMode.rule (t.corruptVoters honest data).card t.keystore.trustedKeyCount →
        (t.honestVoters honest s.calls deltaId data).Nonempty) := by
  have hunforged := hfresh.unforged.run hbase64 hserde hbinding hrun
  have henough := hunforged.enough_voters hreader hkey hid hdigest hgated hread
  refine ⟨henough, fun hfew => ?_⟩
  rw [Finset.nonempty_iff_ne_empty]
  intro hempty
  rw [hempty, Finset.card_empty, Nat.zero_add] at henough
  exact hfew henough

end

section

open Reference

/-- The bytes of the deltas of the examples. -/
def nullData : Bytes := asBytes (String.ofList ['n', 'u', 'l', 'l'])

theorem fromSlice_nullData :
    SerdeSlice.fromSlice (T := EndorsementRecord) nullData
      = .error "invalid type: expected a map" := by
  have hread : SerdeSlice.fromSlice (T := EndorsementRecord) nullData = (do
      let value ← valueFromSlice nullData
      recordOfValue value) := rfl
  have hvalue : readValue 5 ['n', 'u', 'l', 'l'] = some (.null, []) := rfl
  rw [hread, valueFromSlice, nullData, textOf_asBytes]
  simp only [String.toList_ofList, List.length_cons, List.length_nil, hvalue]
  rfl

theorem producible_nullData (honest : Set VerifyingKey) (messages : Set Bytes)
    (calls : List Call) : Producible honest messages calls nullData := by
  intro endorsement sig vk _ message _ hparse
  rw [fromSlice_nullData] at hparse
  cases hparse

/-- A store of objects that can be written is free of forged records. -/
theorem unforged_storeOf {honest : Set VerifyingKey} {messages : Set Bytes}
    {objects : List (String × Bytes)}
    (h : ∀ object ∈ objects, Producible honest messages [] object.2) :
    Unforged honest messages (⟨storeOf objects, []⟩ : RunState MemoryMap) := by
  intro name bytes hobj
  rw [objects_storeOf, List.lookup_eq_some_iff] at hobj
  obtain ⟨before, after, hsplit, -⟩ := hobj
  exact h (name, bytes) (by rw [hsplit]; simp)

/-- Two conflicting deltas, and no endorsement. -/
def honestStart : RunState MemoryMap :=
  ⟨repository [((sampleDelta 1).key, nullData), (rivalDelta.key, nullData)] [], []⟩

theorem fresh_honestStart : Fresh replayHonest replayMessages honestStart where
  calls := rfl
  unforged := unforged_storeOf fun object hobject => by
    have hdata : object.2 = nullData := by
      rcases List.mem_pair.mp hobject with h | h <;> rw [h]
    rw [hdata]
    exact producible_nullData _ _ _

theorem endorsedExactly_honestStart :
    EndorsedExactly honestStart.store fun sk deltaId => (sk, deltaId) ∈ [] :=
  endorsedExactly_repository (by decide) (by simp)

/-- The adversary can write the records of its own key. -/
theorem producible_corruptRecord (deltaId : DeltaId) (calls : List Call) :
    Producible replayHonest replayMessages calls (endorsementObject (sampleKey 2) deltaId).2 := by
  intro endorsement sig vk hvk message _ hparse hdecode hverify
  obtain ⟨bytes, hbytes, hparse'⟩ := serdeSliceLaw (TrustAdapter.signedRecord (sampleKey 2) deltaId)
  obtain rfl := Except.ok.inj hbytes
  obtain rfl := Except.ok.inj (hparse'.symm.trans hparse)
  obtain rfl := Subtype.ext (Except.ok.inj ((base64Law _).symm.trans hdecode))
  obtain ⟨hkey, -⟩ := eq_of_verify hverify
  rw [← hkey] at hvk
  rcases hvk with h | h <;> exact absurd h (by decide)

/-- A holder endorses a delta, and the adversary adds the record of its key. -/
theorem exists_attackedRun {s : RunState MemoryMap} {signed : SigningKey → DeltaId → Prop}
    (hexactly : EndorsedExactly s.store signed) (sk : SigningKey)
    (hsk : sk.verifyingKey ∈ replayHonest) {deltaId : DeltaId}
    (hmessage : asBytes deltaId.digest ∈ replayMessages) (hdigest : IsLowerHex deltaId.digest) :
    ∃ s' : RunState MemoryMap, Relation.ReflTransGen (Step replayHonest replayMessages) s s' ∧
      s'.calls = ⟨sk.verifyingKey, deltaId⟩ :: s.calls ∧
      EndorsedExactly s'.store (fun sk' deltaId' =>
        (signed sk' deltaId' ∨ (sk' = sk ∧ deltaId' = deltaId)) ∨
          (sk' = sampleKey 2 ∧ deltaId' = deltaId)) ∧
      ∀ name, endsWith name ".sig" = false →
        MapAdapter.objects s'.store name = MapAdapter.objects s.store name := by
  obtain ⟨s₁, hstep₁, hcalls₁, hexactly₁, hobjects₁⟩ :=
    exists_honestStep hexactly sk hsk hmessage hdigest
  obtain ⟨s₂, hstep₂, hcalls₂, hexactly₂, hobjects₂⟩ :=
    exists_recordStep hexactly₁ hdigest (producible_corruptRecord deltaId s₁.calls)
  refine ⟨s₂, (Relation.ReflTransGen.single hstep₁).tail hstep₂, hcalls₂.trans hcalls₁, hexactly₂,
    fun name hname => ?_⟩
  rw [hobjects₂ name hname, hobjects₁ name hname]

/-- The two holders, and the adversary. -/
def mixedTrusted : Finset VerifyingKey :=
  {(sampleKey 1).verifyingKey, (sampleKey 2).verifyingKey, (sampleKey 3).verifyingKey}

/-- A node that asks for two of the three. -/
def mixedReader (store : MemoryMap) : TrustAdapter MemoryMap :=
  sampleAdapter .majority mixedTrusted store

/-- The node reads a delta that two of the three have signed. -/
theorem readObject_mixedReader {store : MemoryMap} {signed : SigningKey → DeltaId → Prop}
    (hexactly : EndorsedExactly store signed) {deltaId : DeltaId}
    (hobject : MapAdapter.objects store deltaId.key = some nullData) (sk : SigningKey)
    (hsk : sk = sampleKey 1 ∨ sk = sampleKey 3) (hsigned : signed sk deltaId)
    (hcorrupt : signed (sampleKey 2) deltaId) :
    (mixedReader store).readObject deltaId.key 0 0 = .ok nullData := by
  apply readObject_of_signed hexactly hobject [sk, sampleKey 2]
  · simp [hsigned, hcorrupt]
  · rcases hsk with h | h <;> simp [h, mixedTrusted]
  · rcases hsk with h | h <;> rw [h] <;> exact ⟨by decide, by decide⟩

/-- The adversary has one of the three keys, which is not enough. -/
theorem not_majority_of_corrupt {voters : Finset VerifyingKey} (htrusted : voters ⊆ mixedTrusted)
    (hcorrupt : ∀ vk ∈ voters, vk ∉ replayHonest) :
    ¬ Quorum.majority voters.card mixedTrusted.card := by
  have hsubset : voters ⊆ {(sampleKey 2).verifyingKey} := by
    intro vk hvk
    have hnot := hcorrupt vk hvk
    rw [Finset.mem_singleton]
    rcases Finset.mem_insert.mp (htrusted hvk) with h | h
    · rw [h] at hnot
      exact absurd sampleKey_mem hnot
    · rcases Finset.mem_insert.mp h with h | h
      · exact h
      · rw [Finset.mem_singleton.mp h] at hnot
        exact absurd otherKey_mem hnot
  have hcard := Finset.card_le_card hsubset
  have hsize : mixedTrusted.card = 3 := by decide
  rw [Finset.card_singleton] at hcard
  intro hmajority
  have hlarge := hmajority.2
  omega

/-- A holder endorses the delta, and the adversary adds the record of its own
key.  The node that trusts both reads the delta, and could not without the
holder. -/
theorem honest_and_corrupt_enough_sample : ∃ s : RunState MemoryMap,
    (mixedReader s.store).readObject (sampleDelta 1).key 0 0 = .ok nullData ∧
      Quorum.majority
        (((mixedReader s.store).honestVoters replayHonest s.calls (sampleDelta 1) nullData).card +
          ((mixedReader s.store).corruptVoters replayHonest nullData).card) 3 ∧
      ((mixedReader s.store).honestVoters replayHonest s.calls (sampleDelta 1)
        nullData).Nonempty := by
  obtain ⟨s, hrun, -, hexactly, hobjects⟩ := exists_attackedRun endorsedExactly_honestStart
    (sampleKey 1) sampleKey_mem (asBytes_digest_mem 1) (isLowerHex_sampleDelta 1)
  have hobject : MapAdapter.objects s.store (sampleDelta 1).key = some nullData := by
    rw [hobjects _ (endsWith_sig_of_delta (endsWith_key _))]
    exact objects_storeOf _ _
  have hread := readObject_mixedReader hexactly hobject (sampleKey 1) (Or.inl rfl)
    (Or.inl (Or.inr ⟨rfl, rfl⟩)) (Or.inr ⟨rfl, rfl⟩)
  have hmode : EndorsementMode.majority ≠ .permissive := by decide
  obtain ⟨henough, hholder⟩ := honest_and_corrupt_enough base64Law serdeSliceLaw binding_replay
    fresh_honestStart hrun (mixedReader s.store) rfl (endsWith_key _) (fromKeyLaw _)
    (asBytes_digest_mem 1) ⟨rfl, rfl, hmode⟩ hread
  refine ⟨s, hread, henough, hholder ?_⟩
  classical
  apply not_majority_of_corrupt (Finset.filter_subset _ _)
  intro vk hvk
  exact (Finset.mem_filter.mp hvk).2.1

end

/-! ## Conflicting deltas -/

section

variable [Crates] {M : Type} [MapAdapter M] [SerdeSlice EndorsementRecord]
  {honest : Set VerifyingKey} {messages : Set Bytes}

/-- The modes that ask for at least a majority. -/
def EndorsementMode.AsksMajority (mode : EndorsementMode) : Prop :=
  mode = .majority ∨ mode = .unanimous

omit [Crates] [SerdeSlice EndorsementRecord] in
theorem EndorsementMode.AsksMajority.majority {mode : EndorsementMode} (h : mode.AsksMajority)
    {count size : Nat} (hsize : 0 < size) (hrule : mode.rule count size) :
    Quorum.majority count size := by
  rcases h with hmode | hmode
  · rw [hmode] at hrule
    exact hrule
  · rw [hmode] at hrule
    exact Quorum.majority_of_unanimity hrule hsize

/-- Two nodes with the same trusted keys read two gated deltas at two moments
of a run, and no honest holder has endorsed both digests until the later one.
Then a trusted key of the adversary has endorsed both deltas, and both nodes
allow it to. -/
theorem exists_corrupt_of_conflict (hbase64 : Base64Law)
    (hserde : SerdeSliceLaw EndorsementRecord) (hbinding : Binding honest messages)
    {s₀ s₁ s₂ : RunState M} (hfresh : Fresh honest messages s₀)
    (hrun₁ : Relation.ReflTransGen (Step honest messages) s₀ s₁)
    (hrun₂ : Relation.ReflTransGen (Step honest messages) s₁ s₂) (t₁ t₂ : TrustAdapter M)
    (hreader₁ : t₁.inner = s₁.store) (hreader₂ : t₂.inner = s₂.store)
    (htrusted : t₁.keystore.trustedKeys = t₂.keystore.trustedKeys)
    (hkeys : t₁.keystore.trustedKeys.Nonempty) (hmode₁ : t₁.endorsementMode.AsksMajority)
    (hmode₂ : t₂.endorsementMode.AsksMajority) {key₁ key₂ : String}
    (hkey₁ : endsWith key₁ ".delta" = true) (hkey₂ : endsWith key₂ ".delta" = true)
    {deltaId₁ deltaId₂ : DeltaId} (hid₁ : DeltaId.fromStr key₁ = .ok deltaId₁)
    (hid₂ : DeltaId.fromStr key₂ = .ok deltaId₂) (hdigest₁ : asBytes deltaId₁.digest ∈ messages)
    (hdigest₂ : asBytes deltaId₂.digest ∈ messages) (hgated₁ : t₁.Gated deltaId₁)
    (hgated₂ : t₂.Gated deltaId₂)
    (honce : ∀ vk ∈ honest, Called s₂.calls vk deltaId₁.digest →
      ¬ Called s₂.calls vk deltaId₂.digest) {data₁ data₂ : Bytes}
    (hread₁ : t₁.readObject key₁ 0 0 = .ok data₁) (hread₂ : t₂.readObject key₂ 0 0 = .ok data₂) :
    ∃ vk ∈ t₁.keystore.trustedKeys, vk ∉ honest ∧ Endorses s₁.store deltaId₁ vk ∧
      Endorses s₂.store deltaId₂ vk ∧ t₁.Authorises data₁ vk ∧ t₂.Authorises data₂ vk := by
  classical
  have hunforged₁ := hfresh.unforged.run hbase64 hserde hbinding hrun₁
  have hunforged₂ := hunforged₁.run hbase64 hserde hbinding hrun₂
  have hsize : 0 < t₁.keystore.trustedKeyCount := Finset.card_pos.mpr hkeys
  have hsame : t₂.keystore.trustedKeyCount = t₁.keystore.trustedKeyCount :=
    congrArg Finset.card htrusted.symm
  have hmajority₁ := hmode₁.majority hsize
    (TrustAdapter.rule_of_readObject hkey₁ hid₁ hgated₁ hread₁)
  have hrule₂ := TrustAdapter.rule_of_readObject hkey₂ hid₂ hgated₂ hread₂
  rw [hsame] at hrule₂
  have hmajority₂ := hmode₂.majority hsize hrule₂
  -- The two majorities are of one electorate, although the two nodes differ.
  have hsubset₂ := TrustAdapter.authorisedEndorsers_subset_trustedKeys t₂ deltaId₂ data₂
  rw [← htrusted] at hsubset₂
  obtain ⟨vk, hvk⟩ := Quorum.inter_nonempty_of_majority
    (TrustAdapter.authorisedEndorsers_subset_trustedKeys t₁ deltaId₁ data₁) hsubset₂
    hmajority₁ hmajority₂
  rw [Finset.mem_inter, TrustAdapter.mem_authorisedEndorsers,
    TrustAdapter.mem_authorisedEndorsers, hreader₁, hreader₂] at hvk
  obtain ⟨⟨hmem, hendorses₁, hauthorises₁⟩, -, hendorses₂, hauthorises₂⟩ := hvk
  refine ⟨vk, hmem, fun hhonest => ?_, hendorses₁, hendorses₂, hauthorises₁, hauthorises₂⟩
  have hcalled₁ := hunforged₁.called hdigest₁ hhonest hendorses₁
  have hcalled₂ := hunforged₂.called hdigest₂ hhonest hendorses₂
  obtain ⟨call, hcall, hcaller⟩ := hcalled₁
  exact honce vk hhonest ⟨call, calls_subset_of_run hrun₂ hcall, hcaller⟩ hcalled₂

end

section

open Reference

theorem digests_ne : (sampleDelta 1).digest ≠ rivalDelta.digest := by
  rw [digest_sampleDelta, digest_rivalDelta]
  decide

/-- One holder endorses `1-aa`, and then the other one endorses `1-bb`. -/
def splitCalls : List Call :=
  [⟨(sampleKey 3).verifyingKey, rivalDelta⟩, ⟨(sampleKey 1).verifyingKey, sampleDelta 1⟩]

/-- No holder has endorsed both. -/
theorem not_called_splitCalls {vk : VerifyingKey}
    (hcalled : Called splitCalls vk (sampleDelta 1).digest) :
    ¬ Called splitCalls vk rivalDelta.digest := by
  intro hrival
  obtain ⟨call, hcall, hsigner, hdigest⟩ := hcalled
  obtain ⟨call', hcall', hsigner', hdigest'⟩ := hrival
  rcases List.mem_pair.mp hcall with h | h
  · rw [h] at hdigest
    exact digests_ne hdigest.symm
  · rcases List.mem_pair.mp hcall' with h' | h'
    · rw [h] at hsigner
      rw [h'] at hsigner'
      exact absurd (hsigner.trans hsigner'.symm) (by decide)
    · rw [h'] at hdigest'
      exact digests_ne hdigest'

/-- The adversary adds its record to both deltas, and so two nodes read them
with different holders behind them. -/
theorem exists_corrupt_of_conflict_sample : ∃ s₁ s₂ : RunState MemoryMap,
    (mixedReader s₁.store).readObject (sampleDelta 1).key 0 0 = .ok nullData ∧
      (mixedReader s₂.store).readObject rivalDelta.key 0 0 = .ok nullData ∧
      ∃ vk ∈ mixedTrusted, vk ∉ replayHonest ∧
        Endorses s₁.store (sampleDelta 1) vk ∧ Endorses s₂.store rivalDelta vk := by
  obtain ⟨s₁, hrun₁, hcalls₁, hexactly₁, hobjects₁⟩ := exists_attackedRun
    endorsedExactly_honestStart (sampleKey 1) sampleKey_mem (asBytes_digest_mem 1)
    (isLowerHex_sampleDelta 1)
  obtain ⟨s₂, hrun₂, hcalls₂, hexactly₂, hobjects₂⟩ := exists_attackedRun hexactly₁ (sampleKey 3)
    otherKey_mem asBytes_rival_mem isLowerHex_rivalDelta
  have hobject₁ : MapAdapter.objects s₁.store (sampleDelta 1).key = some nullData := by
    rw [hobjects₁ _ (endsWith_sig_of_delta (endsWith_key _))]
    exact objects_storeOf _ _
  have hobject₂ : MapAdapter.objects s₂.store rivalDelta.key = some nullData := by
    rw [hobjects₂ _ (endsWith_sig_of_delta (endsWith_key _)),
      hobjects₁ _ (endsWith_sig_of_delta (endsWith_key _))]
    exact objects_storeOf _ _
  have hread₁ := readObject_mixedReader hexactly₁ hobject₁ (sampleKey 1) (Or.inl rfl)
    (Or.inl (Or.inr ⟨rfl, rfl⟩)) (Or.inr ⟨rfl, rfl⟩)
  have hread₂ := readObject_mixedReader hexactly₂ hobject₂ (sampleKey 3) (Or.inr rfl)
    (Or.inl (Or.inr ⟨rfl, rfl⟩)) (Or.inr ⟨rfl, rfl⟩)
  have hcalls : s₂.calls = splitCalls := by
    rw [hcalls₂, hcalls₁]
    rfl
  have honce : ∀ vk ∈ replayHonest, Called s₂.calls vk (sampleDelta 1).digest →
      ¬ Called s₂.calls vk rivalDelta.digest := by
    rw [hcalls]
    exact fun vk _ => not_called_splitCalls
  have hmode : EndorsementMode.majority ≠ .permissive := by decide
  obtain ⟨vk, htrusted, hcorrupt, hendorses₁, hendorses₂, -⟩ := exists_corrupt_of_conflict
    base64Law serdeSliceLaw binding_replay fresh_honestStart hrun₁ hrun₂ (mixedReader s₁.store)
    (mixedReader s₂.store) rfl rfl rfl (Finset.insert_nonempty _ _) (Or.inl rfl) (Or.inl rfl)
    (endsWith_key _) (endsWith_key _) (fromKeyLaw _) (fromKeyLaw _) (asBytes_digest_mem 1)
    asBytes_rival_mem ⟨rfl, rfl, hmode⟩ ⟨rfl, rfl, hmode⟩ honce hread₁ hread₂
  exact ⟨s₁, s₂, hread₁, hread₂, vk, htrusted, hcorrupt, hendorses₁, hendorses₂⟩

end

end MeldaSec
