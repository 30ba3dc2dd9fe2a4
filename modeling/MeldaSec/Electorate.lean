import MeldaSec.Authorisation
import MeldaSec.KeyStoreHistory

/-!
# Trusting more keys

The trusted keys are the electorate of the gate, and the calls on a key store
only add to it.  `readObject_of_newcomers` says what a run of such calls does
to a delta: newcomers who endorse it and may do so never hide it, and
newcomers who do not never reveal it.  Both hold in every mode, although the
majority and the unanimity are reckoned in the larger electorate.
-/

namespace MeldaSec

open Rust

section

variable [Crates]

omit [Crates] in
theorem EndorsementMode.rule_keptByVoters (mode : EndorsementMode) : mode.rule.KeptByVoters := by
  cases mode with
  | permissive => exact Quorum.always_keptByVoters
  | single => exact Quorum.atLeastOne_keptByVoters
  | majority => exact Quorum.majority_keptByVoters
  | unanimous => exact Quorum.unanimity_keptByVoters

omit [Crates] in
theorem EndorsementMode.rule_unmovedByAbstainers (mode : EndorsementMode) :
    mode.rule.UnmovedByAbstainers := by
  cases mode with
  | permissive => exact Quorum.always_unmovedByAbstainers
  | single => exact Quorum.atLeastOne_unmovedByAbstainers
  | majority => exact Quorum.majority_unmovedByAbstainers
  | unanimous => exact Quorum.unanimity_unmovedByAbstainers

/-- The second key store trusts at least the keys of the first one, and has
the same roles for these. -/
structure KeyStore.Grows (ks ks' : KeyStore) : Prop where
  trusted : ks.trustedKeys ⊆ ks'.trustedKeys
  role : ∀ vk ∈ ks.trustedKeys, ks'.getRole vk.toBytes = ks.getRole vk.toBytes

/-- A run of calls makes the key store grow, unless a call gives a role to a
key that was trusted before. -/
theorem KeyStore.grows_runCalls {ks : KeyStore} {calls : List Call}
    (hroles : ∀ call ∈ calls, ∀ vk ∈ ks.trustedKeys, call.role vk.toBytes = none) :
    ks.Grows (ks.runCalls calls) where
  trusted vk hvk := mem_trustedKeys_runCalls.mpr (Or.inl hvk)
  role vk hvk := by
    have hnone : lastSome (Call.role vk.toBytes) calls = none := by
      unfold lastSome
      rw [List.findSome?_eq_none_iff]
      intro call hcall
      exact hroles call (List.mem_reverse.mp hcall) vk hvk
    rw [getRole_runCalls, hnone, Option.none_or]

namespace TrustAdapter

variable {A : Type} [Adapter A] [SerdeSlice EndorsementRecord] {t : TrustAdapter A}
  {ks : KeyStore} (h : t.keystore.Grows ks)
include h

/-- The keys that were trusted before count as they did before. -/
theorem mem_authorisedEndorsers_setKeystore {deltaId : DeltaId} {data : Bytes}
    {vk : VerifyingKey} (hvk : vk ∈ t.keystore.trustedKeys) :
    vk ∈ (t.setKeystore ks).authorisedEndorsers deltaId data ↔
      vk ∈ t.authorisedEndorsers deltaId data := by
  rw [mem_authorisedEndorsers, mem_authorisedEndorsers]
  have hrules : (t.setKeystore ks).policy.rules = t.policy.rules := rfl
  have hauthorises : (t.setKeystore ks).Authorises data vk ↔ t.Authorises data vk :=
    authorises_congr hrules (h.role vk hvk) data
  have hmem := h.trusted hvk
  constructor
  · intro ⟨_, hendorses, hauth⟩
    exact ⟨hvk, hendorses, hauthorises.mp hauth⟩
  · intro ⟨_, hendorses, hauth⟩
    exact ⟨hmem, hendorses, hauthorises.mpr hauth⟩

omit [Adapter A] [SerdeSlice EndorsementRecord] in
theorem card_trustedKeys_grows :
    ks.trustedKeyCount
      = t.keystore.trustedKeyCount + (ks.trustedKeys \ t.keystore.trustedKeys).card := by
  unfold KeyStore.trustedKeyCount
  rw [Nat.add_comm]
  exact (Finset.card_sdiff_add_card_eq_card h.trusted).symm

/-- When all newcomers vote, they add as many votes as they are. -/
theorem card_authorisedEndorsers_of_vote {deltaId : DeltaId} {data : Bytes}
    (hvote : ∀ vk ∈ ks.trustedKeys, vk ∉ t.keystore.trustedKeys →
      vk ∈ (t.setKeystore ks).authorisedEndorsers deltaId data) :
    ((t.setKeystore ks).authorisedEndorsers deltaId data).card
      = (t.authorisedEndorsers deltaId data).card
        + (ks.trustedKeys \ t.keystore.trustedKeys).card := by
  have hsplit : (t.setKeystore ks).authorisedEndorsers deltaId data
      = t.authorisedEndorsers deltaId data ∪ (ks.trustedKeys \ t.keystore.trustedKeys) := by
    ext vk
    rw [Finset.mem_union, Finset.mem_sdiff]
    by_cases hvk : vk ∈ t.keystore.trustedKeys
    · rw [mem_authorisedEndorsers_setKeystore h hvk]
      simp [hvk]
    · constructor
      · intro hmem
        exact Or.inr ⟨authorisedEndorsers_subset_trustedKeys _ _ _ hmem, hvk⟩
      · intro hmem
        rcases hmem with hmem | hmem
        · exact absurd (authorisedEndorsers_subset_trustedKeys _ _ _ hmem) hvk
        · exact hvote vk hmem.1 hvk
  rw [hsplit]
  apply Finset.card_union_of_disjoint
  exact Finset.disjoint_of_subset_left (authorisedEndorsers_subset_trustedKeys t deltaId data)
    Finset.disjoint_sdiff

/-- When no newcomer votes, the votes are the old ones. -/
theorem authorisedEndorsers_of_abstain {deltaId : DeltaId} {data : Bytes}
    (habstain : ∀ vk ∈ ks.trustedKeys, vk ∉ t.keystore.trustedKeys →
      vk ∉ (t.setKeystore ks).authorisedEndorsers deltaId data) :
    (t.setKeystore ks).authorisedEndorsers deltaId data = t.authorisedEndorsers deltaId data := by
  ext vk
  by_cases hvk : vk ∈ t.keystore.trustedKeys
  · exact mem_authorisedEndorsers_setKeystore h hvk
  · have hold : vk ∉ t.authorisedEndorsers deltaId data :=
      fun hmem => hvk (authorisedEndorsers_subset_trustedKeys t deltaId data hmem)
    have hnew : vk ∉ (t.setKeystore ks).authorisedEndorsers deltaId data :=
      fun hmem => habstain vk (authorisedEndorsers_subset_trustedKeys _ _ _ hmem) hvk hmem
    exact iff_of_false hnew hold

theorem Admits.of_vote {deltaId : DeltaId} {data : Bytes}
    (hvote : ∀ vk ∈ ks.trustedKeys, vk ∉ t.keystore.trustedKeys →
      vk ∈ (t.setKeystore ks).authorisedEndorsers deltaId data)
    (hadmits : t.Admits deltaId data) : (t.setKeystore ks).Admits deltaId data := by
  refine ⟨hadmits.1, fun hgated => ?_⟩
  obtain ⟨hlist, hclean, hrule⟩ := hadmits.2 hgated
  refine ⟨hlist, hclean, ?_⟩
  have hcount : (t.setKeystore ks).keystore.trustedKeyCount
      = t.keystore.trustedKeyCount + (ks.trustedKeys \ t.keystore.trustedKeys).card :=
    card_trustedKeys_grows h
  rw [card_authorisedEndorsers_of_vote h hvote, hcount]
  exact t.endorsementMode.rule_keptByVoters _ hrule

theorem Admits.of_abstain {deltaId : DeltaId} {data : Bytes}
    (habstain : ∀ vk ∈ ks.trustedKeys, vk ∉ t.keystore.trustedKeys →
      vk ∉ (t.setKeystore ks).authorisedEndorsers deltaId data)
    (hadmits : (t.setKeystore ks).Admits deltaId data) : t.Admits deltaId data := by
  refine ⟨hadmits.1, fun hgated => ?_⟩
  obtain ⟨hlist, hclean, hrule⟩ := hadmits.2 hgated
  refine ⟨hlist, hclean, ?_⟩
  have hcount : (t.setKeystore ks).keystore.trustedKeyCount
      = t.keystore.trustedKeyCount + (ks.trustedKeys \ t.keystore.trustedKeys).card :=
    card_trustedKeys_grows h
  rw [authorisedEndorsers_of_abstain h habstain, hcount] at hrule
  exact t.endorsementMode.rule_unmovedByAbstainers _
    (card_authorisedEndorsers_le t deltaId data) hrule

end TrustAdapter

namespace TrustAdapter

variable {A : Type} [Adapter A] [SerdeSlice EndorsementRecord]

/-- A run of calls on the key store gives no role to a key that was trusted
before.  When every key that it adds endorses the delta and may do so, the
delta stays readable; and when none of them does, it does not become readable. -/
theorem readObject_of_newcomers (t : TrustAdapter A) (calls : List KeyStore.Call)
    (hroles : ∀ call ∈ calls, ∀ vk ∈ t.keystore.trustedKeys, call.role vk.toBytes = none)
    {key : String} (hkey : endsWith key ".delta" = true) {deltaId : DeltaId}
    (hid : DeltaId.fromStr key = .ok deltaId) (data : Bytes) :
    let ks := t.keystore.runCalls calls
    ((∀ vk ∈ ks.trustedKeys, vk ∉ t.keystore.trustedKeys →
        vk ∈ (t.setKeystore ks).authorisedEndorsers deltaId data) →
      t.readObject key 0 0 = .ok data → (t.setKeystore ks).readObject key 0 0 = .ok data) ∧
    ((∀ vk ∈ ks.trustedKeys, vk ∉ t.keystore.trustedKeys →
        vk ∉ (t.setKeystore ks).authorisedEndorsers deltaId data) →
      (t.setKeystore ks).readObject key 0 0 = .ok data → t.readObject key 0 0 = .ok data) := by
  intro ks
  have hgrows : t.keystore.Grows ks := KeyStore.grows_runCalls hroles
  rw [readObject_of_fromStr hkey hid, readObject_of_fromStr hkey hid]
  constructor
  · intro hvote ⟨hdata, hadmits⟩
    exact ⟨hdata, hadmits.of_vote hgrows hvote⟩
  · intro habstain ⟨hdata, hadmits⟩
    exact ⟨hdata, hadmits.of_abstain hgrows habstain⟩

end TrustAdapter

end

section

open Reference

/-- A delta that two keys have signed. -/
def twiceSigned : List (SigningKey × DeltaId) :=
  [(sampleKey 1, sampleDelta 1), (sampleKey 2, sampleDelta 1)]

def twiceSignedStore : MemoryMap :=
  repository [((sampleDelta 1).key, sampleData)] twiceSigned

theorem isLowerHex_twiceSigned : ∀ call ∈ twiceSigned, IsLowerHex call.2.digest := by
  intro call hcall
  rcases List.mem_pair.mp hcall with h | h <;> rw [h]
  · exact isLowerHex_sampleDelta 1
  · exact isLowerHex_sampleDelta 1

/-- A reader that trusts the first of them. -/
def firstTrust : TrustAdapter MemoryMap :=
  sampleAdapter .unanimous {(sampleKey 1).verifyingKey} twiceSignedStore

/-- The call that trusts the second one, and gives it a role. -/
def secondTrusted : List KeyStore.Call :=
  [.addTrustedPublicKeyWithRole (sampleKey 2).verifyingKey.toBytes "editor"]

/-- The delta is read in the unanimous mode before and after the call. -/
theorem readObject_of_newcomers_sample :
    (firstTrust.setKeystore (firstTrust.keystore.runCalls secondTrusted)).readObject
      (sampleDelta 1).key 0 0 = .ok sampleData := by
  have hread : firstTrust.readObject (sampleDelta 1).key 0 0 = .ok sampleData := by
    apply readObject_repository (by decide) isLowerHex_twiceSigned (by decide) (by decide)
    intro vk hvk
    exact ⟨sampleKey 1, by simp [twiceSigned], (Finset.mem_singleton.mp hvk).symm⟩
  have hroles : ∀ call ∈ secondTrusted, ∀ vk ∈ firstTrust.keystore.trustedKeys,
      call.role vk.toBytes = none := by
    intro call hcall vk hvk
    rw [List.mem_singleton.mp hcall, Finset.mem_singleton.mp hvk]
    have hne : (sampleKey 2).verifyingKey.toBytes ≠ (sampleKey 1).verifyingKey.toBytes := by
      decide
    simp only [KeyStore.Call.role, if_neg hne]
  refine (TrustAdapter.readObject_of_newcomers firstTrust secondTrusted hroles (endsWith_key _)
    (fromKeyLaw _) sampleData).1 ?_ hread
  intro vk hvk hnew
  have hexactly : EndorsedExactly twiceSignedStore fun sk id => (sk, id) ∈ twiceSigned :=
    endorsedExactly_repository (by decide) isLowerHex_twiceSigned
  rcases KeyStore.mem_trustedKeys_runCalls.mp hvk with hold | ⟨call, hcall, htrusted⟩
  · exact absurd hold hnew
  · rw [List.mem_singleton.mp hcall] at htrusted
    have hsecond : vk = (sampleKey 2).verifyingKey :=
      VerifyingKey.toBytes_injective (KeyStore.decodeKey_eq_some_iff.mp htrusted).symm
    have hendorses : Endorses twiceSignedStore (sampleDelta 1) vk := by
      rw [hexactly.endorses_iff_signedBy deltaIdLaws digitLaw signatureLaw base64Law
        serdeSliceLaw]
      exact ⟨sampleKey 2, by simp [twiceSigned], hsecond.symm⟩
    exact TrustAdapter.mem_authorisedEndorsers.mpr
      ⟨hvk, hendorses, fun objectId _ => allows_allowAll _ _ objectId⟩

end

end MeldaSec
