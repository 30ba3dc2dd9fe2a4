import MeldaSec.Reference

/-!
# The endorsement modes against each other

The modes are meant to be ordered by strictness.  They are, except that the
unanimous mode does not look for an empty set of trusted keys:
`strictnessChain_iff` says where the order breaks.  The majority mode is the
one whose accepted deltas always have an endorser in common.
-/

namespace MeldaSec

open Rust

namespace TrustAdapter

variable [Crates] {A : Type} [Adapter A] [SerdeSlice EndorsementRecord]

/-! ## Strictness -/

/-- The delta is accepted when the configuration runs in this mode. -/
def Accepts (t : TrustAdapter A) (mode : EndorsementMode) (key : String) : Prop :=
  ∃ data, (t.setEndorsementMode mode).readObject key 0 0 = .ok data

/-- Each mode accepts what the stricter ones accept, and a mode that asks for
endorsements accepts nothing without an authorised endorser. -/
structure StrictnessChain (t : TrustAdapter A) (key : String) : Prop where
  majority_of_unanimous : t.Accepts .unanimous key → t.Accepts .majority key
  single_of_majority : t.Accepts .majority key → t.Accepts .single key
  permissive_of_single : t.Accepts .single key → t.Accepts .permissive key
  nonempty : ∀ mode deltaId data, mode ≠ .permissive → DeltaId.fromStr key = .ok deltaId →
    t.deltaFilter.isWhitelisted deltaId = false →
    (t.setEndorsementMode mode).readObject key 0 0 = .ok data →
    (t.authorisedEndorsers deltaId data).Nonempty

/-- The gate gets as far as counting the endorsers of the delta, unless the
mode asks for none: the delta is stored and on neither list, and the scan of
its endorsements is clean. -/
def Evaluable (t : TrustAdapter A) (key : String) : Prop :=
  (∃ data, Adapter.readObject t.inner key 0 0 = .ok data) ∧
    ∃ deltaId, DeltaId.fromStr key = .ok deltaId ∧
      t.deltaFilter.isBlacklisted deltaId = false ∧
      t.deltaFilter.isWhitelisted deltaId = false ∧
      Adapter.listObjects t.inner ".sig" ≠ .panic ∧ CleanScan t.inner deltaId

/-- The mode occurs in the voting rule only. -/
theorem admits_setEndorsementMode_iff {t : TrustAdapter A} {mode : EndorsementMode}
    {deltaId : DeltaId} {data : Bytes} :
    (t.setEndorsementMode mode).Admits deltaId data ↔
      t.deltaFilter.isBlacklisted deltaId = false ∧
        (t.deltaFilter.isWhitelisted deltaId = false → mode ≠ .permissive →
          Adapter.listObjects t.inner ".sig" ≠ .panic ∧ CleanScan t.inner deltaId ∧
            mode.rule (t.authorisedEndorsers deltaId data).card t.keystore.trustedKeyCount) := by
  refine and_congr_right fun hblack => ?_
  exact ⟨fun h hwhite hmode => h ⟨hblack, hwhite, hmode⟩, fun h hgated => h hgated.2.1 hgated.2.2⟩

/-- A mode accepts what another one accepts, as soon as its rule is weaker
on the deltas that can be evaluated. -/
theorem accepts_of_accepts {t : TrustAdapter A} {mode mode' : EndorsementMode} {key : String}
    (hkey : endsWith key ".delta" = true)
    (hpermissive : mode' ≠ .permissive → mode ≠ .permissive)
    (hrule : t.Evaluable key → ∀ count, mode.rule count t.keystore.trustedKeyCount →
      mode'.rule count t.keystore.trustedKeyCount)
    (h : t.Accepts mode key) : t.Accepts mode' key := by
  obtain ⟨data, hread⟩ := h
  obtain ⟨hdata, deltaId, hid, hadmits⟩ := (readObject_eq_ok_iff hkey).mp hread
  obtain ⟨hblack, hgate⟩ := admits_setEndorsementMode_iff.mp hadmits
  refine ⟨data, (readObject_of_fromStr hkey hid).mpr
    ⟨hdata, admits_setEndorsementMode_iff.mpr ⟨hblack, fun hwhite hmode => ?_⟩⟩⟩
  obtain ⟨hlist, hclean, hquorum⟩ := hgate hwhite (hpermissive hmode)
  exact ⟨hlist, hclean,
    hrule ⟨⟨data, hdata⟩, deltaId, hid, hblack, hwhite, hlist, hclean⟩ _ hquorum⟩

/-- A delta that can be evaluated without trusted keys breaks the chain:
nobody is everybody, and nobody is not a majority. -/
theorem not_strictnessChain_of_evaluable {t : TrustAdapter A} {key : String}
    (hkey : endsWith key ".delta" = true) (hnone : t.keystore.trustedKeyCount = 0)
    (heval : t.Evaluable key) : ¬ t.StrictnessChain key := by
  obtain ⟨⟨data, hdata⟩, deltaId, hid, hblack, hwhite, hlist, hclean⟩ := heval
  intro hchain
  have hcard : (t.authorisedEndorsers deltaId data).card = 0 :=
    Nat.le_zero.mp (hnone ▸ card_authorisedEndorsers_le t deltaId data)
  have hunanimous : t.Accepts .unanimous key :=
    ⟨data, (readObject_of_fromStr hkey hid).mpr ⟨hdata, admits_setEndorsementMode_iff.mpr
      ⟨hblack, fun _ _ => ⟨hlist, hclean, hcard.trans hnone.symm⟩⟩⟩⟩
  obtain ⟨data', hmajority⟩ := hchain.majority_of_unanimous hunanimous
  obtain ⟨-, hadmits⟩ := (readObject_of_fromStr hkey hid).mp hmajority
  obtain ⟨-, -, hquorum⟩ := (admits_setEndorsementMode_iff.mp hadmits).2 hwhite (by simp)
  rw [hnone] at hquorum
  exact Quorum.not_majority_zero _ hquorum

/-- The modes are ordered by strictness on a delta exactly when there is a
trusted key, or the gate does not get as far as counting its endorsers. -/
theorem strictnessChain_iff (t : TrustAdapter A) {key : String}
    (hkey : endsWith key ".delta" = true) :
    t.StrictnessChain key ↔ 0 < t.keystore.trustedKeyCount ∨ ¬ t.Evaluable key := by
  constructor
  · intro hchain
    rcases Nat.eq_zero_or_pos t.keystore.trustedKeyCount with hnone | hkeys
    · exact Or.inr fun heval => not_strictnessChain_of_evaluable hkey hnone heval hchain
    · exact Or.inl hkeys
  · intro hcond
    have hkeys : t.Evaluable key → 0 < t.keystore.trustedKeyCount :=
      fun heval => hcond.resolve_right fun hnot => hnot heval
    refine ⟨?_, ?_, ?_, ?_⟩
    · exact accepts_of_accepts hkey (by simp) fun heval _ h =>
        Quorum.majority_of_unanimity h (hkeys heval)
    · exact accepts_of_accepts hkey (by simp) fun _ _ h => Quorum.atLeastOne_of_majority h
    · exact accepts_of_accepts hkey (by simp) fun _ _ _ => trivial
    · intro mode deltaId data hmode hid hwhite hread
      obtain ⟨hdata, hadmits⟩ := (readObject_of_fromStr hkey hid).mp hread
      obtain ⟨hblack, hgate⟩ := admits_setEndorsementMode_iff.mp hadmits
      obtain ⟨hlist, hclean, hquorum⟩ := hgate hwhite hmode
      have heval : t.Evaluable key :=
        ⟨⟨data, hdata⟩, deltaId, hid, hblack, hwhite, hlist, hclean⟩
      exact Finset.card_pos.mp (mode.one_le_of_rule hmode (hkeys heval) hquorum)

end TrustAdapter

section

open Reference

/-- The modes are ordered for a reader with a trusted key. -/
theorem strictnessChain_iff_sample : (sampleTrust .single).StrictnessChain (sampleDelta 1).key :=
  (TrustAdapter.strictnessChain_iff _ (endsWith_key _)).mpr (Or.inl (by decide))

/-- Without trusted keys, the unanimous mode reads a delta that no one has
endorsed, and the majority mode does not. -/
theorem not_strictnessChain_empty :
    ¬ (sampleAdapter .unanimous ∅
      (repository [((sampleDelta 1).key, sampleData)] [])).StrictnessChain
        (sampleDelta 1).key := by
  have hrepo : EndorsedExactly (repository [((sampleDelta 1).key, sampleData)] []) _ :=
    endorsedExactly_repository (by decide) (by simp)
  have hscan := hrepo.cleanScan deltaIdLaws digitLaw signatureLaw base64Law serdeSliceLaw
    (sampleDelta 1)
  exact TrustAdapter.not_strictnessChain_of_evaluable (endsWith_key _) rfl
    ⟨⟨sampleData, MapAdapter.readObject_some (by decide)⟩, sampleDelta 1,
      fromKeyLaw _, rfl, rfl, MapAdapter.listObjects_ne_panic _ _, hscan⟩

end

/-! ## Majorities -/

namespace TrustAdapter

variable [Crates] {A : Type} [Adapter A] [SerdeSlice EndorsementRecord]

/-- The authorised endorsers of a delta that the majority mode accepts are a
majority of the trusted keys. -/
theorem majority_of_readObject {t : TrustAdapter A} (hmode : t.endorsementMode = .majority)
    {key : String} (hkey : endsWith key ".delta" = true) {deltaId : DeltaId}
    (hid : DeltaId.fromStr key = .ok deltaId)
    (hwhite : t.deltaFilter.isWhitelisted deltaId = false) {data : Bytes}
    (hread : t.readObject key 0 0 = .ok data) :
    Quorum.majority (t.authorisedEndorsers deltaId data).card t.keystore.trustedKeys.card := by
  obtain ⟨-, hblack, hgate⟩ := (readObject_of_fromStr hkey hid).mp hread
  obtain ⟨-, -, hquorum⟩ := hgate ⟨hblack, hwhite, by simp [hmode]⟩
  rw [hmode] at hquorum
  exact hquorum

/-- Two deltas that the majority mode accepts, and that are not whitelisted,
have a trusted endorser in common that may change the objects of both. -/
theorem exists_common_endorser (t : TrustAdapter A) (hmode : t.endorsementMode = .majority)
    {key₁ key₂ : String} (hkey₁ : endsWith key₁ ".delta" = true)
    (hkey₂ : endsWith key₂ ".delta" = true) {deltaId₁ deltaId₂ : DeltaId}
    (hid₁ : DeltaId.fromStr key₁ = .ok deltaId₁) (hid₂ : DeltaId.fromStr key₂ = .ok deltaId₂)
    (hwhite₁ : t.deltaFilter.isWhitelisted deltaId₁ = false)
    (hwhite₂ : t.deltaFilter.isWhitelisted deltaId₂ = false) {data₁ data₂ : Bytes}
    (hread₁ : t.readObject key₁ 0 0 = .ok data₁) (hread₂ : t.readObject key₂ 0 0 = .ok data₂) :
    ∃ vk ∈ t.keystore.trustedKeys,
      (Endorses t.inner deltaId₁ vk ∧ Endorses t.inner deltaId₂ vk) ∧
        t.Authorises data₁ vk ∧ t.Authorises data₂ vk := by
  obtain ⟨vk, hvk⟩ := Quorum.inter_nonempty_of_majority
    (authorisedEndorsers_subset_trustedKeys t deltaId₁ data₁)
    (authorisedEndorsers_subset_trustedKeys t deltaId₂ data₂)
    (majority_of_readObject hmode hkey₁ hid₁ hwhite₁ hread₁)
    (majority_of_readObject hmode hkey₂ hid₂ hwhite₂ hread₂)
  rw [Finset.mem_inter, mem_authorisedEndorsers, mem_authorisedEndorsers] at hvk
  obtain ⟨⟨htrusted, hendorses₁, hauthorises₁⟩, -, hendorses₂, hauthorises₂⟩ := hvk
  exact ⟨vk, htrusted, ⟨hendorses₁, hendorses₂⟩, hauthorises₁, hauthorises₂⟩

end TrustAdapter

section

open Reference

/-- Two deltas, and each has been endorsed by two of three keys. -/
def splitSigned : List (SigningKey × DeltaId) :=
  [(sampleKey 1, sampleDelta 1), (sampleKey 2, sampleDelta 1), (sampleKey 2, sampleDelta 2),
    (sampleKey 3, sampleDelta 2)]

def splitStore : MemoryMap :=
  repository [((sampleDelta 1).key, sampleData), ((sampleDelta 2).key, sampleData)] splitSigned

/-- A reader that asks for two of the three. -/
def splitTrust : TrustAdapter MemoryMap :=
  sampleAdapter .majority {(sampleKey 1).verifyingKey, (sampleKey 2).verifyingKey,
    (sampleKey 3).verifyingKey} splitStore

theorem endorsedExactly_splitStore :
    EndorsedExactly splitStore fun sk id => (sk, id) ∈ splitSigned := by
  apply endorsedExactly_repository (by decide)
  simp [splitSigned, isLowerHex_sampleDelta]

theorem readObject_splitTrust :
    splitTrust.readObject (sampleDelta 1).key 0 0 = .ok sampleData ∧
      splitTrust.readObject (sampleDelta 2).key 0 0 = .ok sampleData := by
  constructor
  · exact readObject_of_signed endorsedExactly_splitStore (objects_storeOf _ _)
      [sampleKey 1, sampleKey 2] (by simp [splitSigned]) (by simp) ⟨by decide, by decide⟩
  · exact readObject_of_signed endorsedExactly_splitStore (objects_storeOf _ _)
      [sampleKey 2, sampleKey 3] (by simp [splitSigned]) (by simp) ⟨by decide, by decide⟩

/-- The two majorities have a key in common. -/
theorem exists_common_endorser_sample :
    ∃ vk ∈ splitTrust.keystore.trustedKeys,
      (Endorses splitStore (sampleDelta 1) vk ∧ Endorses splitStore (sampleDelta 2) vk) ∧
        splitTrust.Authorises sampleData vk ∧ splitTrust.Authorises sampleData vk :=
  TrustAdapter.exists_common_endorser splitTrust rfl (endsWith_key _) (endsWith_key _)
    (fromKeyLaw _) (fromKeyLaw _) rfl rfl readObject_splitTrust.1 readObject_splitTrust.2

end

end MeldaSec
