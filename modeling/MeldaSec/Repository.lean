import MeldaSec.Gate

/-!
# Stores whose endorsements were all written by `endorse`

`EndorsedExactly store signed` says that the `.sig` objects of a store are
the records that `endorse` writes for the pairs in `signed`, one for each
pair of a delta and a public key.  In such a store the scan of every delta is
clean, and its result is known: the valid keys are the trusted ones among the
signers of the delta, and the invalid keys are the others.

The signatures do not occur in that result, so two such stores for the same
pairs are read alike, however their records came about.
-/

namespace MeldaSec

open Rust

variable [Crates] {M : Type} [MapAdapter M] [SerdeSlice EndorsementRecord]

/-! ## What `endorse` reads and writes -/

omit [SerdeSlice EndorsementRecord] in
/-- The name of an own endorsement reads back. -/
theorem fromStr_own_of_lowerHex (hdelta : DeltaIdLaws) (hdigit : DigitLaw) (sk : SigningKey)
    {deltaId : DeltaId} (hdigest : IsLowerHex deltaId.digest) :
    EndorsementKey.fromStr (TrustAdapter.ownEndorsementKey sk deltaId).fileName
      = .ok (TrustAdapter.ownEndorsementKey sk deltaId) := by
  have hlen := (SigningKey.verifyingKey sk).val.property
  refine EndorsementKey.fromStr_fileName hdelta hdigit hdigest ?_
  intro hnil
  rw [VerifyingKey.toBytes] at hnil
  simp [hnil] at hlen

/-- A key without an object under its name has not endorsed yet. -/
theorem TrustAdapter.alreadyEndorsed_of_none {t : TrustAdapter M} {sk : SigningKey}
    {deltaId : DeltaId} (h : MapAdapter.objects t.inner
      (TrustAdapter.ownEndorsementKey sk deltaId).fileName = none) :
    t.alreadyEndorsed sk deltaId = .ok false := by
  obtain ⟨e, he⟩ := MapAdapter.readObject_none h
  simp only [TrustAdapter.alreadyEndorsed, TrustAdapter.readEndorsementRecord, he,
    Outcome.err_bind]

theorem TrustAdapter.endorse_of_none {t : TrustAdapter M} {sk : SigningKey} {deltaId : DeltaId}
    (hsk : t.keystore.endorsementKey = some sk) (h : MapAdapter.objects t.inner
      (TrustAdapter.ownEndorsementKey sk deltaId).fileName = none) :
    t.endorse deltaId = t.writeEndorsement sk deltaId := by
  simp only [TrustAdapter.endorse, hsk, TrustAdapter.alreadyEndorsed_of_none h]

/-- A key whose record verifies has endorsed. -/
theorem TrustAdapter.alreadyEndorsed_of_holds {A : Type} [Adapter A] {t : TrustAdapter A}
    {sk : SigningKey} {deltaId : DeltaId} {sig : Signature}
    (hsig : HoldsSignature t.inner (TrustAdapter.ownEndorsementKey sk deltaId).fileName sig)
    (hverify : (SigningKey.verifyingKey sk).verify (asBytes deltaId.digest) sig = true) :
    t.alreadyEndorsed sk deltaId = .ok true := by
  obtain ⟨endorsement, sigBytes, hread, hdecode, htry⟩ := holdsSignature_iff.mp hsig
  simp only [TrustAdapter.alreadyEndorsed, hread, hdecode, htry, Outcome.ofExcept_ok,
    Outcome.ok_bind, VerifyingKey.fromBytes_val, Outcome.okOr_some, hverify]

/-- The second half of `endorse` writes the record of the key, as every
record can be serialized. -/
theorem TrustAdapter.writeEndorsement_eq (hserde : SerdeSliceLaw EndorsementRecord)
    (t : TrustAdapter M) (sk : SigningKey) (deltaId : DeltaId) :
    ∃ bytes, SerdeSlice.toVec (TrustAdapter.signedRecord sk deltaId) = .ok bytes ∧
      (t.writeEndorsement sk deltaId).1 = .ok () ∧
      MapAdapter.objects (t.writeEndorsement sk deltaId).2
        = Function.update (MapAdapter.objects t.inner)
            (TrustAdapter.ownEndorsementKey sk deltaId).fileName (some bytes) := by
  obtain ⟨bytes, hbytes, -⟩ := hserde (TrustAdapter.signedRecord sk deltaId)
  rw [TrustAdapter.writeEndorsement, hbytes]
  exact ⟨bytes, rfl, MapAdapter.writeObject_fst _ _ _, MapAdapter.objects_writeObject _ _ _⟩

/-- `endorse` leaves the store alone, or writes the record of the local key. -/
theorem TrustAdapter.endorse_cases (hserde : SerdeSliceLaw EndorsementRecord)
    (t : TrustAdapter M) (deltaId : DeltaId) :
    MapAdapter.objects (t.endorse deltaId).2 = MapAdapter.objects t.inner ∨
      ∃ sk bytes, t.keystore.endorsementKey = some sk ∧
        SerdeSlice.toVec (TrustAdapter.signedRecord sk deltaId) = .ok bytes ∧
        MapAdapter.objects (t.endorse deltaId).2
          = Function.update (MapAdapter.objects t.inner)
              (TrustAdapter.ownEndorsementKey sk deltaId).fileName (some bytes) := by
  unfold TrustAdapter.endorse
  cases t.keystore.endorsementKey with
  | none => exact Or.inl rfl
  | some sk =>
    simp only
    cases t.alreadyEndorsed sk deltaId with
    | panic => exact Or.inl rfl
    | err e => exact Or.inl rfl
    | ok present =>
      cases present with
      | true => exact Or.inl rfl
      | false =>
        obtain ⟨bytes, hbytes, -, hwrite⟩ := t.writeEndorsement_eq hserde sk deltaId
        exact Or.inr ⟨sk, bytes, rfl, hbytes, hwrite⟩

/-- It leaves all other objects alone. -/
theorem objects_endorse_of_not_sig (hserde : SerdeSliceLaw EndorsementRecord)
    (t : TrustAdapter M) (deltaId : DeltaId) {name : String}
    (hname : endsWith name ".sig" = false) :
    MapAdapter.objects (t.endorse deltaId).2 name = MapAdapter.objects t.inner name := by
  rcases t.endorse_cases hserde deltaId with hsame | ⟨sk, bytes, -, -, hwrite⟩
  · rw [hsame]
  · rw [hwrite]
    apply Function.update_of_ne
    intro heq
    rw [heq, EndorsementKey.endsWith_fileName] at hname
    cases hname

/-! ## The invariant of such a store -/

/-- The `.sig` objects of the store are the written endorsements of `signed`.
Two signing keys with one public key share an object, and either may have
written it. -/
structure EndorsedExactly (store : M) (signed : SigningKey → DeltaId → Prop) : Prop where
  written : ∀ name bytes, MapAdapter.objects store name = some bytes →
    endsWith name ".sig" = true → ∃ sk deltaId, signed sk deltaId ∧
      name = (TrustAdapter.ownEndorsementKey sk deltaId).fileName ∧
      SerdeSlice.toVec (TrustAdapter.signedRecord sk deltaId) = .ok bytes
  present : ∀ sk deltaId, signed sk deltaId →
    ∃ bytes, MapAdapter.objects store (TrustAdapter.ownEndorsementKey sk deltaId).fileName
      = some bytes
  lowerHex : ∀ sk deltaId, signed sk deltaId → IsLowerHex deltaId.digest

/-- Some holder of the key signed the delta. -/
def SignedBy (signed : SigningKey → DeltaId → Prop) (deltaId : DeltaId)
    (vk : VerifyingKey) : Prop :=
  ∃ sk, signed sk deltaId ∧ SigningKey.verifyingKey sk = vk

namespace EndorsedExactly

variable {store : M} {signed : SigningKey → DeltaId → Prop}

/-- A store without `.sig` objects has no endorsements. -/
theorem empty (h : ∀ name bytes, MapAdapter.objects store name = some bytes →
    endsWith name ".sig" = false) : EndorsedExactly store fun _ _ => False where
  written name bytes hobj hsuffix := by simp [h name bytes hobj] at hsuffix
  present _ _ hsigned := hsigned.elim
  lowerHex _ _ hsigned := hsigned.elim

/-- Writing the record of `sk` for a delta adds that pair. -/
theorem insert (h : EndorsedExactly store signed) {store' : M} {sk : SigningKey}
    {deltaId : DeltaId} {bytes : Bytes} (hdigest : IsLowerHex deltaId.digest)
    (hbytes : SerdeSlice.toVec (TrustAdapter.signedRecord sk deltaId) = .ok bytes)
    (hwrite : MapAdapter.objects store' = Function.update (MapAdapter.objects store)
      (TrustAdapter.ownEndorsementKey sk deltaId).fileName (some bytes)) :
    EndorsedExactly store' fun sk' deltaId' =>
      signed sk' deltaId' ∨ (sk' = sk ∧ deltaId' = deltaId) where
  written name bytes' hobj hsuffix := by
    by_cases hname : name = (TrustAdapter.ownEndorsementKey sk deltaId).fileName
    · subst hname
      rw [hwrite, Function.update_self] at hobj
      obtain rfl := Option.some.inj hobj
      exact ⟨sk, deltaId, Or.inr ⟨rfl, rfl⟩, rfl, hbytes⟩
    · rw [hwrite, Function.update_of_ne hname] at hobj
      obtain ⟨sk', deltaId', hsigned, hname', hbytes'⟩ := h.written name bytes' hobj hsuffix
      exact ⟨sk', deltaId', Or.inl hsigned, hname', hbytes'⟩
  present sk' deltaId' hsigned := by
    by_cases hname : (TrustAdapter.ownEndorsementKey sk' deltaId').fileName
        = (TrustAdapter.ownEndorsementKey sk deltaId).fileName
    · exact ⟨bytes, by rw [hwrite, hname, Function.update_self]⟩
    · rw [hwrite, Function.update_of_ne hname]
      rcases hsigned with hsigned | ⟨rfl, rfl⟩
      · exact h.present sk' deltaId' hsigned
      · exact absurd rfl hname
  lowerHex sk' deltaId' hsigned := by
    rcases hsigned with hsigned | ⟨-, rfl⟩
    · exact h.lowerHex sk' deltaId' hsigned
    · exact hdigest

/-- A pair of a signing key whose public key has signed the delta adds
nothing. -/
theorem insert_of_signedBy (h : EndorsedExactly store signed) {sk : SigningKey}
    {deltaId : DeltaId} (hsigner : SignedBy signed deltaId (SigningKey.verifyingKey sk)) :
    EndorsedExactly store fun sk' deltaId' =>
      signed sk' deltaId' ∨ (sk' = sk ∧ deltaId' = deltaId) where
  written name bytes hobj hsuffix := by
    obtain ⟨sk', deltaId', hsigned, hname, hbytes⟩ := h.written name bytes hobj hsuffix
    exact ⟨sk', deltaId', Or.inl hsigned, hname, hbytes⟩
  present sk' deltaId' hsigned := by
    rcases hsigned with hsigned | ⟨rfl, rfl⟩
    · exact h.present sk' deltaId' hsigned
    · obtain ⟨sk'', hsigned, hvk⟩ := hsigner
      rw [TrustAdapter.ownEndorsementKey, ← hvk]
      exact h.present sk'' deltaId' hsigned
  lowerHex sk' deltaId' hsigned := by
    rcases hsigned with hsigned | ⟨-, rfl⟩
    · exact h.lowerHex sk' deltaId' hsigned
    · obtain ⟨sk'', hsigned, -⟩ := hsigner
      exact h.lowerHex sk'' deltaId' hsigned

theorem congr (h : EndorsedExactly store signed) {signed' : SigningKey → DeltaId → Prop}
    (hiff : ∀ sk deltaId, signed sk deltaId ↔ signed' sk deltaId) :
    EndorsedExactly store signed' := by
  have heq : signed = signed' := funext fun sk => funext fun deltaId => propext (hiff sk deltaId)
  exact heq ▸ h

theorem fromStr_own (hdelta : DeltaIdLaws) (hdigit : DigitLaw)
    (h : EndorsedExactly store signed) {sk : SigningKey} {deltaId : DeltaId}
    (hsigned : signed sk deltaId) :
    EndorsementKey.fromStr (TrustAdapter.ownEndorsementKey sk deltaId).fileName
      = .ok (TrustAdapter.ownEndorsementKey sk deltaId) :=
  fromStr_own_of_lowerHex hdelta hdigit sk (h.lowerHex sk deltaId hsigned)

/-- Every listed name is the written name of a signer, and its object holds a
signature that verifies under the key of that signer. -/
theorem exists_signer_of_mem (hdelta : DeltaIdLaws) (hdigit : DigitLaw) (hsign : SignatureLaw)
    (hbase64 : Base64Law) (hserde : SerdeSliceLaw EndorsementRecord)
    (h : EndorsedExactly store signed) {name : String} (hname : name ∈ sigNames store) :
    ∃ sk deltaId, signed sk deltaId ∧
      name = (TrustAdapter.ownEndorsementKey sk deltaId).fileName ∧
      EndorsementKey.fromStr name = .ok (TrustAdapter.ownEndorsementKey sk deltaId) ∧
      ∃ sig, HoldsSignature store name sig ∧
        (SigningKey.verifyingKey sk).verify (asBytes deltaId.digest) sig = true := by
  obtain ⟨hsome, hsuffix⟩ := mem_sigNames.mp hname
  obtain ⟨bytes, hobj⟩ := Option.isSome_iff_exists.mp hsome
  obtain ⟨sk, deltaId, hsigned, rfl, hbytes⟩ := h.written name bytes hobj hsuffix
  exact ⟨sk, deltaId, hsigned, rfl, h.fromStr_own hdelta hdigit hsigned, _,
    holdsSignature_signedRecord hbase64 hserde hbytes hobj, hsign sk _⟩

/-- The name of a signer is listed. -/
theorem own_mem_sigNames (h : EndorsedExactly store signed) {sk : SigningKey}
    {deltaId : DeltaId} (hsigned : signed sk deltaId) :
    (TrustAdapter.ownEndorsementKey sk deltaId).fileName ∈ sigNames store := by
  obtain ⟨bytes, hobj⟩ := h.present sk deltaId hsigned
  exact mem_sigNames.mpr ⟨by rw [hobj]; rfl, EndorsementKey.endsWith_fileName _⟩

section

variable (hdelta : DeltaIdLaws) (hdigit : DigitLaw) (hsign : SignatureLaw)
  (hbase64 : Base64Law) (hserde : SerdeSliceLaw EndorsementRecord)
include hdelta hdigit hsign hbase64 hserde

/-- The scan of every delta is clean. -/
theorem cleanScan (h : EndorsedExactly store signed) (deltaId : DeltaId) :
    CleanScan store deltaId := by
  intro name hname
  obtain ⟨sk, deltaId', -, rfl, hkey, sig, hsig, -⟩ :=
    h.exists_signer_of_mem hdelta hdigit hsign hbase64 hserde hname
  exact Or.inr ⟨_, hkey, fun _ => ⟨sig, SigningKey.verifyingKey sk, hsig, rfl⟩⟩

/-- A listed name that reads as `vk` and the delta belongs to a signer, and
what it holds verifies. -/
theorem signedBy_of_fromStr (h : EndorsedExactly store signed) {name : String}
    (hname : name ∈ sigNames store) {deltaId : DeltaId} {vk : VerifyingKey}
    (hkey : EndorsementKey.fromStr name = .ok ⟨deltaId, vk.toBytes⟩) :
    SignedBy signed deltaId vk ∧
      ∀ sig, HoldsSignature store (EndorsementKey.fileName ⟨deltaId, vk.toBytes⟩) sig →
        vk.verify (asBytes deltaId.digest) sig = true := by
  obtain ⟨sk, deltaId', hsigned, rfl, hkey', sig, hsig, hverify⟩ :=
    h.exists_signer_of_mem hdelta hdigit hsign hbase64 hserde hname
  have hpair := Outcome.ok.inj (hkey.symm.trans hkey')
  rw [TrustAdapter.ownEndorsementKey, EndorsementKey.mk.injEq] at hpair
  obtain ⟨rfl, hpk⟩ := hpair
  obtain rfl := VerifyingKey.toBytes_injective hpk
  refine ⟨⟨sk, hsigned, rfl⟩, fun sig' hsig' => ?_⟩
  rw [hsig'.unique hsig]
  exact hverify

/-- The endorsers of a delta are its signers. -/
theorem endorses_iff_signedBy (h : EndorsedExactly store signed) {deltaId : DeltaId}
    {vk : VerifyingKey} : Endorses store deltaId vk ↔ SignedBy signed deltaId vk := by
  constructor
  · rintro ⟨name, hname, hkey, -⟩
    exact (h.signedBy_of_fromStr hdelta hdigit hsign hbase64 hserde hname hkey).1
  · rintro ⟨sk, hsigned, rfl⟩
    have hname := h.own_mem_sigNames hsigned
    obtain ⟨-, -, -, -, -, sig, hsig, -⟩ :=
      h.exists_signer_of_mem hdelta hdigit hsign hbase64 hserde hname
    have hkey := h.fromStr_own hdelta hdigit hsigned
    exact ⟨_, hname, hkey, sig, hsig,
      (h.signedBy_of_fromStr hdelta hdigit hsign hbase64 hserde hname hkey).2 sig hsig⟩

/-- In such a store the first half of `endorse` has an answer, and a positive
answer means that a holder of the key has signed the delta. -/
theorem exists_alreadyEndorsed (h : EndorsedExactly store signed) {t : TrustAdapter M}
    (ht : t.inner = store) (sk : SigningKey) {deltaId : DeltaId}
    (hdigest : IsLowerHex deltaId.digest) :
    ∃ present, t.alreadyEndorsed sk deltaId = .ok present ∧
      (present = true → SignedBy signed deltaId (SigningKey.verifyingKey sk)) := by
  subst ht
  cases hobj : MapAdapter.objects t.inner
      (TrustAdapter.ownEndorsementKey sk deltaId).fileName with
  | none => exact ⟨false, TrustAdapter.alreadyEndorsed_of_none hobj, by simp⟩
  | some bytes =>
    have hname : (TrustAdapter.ownEndorsementKey sk deltaId).fileName ∈ sigNames t.inner :=
      mem_sigNames.mpr ⟨by rw [hobj]; rfl, EndorsementKey.endsWith_fileName _⟩
    have hkey := fromStr_own_of_lowerHex hdelta hdigit sk hdigest
    have hsigner := h.signedBy_of_fromStr hdelta hdigit hsign hbase64 hserde hname hkey
    obtain ⟨-, -, -, -, -, sig, hsig, -⟩ :=
      h.exists_signer_of_mem hdelta hdigit hsign hbase64 hserde hname
    exact ⟨true, TrustAdapter.alreadyEndorsed_of_holds hsig (hsigner.2 sig hsig),
      fun _ => hsigner.1⟩

/-- After a call of `endorse` the store has the endorsement of the caller. -/
theorem endorse (h : EndorsedExactly store signed) {t : TrustAdapter M} (ht : t.inner = store)
    {sk : SigningKey} (hsk : t.keystore.endorsementKey = some sk) {deltaId : DeltaId}
    (hdigest : IsLowerHex deltaId.digest) :
    EndorsedExactly (t.endorse deltaId).2 fun sk' deltaId' =>
      signed sk' deltaId' ∨ (sk' = sk ∧ deltaId' = deltaId) := by
  obtain ⟨present, hpresent, hsigner⟩ :=
    h.exists_alreadyEndorsed hdelta hdigit hsign hbase64 hserde ht sk hdigest
  subst ht
  cases present with
  | true =>
    simp only [TrustAdapter.endorse, hsk, hpresent]
    exact h.insert_of_signedBy (hsigner rfl)
  | false =>
    obtain ⟨bytes, hbytes, -, hwrite⟩ := t.writeEndorsement_eq hserde sk deltaId
    simp only [TrustAdapter.endorse, hsk, hpresent]
    exact h.insert hdigest hbytes hwrite

/-- What the scan of such a store returns. -/
theorem exists_fetchEndorsements (h : EndorsedExactly store signed) {t : TrustAdapter M}
    (ht : t.inner = store) (deltaId : DeltaId) :
    ∃ result, t.fetchEndorsements deltaId = .ok result ∧
      (∀ pk, pk ∈ result.valid ↔ ∃ vk ∈ t.keystore.trustedKeys, vk.toBytes = pk ∧
        SignedBy signed deltaId vk) ∧
      (∀ pk, pk ∈ result.invalid ↔ ∃ vk, vk ∉ t.keystore.trustedKeys ∧ vk.toBytes = pk ∧
        SignedBy signed deltaId vk) := by
  subst ht
  obtain ⟨result, hfetch⟩ := exists_fetchEndorsements_iff.mpr
    ⟨MapAdapter.listObjects_ne_panic _ _, h.cleanScan hdelta hdigit hsign hbase64 hserde deltaId⟩
  have hsigned : ∀ vk, Endorses t.inner deltaId vk ↔ SignedBy signed deltaId vk :=
    fun _ => h.endorses_iff_signedBy hdelta hdigit hsign hbase64 hserde
  refine ⟨result, hfetch, fun pk => ?_, fun pk => ?_⟩
  · simp only [mem_valid_iff hfetch, hsigned]
  · rw [mem_invalid_iff hfetch]
    constructor
    · rintro ⟨vk, rfl, name, hname, hkey, sig, hsig, hinvalid⟩
      have hsigner := h.signedBy_of_fromStr hdelta hdigit hsign hbase64 hserde hname hkey
      exact ⟨vk, fun htrusted => hinvalid ⟨htrusted, hsigner.2 sig hsig⟩, rfl, hsigner.1⟩
    · rintro ⟨vk, huntrusted, rfl, hsigner⟩
      obtain ⟨name, hname, hkey, sig, hsig, -⟩ := (hsigned vk).mpr hsigner
      exact ⟨vk, rfl, name, hname, hkey, sig, hsig, fun hvalid => huntrusted hvalid.1⟩

/-- A delta is admitted when enough trusted keys signed it and may sign it. -/
theorem admits_of_signed (h : EndorsedExactly store signed) {t : TrustAdapter M}
    (ht : t.inner = store) {deltaId : DeltaId} {data : Bytes}
    (hblack : t.deltaFilter.isBlacklisted deltaId = false) {voters : Finset VerifyingKey}
    (htrusted : voters ⊆ t.keystore.trustedKeys)
    (hrule : t.endorsementMode.rule voters.card t.keystore.trustedKeyCount)
    (hvoters : ∀ vk ∈ voters, SignedBy signed deltaId vk ∧ t.Authorises data vk) :
    t.Admits deltaId data := by
  subst ht
  refine ⟨hblack, fun _ => ⟨MapAdapter.listObjects_ne_panic _ _,
    h.cleanScan hdelta hdigit hsign hbase64 hserde deltaId, ?_⟩⟩
  refine t.endorsementMode.rule_monotone (Finset.card_le_card ?_)
    (TrustAdapter.card_authorisedEndorsers_le _ _ _) hrule
  intro vk hvk
  rw [TrustAdapter.mem_authorisedEndorsers,
    h.endorses_iff_signedBy hdelta hdigit hsign hbase64 hserde]
  exact ⟨htrusted hvk, hvoters vk hvk⟩

/-- A delta that every trusted key signed and may sign is admitted in every
mode, as soon as there is a trusted key. -/
theorem admits_of_all_signed (h : EndorsedExactly store signed) {t : TrustAdapter M}
    (ht : t.inner = store) {deltaId : DeltaId} {data : Bytes}
    (hblack : t.deltaFilter.isBlacklisted deltaId = false)
    (hkeys : 0 < t.keystore.trustedKeyCount)
    (hall : ∀ vk ∈ t.keystore.trustedKeys,
      SignedBy signed deltaId vk ∧ t.Authorises data vk) :
    t.Admits deltaId data := by
  apply h.admits_of_signed hdelta hdigit hsign hbase64 hserde ht hblack subset_rfl _ hall
  have hunanimity : Quorum.unanimity t.keystore.trustedKeys.card t.keystore.trustedKeyCount := rfl
  have hmajority := Quorum.majority_of_unanimity hunanimity hkeys
  cases t.endorsementMode with
  | permissive => trivial
  | single => exact Quorum.atLeastOne_of_majority hmajority
  | majority => exact hmajority
  | unanimous => exact hunanimity

end

end EndorsedExactly

end MeldaSec
