import MeldaSec.Reference

/-!
# The endorsement of the local key

Before it signs, `endorse` looks at what lies under the name of its own
endorsement.  Everybody can write there.  A record that verifies is kept, and
whatever is not a record is written over, so that the local key cannot be
kept from endorsing.  `establishes_iff` names the one exception: a complete
record whose signature is not base64 text.
-/

namespace MeldaSec

open Rust

section

variable [Crates] {A : Type} [Adapter A] [SerdeSlice EndorsementRecord]

namespace TrustAdapter

/-- A call of `endorse` succeeds and leaves a record of the local key behind
that verifies, no other object changes, and a second call changes nothing. -/
structure Establishes (t : TrustAdapter A) (sk : SigningKey) (deltaId : DeltaId) : Prop where
  succeeds : (t.endorse deltaId).1 = .ok ()
  record : ∃ (endorsement : EndorsementRecord) (sig : Signature),
    (t.withInner (t.endorse deltaId).2).readEndorsementRecord (ownEndorsementKey sk deltaId)
        = .ok endorsement ∧
      Crates.base64Decode endorsement.signature = .ok sig.val ∧
      (SigningKey.verifyingKey sk).verify (asBytes deltaId.digest) sig = true
  others : ∀ name, name ≠ (ownEndorsementKey sk deltaId).fileName → ∀ bytes,
    Adapter.readObject (t.endorse deltaId).2 name 0 0 = .ok bytes ↔
      Adapter.readObject t.inner name 0 0 = .ok bytes
  again : ((t.withInner (t.endorse deltaId).2).endorse deltaId).2 = (t.endorse deltaId).2

/-- The record under the own name is complete, but its signature is not
base64 text. -/
def OwnSignatureUndecodable (t : TrustAdapter A) (sk : SigningKey) (deltaId : DeltaId) : Prop :=
  ∃ (endorsement : EndorsementRecord) (e : Error),
    t.readEndorsementRecord (ownEndorsementKey sk deltaId) = .ok endorsement ∧
      Crates.base64Decode endorsement.signature = .error e

/-! ## What lies under the own name -/

/-- Every other content of the own name is looked through. -/
theorem exists_alreadyEndorsed {t : TrustAdapter A} {sk : SigningKey} {deltaId : DeltaId}
    (hread : Adapter.readObject t.inner (ownEndorsementKey sk deltaId).fileName 0 0 ≠ .panic)
    (h : ¬ t.OwnSignatureUndecodable sk deltaId) :
    ∃ present, t.alreadyEndorsed sk deltaId = .ok present := by
  unfold alreadyEndorsed
  cases hrecord : t.readEndorsementRecord (ownEndorsementKey sk deltaId) with
  | panic => exact absurd hrecord (readEndorsementRecord_ne_panic hread)
  | err e => exact ⟨false, rfl⟩
  | ok endorsement =>
    cases hdecode : Crates.base64Decode endorsement.signature with
    | error e => exact absurd ⟨endorsement, e, hrecord, hdecode⟩ h
    | ok sg =>
      simp only [hdecode, Outcome.ofExcept_ok, Outcome.ok_bind]
      cases hsig : tryInto 64 sg with
      | none => exact ⟨false, rfl⟩
      | some sig =>
        simp only [VerifyingKey.fromBytes_val, Outcome.okOr_some, Outcome.ok_bind]
        exact ⟨_, rfl⟩

/-- The one exception is an error. -/
theorem alreadyEndorsed_of_undecodable {t : TrustAdapter A} {sk : SigningKey} {deltaId : DeltaId}
    (h : t.OwnSignatureUndecodable sk deltaId) : ∃ e, t.alreadyEndorsed sk deltaId = .err e := by
  obtain ⟨endorsement, e, hrecord, hdecode⟩ := h
  exact ⟨e, by simp only [alreadyEndorsed, hrecord, hdecode, Outcome.ofExcept_error,
    Outcome.err_bind]⟩

/-- A positive answer is about a held signature that verifies. -/
theorem alreadyEndorsed_eq_true_iff {t : TrustAdapter A} {sk : SigningKey} {deltaId : DeltaId} :
    t.alreadyEndorsed sk deltaId = .ok true ↔
      ∃ sig, HoldsSignature t.inner (ownEndorsementKey sk deltaId).fileName sig ∧
        (SigningKey.verifyingKey sk).verify (asBytes deltaId.digest) sig = true := by
  constructor
  · intro h
    rw [alreadyEndorsed] at h
    cases hrecord : t.readEndorsementRecord (ownEndorsementKey sk deltaId) with
    | panic => simp [hrecord] at h
    | err e => simp [hrecord] at h
    | ok endorsement =>
      simp only [hrecord, Outcome.bind_eq_ok_iff, Outcome.ofExcept_eq_ok_iff] at h
      obtain ⟨sg, hdecode, h⟩ := h
      cases hsig : tryInto 64 sg with
      | none => simp [hsig] at h
      | some sig =>
        simp only [hsig, VerifyingKey.fromBytes_val, Outcome.okOr_some, Outcome.ok_bind,
          Outcome.ok.injEq] at h
        exact ⟨sig, holdsSignature_iff.mpr ⟨endorsement, sg, hrecord, hdecode, hsig⟩, h⟩
  · intro hheld
    obtain ⟨sig, hsig, hverify⟩ := hheld
    exact alreadyEndorsed_of_holds hsig hverify

/-! ## The call -/

section

variable {t : TrustAdapter A} {sk : SigningKey} (hsk : t.keystore.endorsementKey = some sk)
  {deltaId : DeltaId}
include hsk

/-- A valid own endorsement is kept, and a call changes nothing. -/
theorem endorse_of_alreadyEndorsed (h : t.alreadyEndorsed sk deltaId = .ok true) :
    t.endorse deltaId = (.ok (), t.inner) := by
  simp only [endorse, hsk, h]

/-- A call that leaves a valid own endorsement behind establishes it. -/
theorem establishes_of_after (hok : (t.endorse deltaId).1 = .ok ())
    (hothers : ∀ name, name ≠ (ownEndorsementKey sk deltaId).fileName → ∀ bytes,
      Adapter.readObject (t.endorse deltaId).2 name 0 0 = .ok bytes ↔
        Adapter.readObject t.inner name 0 0 = .ok bytes)
    (hafter : (t.withInner (t.endorse deltaId).2).alreadyEndorsed sk deltaId = .ok true) :
    t.Establishes sk deltaId where
  succeeds := hok
  record := by
    obtain ⟨sig, hsig, hverify⟩ := alreadyEndorsed_eq_true_iff.mp hafter
    obtain ⟨endorsement, sigBytes, hrecord, hdecode, htry⟩ := holdsSignature_iff.mp hsig
    rw [tryInto_eq_some_iff.mp htry] at hdecode
    exact ⟨endorsement, sig, hrecord, hdecode, hverify⟩
  others := hothers
  again := by
    rw [endorse_of_alreadyEndorsed (t := t.withInner (t.endorse deltaId).2) hsk hafter]
    rfl

/-- `endorse` establishes a valid endorsement of the local key, whatever lies
under its name, unless a complete record without base64 text does.  The store
overwrites, and the record can be written. -/
theorem establishes_iff (hsign : SignatureLaw) (hbase64 : Base64Law)
    (hserde : SerdeSliceLaw EndorsementRecord) (hoverwrite : OverwriteLaw A)
    (hread : Adapter.readObject t.inner (ownEndorsementKey sk deltaId).fileName 0 0 ≠ .panic)
    (hwrite : ∀ bytes, SerdeSlice.toVec (signedRecord sk deltaId) = .ok bytes →
      (Adapter.writeObject t.inner (ownEndorsementKey sk deltaId).fileName bytes).1 = .ok ()) :
    t.Establishes sk deltaId ↔ ¬ t.OwnSignatureUndecodable sk deltaId := by
  constructor
  · intro h hbad
    obtain ⟨e, he⟩ := alreadyEndorsed_of_undecodable hbad
    have hok := h.succeeds
    simp [endorse, hsk, he] at hok
  · intro h
    obtain ⟨present, hpresent⟩ := exists_alreadyEndorsed hread h
    cases present with
    | true =>
      have hkept := endorse_of_alreadyEndorsed hsk hpresent
      refine establishes_of_after hsk ?_ ?_ ?_
      · rw [hkept]
      · rw [hkept]
        exact fun _ _ _ => Iff.rfl
      · rw [hkept]
        exact hpresent
    | false =>
      obtain ⟨bytes, hbytes, hparse⟩ := hserde (signedRecord sk deltaId)
      have hwritten : t.endorse deltaId
          = Adapter.writeObject t.inner (ownEndorsementKey sk deltaId).fileName bytes := by
        simp only [endorse, hsk, hpresent, writeEndorsement, hbytes]
      have hok := hwrite bytes hbytes
      refine establishes_of_after hsk ?_ ?_ ?_
      · rw [hwritten, hok]
      · rw [hwritten]
        exact fun name hname bytes' => hoverwrite.others hok hname
      · rw [hwritten, alreadyEndorsed_eq_true_iff]
        exact ⟨_, ⟨bytes, hoverwrite.written hok, _, hparse, rfl, rfl, hbase64 _⟩, hsign sk _⟩

end

end TrustAdapter

end

section

open Reference

/-- The text of a record with this signature. -/
def recordBytes (signature : String) : Bytes :=
  asBytes (String.ofList (writeRecord ⟨1, "Ed25519", signature⟩))

/-- A node with the first sample key, over a store with a record under the
name of its own endorsement of the first sample delta. -/
def plantedNode (signature : String) : TrustAdapter MemoryMap :=
  ⟨storeOf [((TrustAdapter.ownEndorsementKey (sampleKey 1) (sampleDelta 1)).fileName,
    recordBytes signature)], ⟨some (sampleKey 1), ∅, ∅⟩, DeltaFilter.new, allowAll, .single⟩

theorem readEndorsementRecord_plantedNode (signature : String) :
    (plantedNode signature).readEndorsementRecord
        (TrustAdapter.ownEndorsementKey (sampleKey 1) (sampleDelta 1))
      = .ok ⟨1, "Ed25519", signature⟩ := by
  refine readEndorsementRecord_eq_ok_iff.mpr ⟨recordBytes signature, ?_, ?_, rfl, rfl⟩
  · refine MapAdapter.readObject_some ?_
    rw [plantedNode, objects_storeOf, List.lookup_cons_self]
  · obtain ⟨bytes, hbytes, hparse⟩ := serdeSliceLaw ⟨1, "Ed25519", signature⟩
    rw [recordBytes, Except.ok.inj hbytes, hparse]

/-- A planted record without a signature is written over. -/
theorem establishes_iff_sample :
    (plantedNode "").Establishes (sampleKey 1) (sampleDelta 1) := by
  refine (TrustAdapter.establishes_iff rfl signatureLaw base64Law serdeSliceLaw
    MapAdapter.overwriteLaw (MapAdapter.readObject_ne_panic _ _)
    fun bytes _ => MapAdapter.writeObject_fst _ _ _).mpr ?_
  intro ⟨endorsement, e, hrecord, hdecode⟩
  obtain rfl := Outcome.ok.inj ((readEndorsementRecord_plantedNode "").symm.trans hrecord)
  cases hdecode

/-- A planted record with a signature that is not base64 text keeps the local
key from endorsing. -/
theorem plantedNode_not_establishes :
    ((plantedNode "!").endorse (sampleDelta 1)).1 = .err "Invalid symbol" ∧
      ¬ (plantedNode "!").Establishes (sampleKey 1) (sampleDelta 1) := by
  have hdecode : Crates.base64Decode "!" = .error "Invalid symbol" := rfl
  have herr : ((plantedNode "!").endorse (sampleDelta 1)).1 = .err "Invalid symbol" := by
    have hsk : (plantedNode "!").keystore.endorsementKey = some (sampleKey 1) := rfl
    simp only [TrustAdapter.endorse, hsk, TrustAdapter.alreadyEndorsed,
      readEndorsementRecord_plantedNode, hdecode, Outcome.ofExcept_error, Outcome.err_bind]
  refine ⟨herr, fun h => ?_⟩
  have hok := h.succeeds
  simp [herr] at hok

end

end MeldaSec
