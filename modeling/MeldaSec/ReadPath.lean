import MeldaSec.Reference

/-!
# The two ways to read a delta

A whole read of a delta goes through the gate, and `readObject_exact` says
which deltas come out of it, in terms of the trusted keys.  A read with an
offset or a length leaves before the gate, so the gate says nothing about it;
`sliceGated_iff` says when such a read is covered by the gate all the same.
-/

namespace MeldaSec

open Rust

namespace TrustAdapter

section

variable [Crates] {A : Type} [Adapter A] [SerdeSlice EndorsementRecord]

/-! ## Whole reads -/

/-- The gate in words: a delta that is not blacklisted, and that is
whitelisted or has enough authorised endorsers or is not asked for any. -/
theorem admits_iff {t : TrustAdapter A} {deltaId : DeltaId} {data : Bytes} :
    t.Admits deltaId data ↔
      t.deltaFilter.isBlacklisted deltaId = false ∧
        (t.deltaFilter.isWhitelisted deltaId = true ∨ t.endorsementMode = .permissive ∨
          (∃ result, t.fetchEndorsements deltaId = .ok result) ∧
            t.endorsementMode.rule (t.authorisedEndorsers deltaId data).card
              t.keystore.trustedKeyCount) := by
  rw [Admits, exists_fetchEndorsements_iff, and_assoc]
  refine and_congr_right fun hblack => ?_
  rw [gated_iff hblack]
  cases hwhite : t.deltaFilter.isWhitelisted deltaId with
  | true => simp
  | false =>
    by_cases hmode : t.endorsementMode = .permissive
    · simp [hmode]
    · simp [hmode, beq_eq_false_iff_ne.mpr hmode]

/-- A whole read of a delta returns its stored bytes exactly when the delta
is not blacklisted, and it is whitelisted, or the mode asks for nothing, or
the endorsements can be fetched and enough trusted keys endorse the delta and
may change each of its objects. -/
theorem readObject_exact (t : TrustAdapter A) {key : String}
    (hkey : endsWith key ".delta" = true) (data : Bytes) :
    t.readObject key 0 0 = .ok data ↔
      Adapter.readObject t.inner key 0 0 = .ok data ∧
        ∃ deltaId, DeltaId.fromStr key = .ok deltaId ∧
          t.deltaFilter.isBlacklisted deltaId = false ∧
          (t.deltaFilter.isWhitelisted deltaId = true ∨ t.endorsementMode = .permissive ∨
            (∃ result, t.fetchEndorsements deltaId = .ok result) ∧
              let count := (t.authorisedEndorsers deltaId data).card
              let trustedCount := t.keystore.trustedKeyCount
              (t.endorsementMode = .single → 1 ≤ count) ∧
              (t.endorsementMode = .majority → 0 < trustedCount ∧ trustedCount < 2 * count) ∧
              (t.endorsementMode = .unanimous → count = trustedCount)) := by
  have hrule : ∀ count trustedCount, t.endorsementMode.rule count trustedCount ↔
      (t.endorsementMode = .single → 1 ≤ count) ∧
      (t.endorsementMode = .majority → 0 < trustedCount ∧ trustedCount < 2 * count) ∧
      (t.endorsementMode = .unanimous → count = trustedCount) := by
    intro count trustedCount
    cases t.endorsementMode <;>
      simp [EndorsementMode.rule, Quorum.always, Quorum.atLeastOne, Quorum.majority,
        Quorum.unanimity]
  rw [readObject_eq_ok_iff hkey]
  simp only [admits_iff, hrule]

/-- `check_delta` says yes to exactly the stored deltas that are admitted. -/
theorem checkDelta_eq_true_iff (hdelta : DeltaIdLaws) {t : TrustAdapter A} {deltaId : DeltaId}
    (hdigest : IsLowerHex deltaId.digest) :
    t.checkDelta deltaId = .ok true ↔
      ∃ data, Adapter.readObject t.inner deltaId.key 0 0 = .ok data ∧ t.Admits deltaId data := by
  have hread : ∀ data, t.readObject deltaId.key 0 0 = .ok data ↔
      Adapter.readObject t.inner deltaId.key 0 0 = .ok data ∧ t.Admits deltaId data :=
    fun _ => readObject_of_fromStr (hdelta.endsWith_key deltaId)
      (hdelta.fromStr_key deltaId hdigest)
  simp only [← hread, checkDelta]
  cases t.readObject deltaId.key 0 0 <;> simp

end

end TrustAdapter

section

open Reference

/-- The sample delta is read by a majority of one. -/
theorem readObject_exact_sample :
    (sampleTrust .majority).keystore.trustedKeyCount
      < 2 * ((sampleTrust .majority).authorisedEndorsers (sampleDelta 1) sampleData).card := by
  have hread := readObject_sampleTrust .majority (Or.inl rfl)
  obtain ⟨-, deltaId, hid, -, hgate⟩ :=
    (TrustAdapter.readObject_exact _ (endsWith_key _) _).mp hread
  obtain rfl := Outcome.ok.inj (hid.symm.trans (fromKeyLaw _))
  rcases hgate with hwhite | hmode | ⟨-, -, hmajority, -⟩
  · cases hwhite
  · cases hmode
  · exact (hmajority rfl).2

end

/-! ## Reads of a part -/

namespace TrustAdapter

variable [Crates] {A : Type} [Adapter A] [SerdeSlice EndorsementRecord]

/-- What a read returns is a part of what the whole read returns. -/
def SliceGated (t : TrustAdapter A) (key : String) (offset length : UInt64) : Prop :=
  ∀ out, t.readObject key offset length = .ok out →
    ∃ data, t.readObject key 0 0 = .ok data ∧
      out = if offset = 0 ∧ length = 0 then data
        else (data.drop offset.toNat).take length.toNat

/-- The requested part lies inside of the object. -/
def InRange (object : Bytes) (offset length : UInt64) : Prop :=
  offset.toNat + length.toNat < UInt64.size ∧ offset.toNat + length.toNat ≤ object.length

/-- With an offset or a length, the gate is not asked. -/
theorem readObject_part (t : TrustAdapter A) (key : String) {offset length : UInt64}
    (hpart : ¬ (offset = 0 ∧ length = 0)) :
    t.readObject key offset length = (do
      let data ← Adapter.readObject t.inner key 0 0
      sliceOrErr "invalid_slice" data offset length) := by
  have hwhole : (offset == 0 && length == 0) = false := by
    rw [Bool.and_eq_false_iff, beq_eq_false_iff_ne, beq_eq_false_iff_ne]
    exact not_and_or.mp hpart
  have hopen : (!endsWith key ".delta" || offset != 0 || length != 0) = true := by
    rw [Bool.or_assoc, bne, bne, ← Bool.not_and, hwhole, Bool.not_false, Bool.or_true]
  simp only [readObject, hopen, hwhole, if_true, Bool.false_eq_true, if_false]

/-- A part of a delta is covered by the gate exactly when it is the whole
read, or lies outside of the object, or the delta is admitted. -/
theorem sliceGated_iff (t : TrustAdapter A) {key : String}
    (hkey : endsWith key ".delta" = true) (offset length : UInt64) :
    t.SliceGated key offset length ↔
      (offset = 0 ∧ length = 0) ∨
        ∀ object, Adapter.readObject t.inner key 0 0 = .ok object →
          InRange object offset length →
            ∃ deltaId, DeltaId.fromStr key = .ok deltaId ∧ t.Admits deltaId object := by
  by_cases hwhole : offset = 0 ∧ length = 0
  · refine ⟨fun _ => Or.inl hwhole, fun _ out hout => ?_⟩
    obtain ⟨rfl, rfl⟩ := hwhole
    exact ⟨out, hout, by simp⟩
  rw [SliceGated, readObject_part t key hwhole]
  simp only [hwhole, false_or, if_false, Outcome.bind_eq_ok_iff, sliceOrErr_eq_ok_iff,
    readObject_eq_ok_iff hkey]
  constructor
  · intro h object hobject hrange
    obtain ⟨data, ⟨hdata, hadmits⟩, -⟩ := h _ ⟨object, hobject, hrange.1, hrange.2, rfl⟩
    obtain rfl := Outcome.ok.inj (hobject.symm.trans hdata)
    exact hadmits
  · rintro h out ⟨object, hobject, hlt, hle, rfl⟩
    exact ⟨object, ⟨hobject, h object hobject ⟨hlt, hle⟩⟩, rfl⟩

end TrustAdapter

section

open Reference

/-- The first byte of the sample delta is covered by the gate. -/
theorem sliceGated_iff_sample :
    (sampleTrust .unanimous).SliceGated (sampleDelta 1).key 0 1 := by
  have hread := readObject_sampleTrust .unanimous (Or.inl rfl)
  obtain ⟨hdata, hadmits⟩ := (TrustAdapter.readObject_eq_ok_iff (endsWith_key _)).mp hread
  refine (TrustAdapter.sliceGated_iff _ (endsWith_key _) 0 1).mpr (Or.inr ?_)
  intro object hobject _
  obtain rfl := Outcome.ok.inj (hdata.symm.trans hobject)
  exact hadmits

/-- A reader that blacklists the sample delta. -/
def blacklistingTrust : TrustAdapter MemoryMap :=
  { sampleTrust .unanimous with
    deltaFilter := (DeltaFilter.new.addToBlacklist (sampleDelta 1)).2 }

/-- The first byte of a blacklisted delta can be read. -/
theorem blacklistingTrust_not_sliceGated :
    ¬ blacklistingTrust.SliceGated (sampleDelta 1).key 0 1 := by
  intro h
  have hobject : Adapter.readObject blacklistingTrust.inner (sampleDelta 1).key 0 0
      = .ok sampleData := MapAdapter.readObject_some (by decide)
  have hpart : blacklistingTrust.readObject (sampleDelta 1).key 0 1 = .ok (sampleData.take 1) := by
    rw [TrustAdapter.readObject_part _ _ (by decide), hobject, Outcome.ok_bind]
    exact sliceOrErr_eq_ok_iff.mpr ⟨by decide, by decide, rfl⟩
  obtain ⟨data, hwhole, -⟩ := h _ hpart
  obtain ⟨-, hblack, -⟩ :=
    (TrustAdapter.readObject_of_fromStr (endsWith_key _) (fromKeyLaw _)).mp hwhole
  have hlisted : blacklistingTrust.deltaFilter.isBlacklisted (sampleDelta 1) = true := by decide
  rw [hlisted] at hblack
  cases hblack

end

end MeldaSec
