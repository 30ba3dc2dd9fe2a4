import MeldaSec.Lib.Interleave
import MeldaSec.Reference

/-!
# Concurrent endorsements

Many adapters endorse deltas over one shared store.  Each call of `endorse`
reads the record under its own name and then writes it, and other calls can
run in between.  The invariant of every run is that the `.sig` objects of the
store are the written endorsements of the calls that have finished
(`EndorsedExactly`).  Calls with different pairs of a delta and a public key
write different objects, and calls with the same pair write records that both
verify, so the order of the steps does not matter.
-/

namespace MeldaSec

open Rust Interleave

section

variable [Crates] {M : Type} [MapAdapter M] [SerdeSlice EndorsementRecord]

/-- A call of `endorse`: an adapter with a signing key, and a delta.  The
store of the adapter is the shared one. -/
structure EndorseCall (M : Type) where
  adapter : TrustAdapter M
  sk : SigningKey
  endorsementKey : adapter.keystore.endorsementKey = some sk
  deltaId : DeltaId
  lowerHex : IsLowerHex deltaId.digest

namespace EndorseCall

/-- The public key and the delta of a call. -/
def pair (call : EndorseCall M) : VerifyingKey × DeltaId :=
  (call.sk.verifyingKey, call.deltaId)

/-- The two steps of the call. -/
def routine (call : EndorseCall M) : Routine M where
  check store :=
    match (call.adapter.withInner store).alreadyEndorsed call.sk call.deltaId with
    | .ok present => some present
    | _ => none
  write store :=
    match (call.adapter.withInner store).writeEndorsement call.sk call.deltaId with
    | (.ok (), store) => (true, store)
    | (_, store) => (false, store)

/-- A write that succeeds is a successful second step. -/
theorem routine_write (call : EndorseCall M) {store : M}
    (hok : ((call.adapter.withInner store).writeEndorsement call.sk call.deltaId).1 = .ok ()) :
    call.routine.write store =
      (true, ((call.adapter.withInner store).writeEndorsement call.sk call.deltaId).2) := by
  simp only [routine]
  rw [← Prod.mk.eta (p := TrustAdapter.writeEndorsement _ _ _), hok]

/-- A call whose steps follow each other is `endorse`. -/
theorem run_routine (call : EndorseCall M) (store : M) :
    call.routine.run store =
      (match ((call.adapter.withInner store).endorse call.deltaId).1 with
        | .ok () => true
        | _ => false,
      ((call.adapter.withInner store).endorse call.deltaId).2) := by
  have hkey : (call.adapter.withInner store).keystore.endorsementKey = some call.sk :=
    call.endorsementKey
  simp only [Routine.run, routine, TrustAdapter.endorse, hkey]
  rcases (call.adapter.withInner store).alreadyEndorsed call.sk call.deltaId with (_ | _) | e | _
  · rcases (call.adapter.withInner store).writeEndorsement call.sk call.deltaId with
      ⟨_ | _ | _, store'⟩ <;> rfl
  · rfl
  · rfl
  · rfl

end EndorseCall

/-- The pairs of the finished calls. -/
def SignedIn {ι : Type} (calls : ι → EndorseCall M) (finished : Set ι) (sk : SigningKey)
    (deltaId : DeltaId) : Prop :=
  ∃ i ∈ finished, sk = (calls i).sk ∧ deltaId = (calls i).deltaId

omit [MapAdapter M] [SerdeSlice EndorsementRecord] in
theorem signedIn_insert {ι : Type} (calls : ι → EndorseCall M) (finished : Set ι) (i : ι)
    (sk : SigningKey) (deltaId : DeltaId) :
    SignedIn calls finished sk deltaId ∨ (sk = (calls i).sk ∧ deltaId = (calls i).deltaId) ↔
      SignedIn calls (insert i finished) sk deltaId := by
  simp only [SignedIn, Set.mem_insert_iff, exists_eq_or_imp, or_comm]

omit [MapAdapter M] [SerdeSlice EndorsementRecord] in
/-- Some holder of the key signed the delta in a call, when all have finished. -/
theorem signedBy_signedIn {ι : Type} {calls : ι → EndorseCall M} {finished : Set ι}
    (hall : ∀ i, i ∈ finished) {deltaId : DeltaId} {vk : VerifyingKey} :
    SignedBy (SignedIn calls finished) deltaId vk ↔
      (vk, deltaId) ∈ Set.range fun i => (calls i).pair := by
  constructor
  · rintro ⟨sk, ⟨i, -, rfl, rfl⟩, rfl⟩
    exact ⟨i, rfl⟩
  · intro ⟨i, hi⟩
    obtain ⟨rfl, rfl⟩ := Prod.mk.inj hi
    exact ⟨_, ⟨i, hall i, rfl, rfl⟩, rfl⟩

/-- A store without endorsements, on which no call has started. -/
def NoEndorsements (store : M) : Prop :=
  ∀ name bytes, MapAdapter.objects store name = some bytes → endsWith name ".sig" = false

/-- Every call has returned. -/
def AllReturned {ι : Type} (s : State ι M) : Prop :=
  ∀ i, s.phase i ≠ .ready ∧ s.phase i ≠ .checked

omit [Crates] [MapAdapter M] [SerdeSlice EndorsementRecord] in
/-- A call that has returned and has not failed is done. -/
theorem AllReturned.done {ι : Type} {s : State ι M} (h : AllReturned s)
    (hfailed : ∀ i, s.phase i ≠ .failed) (i : ι) : s.phase i = .done := by
  cases hphase : s.phase i with
  | ready => exact absurd hphase (h i).1
  | checked => exact absurd hphase (h i).2
  | done => rfl
  | failed => exact absurd hphase (hfailed i)

section

variable (hdelta : DeltaIdLaws) (hdigit : DigitLaw) (hsign : SignatureLaw)
  (hbase64 : Base64Law) (hserde : SerdeSliceLaw EndorsementRecord)
include hdelta hdigit hsign hbase64 hserde

/-- In every reachable state the store has exactly the endorsements of the
finished calls, and no call has failed. -/
theorem endorsedExactly_of_run {ι : Type} [DecidableEq ι] (calls : ι → EndorseCall M) {s₀ : M}
    (hstart : NoEndorsements s₀) {s : State ι M}
    (hrun : Run (fun i => (calls i).routine) (State.start s₀) s) :
    Keeps (fun finished store => EndorsedExactly store (SignedIn calls finished)) s := by
  refine invariant_of_run ?_ ?_ ?_ hrun
  · intro finished store i h
    have hinner : ((calls i).adapter.withInner store).inner = store := rfl
    obtain ⟨present, hpresent, hsigner⟩ := h.exists_alreadyEndorsed hdelta hdigit hsign hbase64
      hserde hinner (calls i).sk (calls i).lowerHex
    refine ⟨present, by simp only [EndorseCall.routine, hpresent], fun htrue => ?_⟩
    exact (h.insert_of_signedBy (hsigner htrue)).congr (signedIn_insert calls finished i)
  · intro finished store i h
    obtain ⟨bytes, hbytes, hok, hwrite⟩ :=
      ((calls i).adapter.withInner store).writeEndorsement_eq hserde (calls i).sk (calls i).deltaId
    rw [(calls i).routine_write hok]
    exact ⟨rfl, (h.insert (calls i).lowerHex hbytes hwrite).congr
      (signedIn_insert calls finished i)⟩
  · exact (EndorsedExactly.empty hstart).congr fun sk deltaId => by simp [SignedIn]

/-- The result of the scan once all calls have returned. -/
theorem exists_fetchEndorsements_of_run {ι : Type} [DecidableEq ι] (calls : ι → EndorseCall M)
    {s₀ : M} (hstart : NoEndorsements s₀) {s : State ι M}
    (hrun : Run (fun i => (calls i).routine) (State.start s₀) s) (hreturned : AllReturned s)
    {t : TrustAdapter M} (hreader : t.inner = s.store) (deltaId : DeltaId) :
    ∃ result, t.fetchEndorsements deltaId = .ok result ∧
      (∀ pk, pk ∈ result.valid ↔ ∃ vk ∈ t.keystore.trustedKeys, vk.toBytes = pk ∧
        (vk, deltaId) ∈ Set.range fun i => (calls i).pair) ∧
      (∀ pk, pk ∈ result.invalid ↔ ∃ vk, vk ∉ t.keystore.trustedKeys ∧ vk.toBytes = pk ∧
        (vk, deltaId) ∈ Set.range fun i => (calls i).pair) := by
  have hkeeps := endorsedExactly_of_run hdelta hdigit hsign hbase64 hserde calls hstart hrun
  have hsigned : ∀ vk, SignedBy (SignedIn calls {i | s.phase i = .done}) deltaId vk ↔
      (vk, deltaId) ∈ Set.range fun i => (calls i).pair :=
    fun _ => signedBy_signedIn (hreturned.done hkeeps.not_failed)
  simp only [← hsigned]
  exact hkeeps.inv.exists_fetchEndorsements hdelta hdigit hsign hbase64 hserde hreader deltaId

/-- After any interleaving of any calls, every call has succeeded, and the
scan of a delta returns the keys that endorsed it: the trusted ones as valid
and the others as invalid.  Any other calls with the same pairs of a key and
a delta, in any other order, lead to the same result. -/
theorem fetchEndorsements_of_run {ι : Type} [DecidableEq ι] (calls : ι → EndorseCall M) {s₀ : M}
    (hstart : NoEndorsements s₀) {s : State ι M}
    (hrun : Run (fun i => (calls i).routine) (State.start s₀) s) (hreturned : AllReturned s)
    (t : TrustAdapter M) (hreader : t.inner = s.store) (deltaId : DeltaId) :
    (∀ i, s.phase i = .done) ∧
    ∃ result, t.fetchEndorsements deltaId = .ok result ∧
      (∀ pk, pk ∈ result.valid ↔ ∃ vk ∈ t.keystore.trustedKeys, vk.toBytes = pk ∧
        (vk, deltaId) ∈ Set.range fun i => (calls i).pair) ∧
      (∀ pk, pk ∈ result.invalid ↔ ∃ vk, vk ∉ t.keystore.trustedKeys ∧ vk.toBytes = pk ∧
        (vk, deltaId) ∈ Set.range fun i => (calls i).pair) ∧
      ∀ (ι' : Type) (_ : DecidableEq ι') (calls' : ι' → EndorseCall M) (s₀' : M)
        (s' : State ι' M),
        (Set.range fun i => (calls' i).pair) = (Set.range fun i => (calls i).pair) →
        NoEndorsements s₀' → Run (fun i => (calls' i).routine) (State.start s₀') s' →
        AllReturned s' → (t.withInner s'.store).fetchEndorsements deltaId = .ok result := by
  have hkeeps := endorsedExactly_of_run hdelta hdigit hsign hbase64 hserde calls hstart hrun
  obtain ⟨result, hfetch, hvalid, hinvalid⟩ := exists_fetchEndorsements_of_run hdelta hdigit
    hsign hbase64 hserde calls hstart hrun hreturned hreader deltaId
  refine ⟨hreturned.done hkeeps.not_failed, result, hfetch, hvalid, hinvalid, ?_⟩
  intro ι' _ calls' s₀' s' hpairs hstart' hrun' hreturned'
  have hreader' : (t.withInner s'.store).inner = s'.store := rfl
  obtain ⟨result', hfetch', hvalid', hinvalid'⟩ := exists_fetchEndorsements_of_run hdelta hdigit
    hsign hbase64 hserde calls' hstart' hrun' hreturned' hreader' deltaId
  rw [hpairs] at hvalid' hinvalid'
  have hsame : result' = result := by
    rw [EndorsementFetchResult.mk.injEq]
    exact ⟨Finset.ext fun pk => (hvalid' pk).trans (hvalid pk).symm,
      Finset.ext fun pk => (hinvalid' pk).trans (hinvalid pk).symm⟩
  rw [hfetch', hsame]

end

end

section

open Reference

/-- Two holders of different keys endorse one delta. -/
def racingCalls (first : Bool) : EndorseCall MemoryMap where
  adapter := { sampleAdapter .single ∅ MemoryMap.new with
    keystore := ⟨some (sampleKey (if first then 1 else 2)), ∅, ∅⟩ }
  sk := sampleKey (if first then 1 else 2)
  endorsementKey := rfl
  deltaId := sampleDelta 1
  lowerHex := isLowerHex_sampleDelta 1

/-- Both calls check before either of them writes. -/
def racingEnd : State Bool MemoryMap :=
  let routine := fun first => (racingCalls first).routine
  ((((State.start MemoryMap.new).check routine true).check routine false).write
    routine true).write routine false

theorem racingCalls_check (first : Bool) :
    (racingCalls first).routine.check MemoryMap.new = some false := by
  have habsent : ((racingCalls first).adapter.withInner MemoryMap.new).alreadyEndorsed
      (racingCalls first).sk (racingCalls first).deltaId = .ok false :=
    TrustAdapter.alreadyEndorsed_of_none rfl
  simp only [EndorseCall.routine, habsent]

theorem run_racingEnd :
    Run (fun first => (racingCalls first).routine) (State.start MemoryMap.new) racingEnd := by
  refine (((Relation.ReflTransGen.single (Step.check true rfl)).tail (Step.check false rfl)).tail
    (Step.write true ?_)).tail (Step.write false ?_)
  · simp [State.check, State.start, racingCalls_check, Phase.afterCheck]
  · simp [State.write, State.check, State.start, racingCalls_check, Phase.afterCheck]

theorem allReturned_racingEnd : AllReturned racingEnd := by
  intro first
  cases first with
  | false => simpa [racingEnd, State.write] using Phase.afterWrite_returned _
  | true => simpa [racingEnd, State.write] using Phase.afterWrite_returned _

/-- A reader that trusts the first key finds both endorsements. -/
theorem fetchEndorsements_of_run_racing :
    ∃ result, (sampleAdapter .single {(sampleKey 1).verifyingKey}
        racingEnd.store).fetchEndorsements (sampleDelta 1) = .ok result ∧
      (sampleKey 1).verifyingKey.toBytes ∈ result.valid ∧
      (sampleKey 2).verifyingKey.toBytes ∈ result.invalid := by
  obtain ⟨-, result, hfetch, hvalid, hinvalid, -⟩ :=
    fetchEndorsements_of_run deltaIdLaws digitLaw signatureLaw base64Law serdeSliceLaw racingCalls
      (fun _ _ hobj => by cases hobj) run_racingEnd allReturned_racingEnd
      (sampleAdapter .single {(sampleKey 1).verifyingKey} racingEnd.store) rfl (sampleDelta 1)
  refine ⟨result, hfetch, (hvalid _).mpr ⟨_, Finset.mem_singleton_self _, rfl, true, rfl⟩,
    (hinvalid _).mpr ⟨(sampleKey 2).verifyingKey, ?_, rfl, false, rfl⟩⟩
  decide

end

end MeldaSec
