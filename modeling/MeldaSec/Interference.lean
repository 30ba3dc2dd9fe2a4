import MeldaSec.Corruption
import MeldaSec.Lib.Interference
import MeldaSec.Visibility
import MeldaSec.WriteReload

/-!
# The adversary between two accesses

In `MeldaSec.Corruption` a read is one step.  Here the calls of the nodes run
one access at a time, and the adversary writes and deletes objects between any
two accesses.  A read may find the delta, a listing and each of the records in
different stores, and an `endorse` may write its record long after it has
looked for it.

A record counts for an honest key only when a call of its holder has started,
and no change of the store undoes this.  The scan therefore keeps what it has
found (`Vouched`), and a read that returns a gated delta has enough voters
(`enough_voters_of_returned`).  Two reads of conflicting deltas blame a key of
the adversary (`exists_corrupt_of_returned`).
-/

namespace MeldaSec

open Rust Atomicity

section

variable [Crates] {M : Type} [MapAdapter M] [SerdeSlice EndorsementRecord]
  (honest : Set VerifyingKey) (messages : Set Bytes) {ι : Type} (calls : ι → NodeCall M)

/-- A holder of the key has started to endorse a delta with this digest. -/
def StartedToSign (started : Set ι) (vk : VerifyingKey) (digest : String) : Prop :=
  ∃ i ∈ started, ∃ deltaId, (calls i).Signs vk deltaId ∧ deltaId.digest = digest

/-- Bytes that can be written after some calls of `endorse` that have started. -/
def Writable (started : Set ι) (bytes : Bytes) : Prop :=
  ∃ log : List Call, (∀ call ∈ log, ∃ i ∈ started, (calls i).Signs call.signer call.deltaId) ∧
    Producible honest messages log bytes

/-- Every object of the store can have been written. -/
def NoForgery (store : M) (started : Set ι) : Prop :=
  ∀ name bytes, MapAdapter.objects store name = some bytes →
    Writable honest messages calls started bytes

/-- The adversary writes or deletes an object. -/
def Attack (started : Set ι) (store store' : M) : Prop :=
  ∃ name content, MapAdapter.objects store' = Function.update (MapAdapter.objects store) name
      content ∧
    ∀ bytes ∈ content, Writable honest messages calls started bytes

/-- The nodes sign with honest keys, and the objects that they write are no
records of honest keys. -/
structure Loyal : Prop where
  signs : ∀ i vk deltaId, (calls i).Signs vk deltaId →
    vk ∈ honest ∧ asBytes deltaId.digest ∈ messages
  writes : ∀ i key data, (calls i).request = .writeObject key data →
    Producible honest messages [] data

/-- The keys of the adversary, and those of the holders that have started to
endorse the delta. -/
def MayVouch (started : Set ι) (deltaId : DeltaId) (vk : VerifyingKey) : Prop :=
  vk ∈ honest → asBytes deltaId.digest ∈ messages →
    StartedToSign calls started vk deltaId.digest

variable {honest messages calls}

omit [MapAdapter M] in
theorem Writable.mono {started started' : Set ι} (hsubset : started ⊆ started') {bytes : Bytes}
    (h : Writable honest messages calls started bytes) :
    Writable honest messages calls started' bytes := by
  obtain ⟨log, hlog, hbytes⟩ := h
  refine ⟨log, fun call hcall => ?_, hbytes⟩
  obtain ⟨i, hi, hsigns⟩ := hlog call hcall
  exact ⟨i, hsubset hi, hsigns⟩

theorem NoForgery.mono {started started' : Set ι} (hsubset : started ⊆ started') {store : M}
    (h : NoForgery honest messages calls store started) :
    NoForgery honest messages calls store started' :=
  fun name bytes hobject => (h name bytes hobject).mono hsubset

omit [MapAdapter M] [SerdeSlice EndorsementRecord] in
theorem MayVouch.mono {started started' : Set ι} (hsubset : started ⊆ started')
    {deltaId : DeltaId} {vk : VerifyingKey}
    (h : MayVouch honest messages calls started deltaId vk) :
    MayVouch honest messages calls started' deltaId vk := by
  intro hhonest hdigest
  obtain ⟨i, hi, hsigns⟩ := h hhonest hdigest
  exact ⟨i, hsubset hi, hsigns⟩

/-- A change of one object forges nothing. -/
theorem NoForgery.update {started : Set ι} {store store' : M}
    (h : NoForgery honest messages calls store started) {name : String} {content : Option Bytes}
    (hwrite : MapAdapter.objects store'
      = Function.update (MapAdapter.objects store) name content)
    (hcontent : ∀ bytes ∈ content, Writable honest messages calls started bytes) :
    NoForgery honest messages calls store' started := by
  intro other bytes hobject
  rw [hwrite] at hobject
  by_cases hname : other = name
  · rw [hname, Function.update_self] at hobject
    exact hcontent bytes hobject
  · rw [Function.update_of_ne hname] at hobject
    exact h other bytes hobject

theorem NoForgery.attack {started : Set ι} {store store' : M}
    (h : NoForgery honest messages calls store started)
    (hattack : Attack honest messages calls started store store') :
    NoForgery honest messages calls store' started := by
  obtain ⟨name, content, hwrite, hcontent⟩ := hattack
  exact h.update hwrite hcontent

/-- A record that verifies is of a key that may vouch for the delta. -/
theorem NoForgery.mayVouch {started : Set ι} {store : M}
    (h : NoForgery honest messages calls store started) {name : String} {sig : Signature}
    (hsig : HoldsSignature store name sig) {deltaId : DeltaId} {vk : VerifyingKey}
    (hverify : vk.verify (asBytes deltaId.digest) sig = true) :
    MayVouch honest messages calls started deltaId vk := by
  intro hhonest hdigest
  obtain ⟨bytes, hread, endorsement, hparse, -, -, hdecode⟩ := hsig
  rw [MapAdapter.readObject_eq_ok_iff] at hread
  obtain ⟨log, hlog, hbytes⟩ := h name bytes hread
  obtain ⟨call, hcall, hsigner, hmessage⟩ :=
    hbytes endorsement sig vk hhonest _ hdigest hparse hdecode hverify
  obtain ⟨i, hi, hsigns⟩ := hlog call hcall
  rw [hsigner] at hsigns
  exact ⟨i, hi, call.deltaId, hsigns, asBytes_injective hmessage⟩

/-! ## The scan -/

/-- The valid keys of the scan are trusted ones that may vouch for the delta. -/
def Vouched (honest : Set VerifyingKey) (messages : Set Bytes) (calls : ι → NodeCall M)
    (t : TrustAdapter M) (deltaId : DeltaId) (result : EndorsementFetchResult)
    (started : Set ι) : Prop :=
  ∀ pk ∈ result.valid, ∃ vk ∈ t.keystore.trustedKeys, vk.toBytes = pk ∧
    MayVouch honest messages calls started deltaId vk

omit [MapAdapter M] [SerdeSlice EndorsementRecord] in
theorem Vouched.mono {t : TrustAdapter M} {deltaId : DeltaId} {result : EndorsementFetchResult}
    {started started' : Set ι} (hsubset : started ⊆ started')
    (h : Vouched honest messages calls t deltaId result started) :
    Vouched honest messages calls t deltaId result started' := by
  intro pk hpk
  obtain ⟨vk, htrusted, hbytes, hvouch⟩ := h pk hpk
  exact ⟨vk, htrusted, hbytes, hvouch.mono hsubset⟩

/-- The verdict on one name, in whatever store it was found. -/
theorem Vouched.record {t : TrustAdapter M} {deltaId : DeltaId} {result : EndorsementFetchResult}
    {started : Set ι} (h : Vouched honest messages calls t deltaId result started) {store : M}
    (hstore : NoForgery honest messages calls store started) {name : String}
    {verdict : Option (Bytes × Bool)}
    (hverdict : (t.withInner store).endorsementVerdict deltaId name = .ok verdict) :
    Vouched honest messages calls t deltaId (result.record verdict) started := by
  intro pk hpk
  cases verdict with
  | none => exact h pk hpk
  | some entry =>
    obtain ⟨pk', valid⟩ := entry
    cases valid with
    | false => exact h pk hpk
    | true =>
      rcases Finset.mem_insert.mp hpk with heq | hold
      · obtain ⟨sig, vk, hvk, -, hsig, hvalid⟩ := endorsementVerdict_eq_some_iff.mp hverdict
        rw [eq_comm, Bool.and_eq_true] at hvalid
        refine ⟨vk, of_decide_eq_true hvalid.1, hvk.trans heq.symm, ?_⟩
        exact hstore.mayVouch hsig hvalid.2
      · exact h pk hold

/-- What the loop has found stays vouched for. -/
theorem guarantees_scanProgram (t : TrustAdapter M) (deltaId : DeltaId) (sigFiles : List String)
    {result : EndorsementFetchResult} {started : Set ι}
    (h : Vouched honest messages calls t deltaId result started) :
    Guarantees (NoForgery honest messages calls)
      (fun out started => ∀ result, out = .ok result →
        Vouched honest messages calls t deltaId result started)
      (t.scanProgram deltaId sigFiles result) started := by
  induction sigFiles generalizing result started with
  | nil =>
    intro result' hresult
    rw [← Outcome.ok.inj hresult]
    exact h
  | cons sigFile sigFiles ih =>
    intro started' store hsubset hstore
    refine ⟨hstore, ?_⟩
    cases hverdict : (t.withInner store).endorsementVerdict deltaId sigFile with
    | ok verdict =>
      simp only [hverdict]
      exact ih ((h.mono hsubset).record hstore hverdict)
    | err e =>
      simp only [hverdict]
      intro result' hresult
      cases hresult
    | panic =>
      simp only [hverdict]
      intro result' hresult
      cases hresult

theorem guarantees_fetchProgram (t : TrustAdapter M) (deltaId : DeltaId) (started : Set ι) :
    Guarantees (NoForgery honest messages calls)
      (fun out started => ∀ result, out = .ok result →
        Vouched honest messages calls t deltaId result started)
      (t.fetchProgram deltaId) started := by
  have hempty : ∀ started : Set ι, Vouched honest messages calls t deltaId ⟨∅, ∅⟩ started := by
    intro started pk hpk
    cases Finset.notMem_empty pk hpk
  intro started' store _ hstore
  refine ⟨hstore, ?_⟩
  cases hlist : Adapter.listObjects store ".sig" with
  | ok sigFiles =>
    simp only [hlist]
    exact guarantees_scanProgram t deltaId sigFiles (hempty started')
  | err e =>
    simp only [hlist]
    intro result hresult
    rw [← Outcome.ok.inj hresult]
    exact hempty started'
  | panic =>
    simp only [hlist]
    intro result hresult
    cases hresult

/-! ## The calls -/

omit [MapAdapter M] [SerdeSlice EndorsementRecord] in
theorem votersAmong_subset_trustedKeys (t : TrustAdapter M) (data : Bytes)
    (among : VerifyingKey → Prop) : votersAmong t data among ⊆ t.keystore.trustedKeys := by
  intro vk hvk
  exact (mem_votersAmong.mp hvk).1

/-- The voters that the node counts: its trusted keys that may vouch for the
delta, as far as they may change its objects. -/
noncomputable def vouchers (honest : Set VerifyingKey) (messages : Set Bytes)
    (calls : ι → NodeCall M) (t : TrustAdapter M) (deltaId : DeltaId) (data : Bytes)
    (started : Set ι) : Finset VerifyingKey :=
  votersAmong t data (MayVouch honest messages calls started deltaId)

omit [MapAdapter M] [SerdeSlice EndorsementRecord] in
/-- The second count of a read is of voters. -/
theorem Vouched.allowedEndorsers_le {t : TrustAdapter M} {deltaId : DeltaId}
    {result : EndorsementFetchResult} {started : Set ι}
    (h : Vouched honest messages calls t deltaId result started) (data : Bytes) :
    t.allowedEndorsers result data
      ≤ (vouchers honest messages calls t deltaId data started).card := by
  classical
  unfold TrustAdapter.allowedEndorsers
  rw [Finset.sum_boole, Nat.cast_id,
    ← Finset.card_image_of_injective _ fun _ _ => VerifyingKey.toBytes_injective]
  apply Finset.card_le_card
  intro pk hpk
  obtain ⟨hvalid, hallowed⟩ := Finset.mem_filter.mp hpk
  obtain ⟨vk, htrusted, hbytes, hvouch⟩ := h pk hvalid
  rw [← hbytes, TrustAdapter.length_filter_allows_iff] at hallowed
  exact Finset.mem_image.mpr ⟨vk, mem_votersAmong.mpr ⟨htrusted, hvouch, hallowed⟩, hbytes⟩

omit [MapAdapter M] [SerdeSlice EndorsementRecord] in
/-- A scan whose findings settle the read has enough voters behind it. -/
theorem Vouched.rule_of_settle {t : TrustAdapter M} {deltaId : DeltaId}
    {result : EndorsementFetchResult} {started : Set ι}
    (h : Vouched honest messages calls t deltaId result started) {data out : Bytes}
    (hsettle : t.settle data result = .ok out) :
    data = out ∧ t.endorsementMode.rule
      (vouchers honest messages calls t deltaId data started).card t.keystore.trustedKeyCount := by
  classical
  unfold TrustAdapter.settle at hsettle
  split_ifs at hsettle with hvalid hallowed
  rw [Bool.not_eq_true, Bool.not_eq_false', EndorsementMode.enough_iff] at hallowed
  refine ⟨Outcome.ok.inj hsettle, t.endorsementMode.rule_monotone (h.allowedEndorsers_le data) ?_
    hallowed⟩
  exact Finset.card_le_card (votersAmong_subset_trustedKeys _ _ _)

/-- What a whole read of a gated delta returns has enough voters behind it. -/
def Backed (honest : Set VerifyingKey) (messages : Set Bytes) (calls : ι → NodeCall M)
    (t : TrustAdapter M) (deltaId : DeltaId) (out : Result Bytes) (started : Set ι) : Prop :=
  ∀ data, out = .ok data → t.endorsementMode.rule
    (vouchers honest messages calls t deltaId data started).card t.keystore.trustedKeyCount

theorem guarantees_gateProgram {t : TrustAdapter M} {deltaId : DeltaId}
    (hgated : t.Gated deltaId) (data : Bytes) (started : Set ι) :
    Guarantees (NoForgery honest messages calls) (Backed honest messages calls t deltaId)
      (t.gateProgram deltaId data) started := by
  obtain ⟨hblack, hwhite, hmode⟩ := hgated
  unfold TrustAdapter.gateProgram
  have hopen : (t.deltaFilter.isWhitelisted deltaId || t.endorsementMode == .permissive) = false :=
    (TrustAdapter.gated_iff hblack).mp ⟨hblack, hwhite, hmode⟩
  rw [hblack, hopen, if_neg Bool.false_ne_true, if_neg Bool.false_ne_true]
  apply (guarantees_fetchProgram t deltaId started).andThen
  intro endorsements started' _ hvouched out hout
  obtain ⟨result, hresult, hsettle⟩ := Outcome.bind_eq_ok_iff.mp hout
  obtain ⟨hdata, hrule⟩ := (hvouched result hresult).rule_of_settle hsettle
  rw [← hdata]
  exact hrule

/-- The name and the range of a whole read of a gated delta. -/
def ReadsGated (t : TrustAdapter M) (key : String) (offset length : UInt64)
    (deltaId : DeltaId) : Prop :=
  endsWith key ".delta" = true ∧ offset = 0 ∧ length = 0 ∧
    DeltaId.fromStr key = .ok deltaId ∧ t.Gated deltaId

theorem guarantees_readProgram (t : TrustAdapter M) (key : String) (offset length : UInt64)
    (started : Set ι) :
    Guarantees (NoForgery honest messages calls)
      (fun out started => ∀ deltaId, ReadsGated t key offset length deltaId →
        Backed honest messages calls t deltaId out started)
      (t.readProgram key offset length) started := by
  intro started' store _ hstore
  refine ⟨hstore, ?_⟩
  by_cases hgated : ∃ deltaId, ReadsGated t key offset length deltaId
  · obtain ⟨deltaId, hkey, hoffset, hlength, hid, hgated⟩ := hgated
    have hwhole : (!endsWith key ".delta" || offset != 0 || length != 0) = false := by
      simp [hkey, hoffset, hlength]
    cases hread : Adapter.readObject store key 0 0 with
    | ok data =>
      simp only [hread, TrustAdapter.afterRead, hwhole, Bool.false_eq_true, if_false, hid]
      apply (guarantees_gateProgram hgated data started').imp
      intro out started'' hbacked deltaId' hgated'
      rw [← Outcome.ok.inj (hid.symm.trans hgated'.2.2.2.1)]
      exact hbacked
    | err e =>
      simp only [hread, TrustAdapter.afterRead]
      intro deltaId' _ data hdata
      cases hdata
    | panic =>
      simp only [hread, TrustAdapter.afterRead]
      intro deltaId' _ data hdata
      cases hdata
  · have hnone : ∀ (out : Result Bytes) (started : Set ι) (deltaId : DeltaId),
        ReadsGated t key offset length deltaId →
          Backed honest messages calls t deltaId out started :=
      fun _ _ deltaId h => absurd ⟨deltaId, h⟩ hgated
    beta_reduce
    rcases t.afterRead_cases key offset length (Adapter.readObject store key 0 0) with
      ⟨out, hout⟩ | ⟨data, deltaId, -, hfetch⟩
    · rw [hout]
      exact hnone out started'
    · rw [hfetch]
      apply (guarantees_fetchProgram t deltaId started').andThen
      intro endorsements started'' _ _
      exact hnone _ started''

/-- What the node of a call returns from a read of a gated delta is backed. -/
def BackedReply (honest : Set VerifyingKey) (messages : Set Bytes) (calls : ι → NodeCall M)
    (i : ι) (reply : Reply) (started : Set ι) : Prop :=
  ∀ key deltaId, (calls i).request = .readObject key 0 0 →
    ReadsGated (calls i).node key 0 0 deltaId → ∀ out, reply = .bytes out →
      Backed honest messages calls (calls i).node deltaId out started

section

variable (hbase64 : Base64Law) (hserde : SerdeSliceLaw EndorsementRecord)
  (hbinding : Binding honest messages) (hloyal : Loyal honest messages calls)
include hbase64 hserde hbinding hloyal

/-- The record of a call can be written once the call has started. -/
theorem guarantees_endorseProgram {i : ι} {deltaId : DeltaId}
    (hrequest : (calls i).request = .endorse deltaId) {started : Set ι} (hi : i ∈ started) :
    Guarantees (NoForgery honest messages calls) (fun _ _ => True)
      ((calls i).node.endorseProgram deltaId) started := by
  intro started₁ store₁ hsubset₁ hstore₁
  refine ⟨hstore₁, ?_⟩
  cases hsk : (calls i).node.keystore.endorsementKey with
  | none => trivial
  | some sk =>
    cases halready : ((calls i).node.withInner store₁).alreadyEndorsed sk deltaId with
    | err e =>
      simp only [halready]
      trivial
    | panic =>
      simp only [halready]
      trivial
    | ok present =>
      cases present with
      | true =>
        simp only [halready]
        trivial
      | false =>
        simp only [halready]
        intro started₂ store₂ hsubset₂ hstore₂
        refine ⟨?_, trivial⟩
        have hsigns : (calls i).Signs sk.verifyingKey deltaId := ⟨hrequest, sk, hsk, rfl⟩
        obtain ⟨hhonest, hdigest⟩ := hloyal.signs i _ _ hsigns
        obtain ⟨bytes, hbytes, -, hwrite⟩ :=
          ((calls i).node.withInner store₂).writeEndorsement_eq hserde sk deltaId
        apply hstore₂.update hwrite
        intro content hcontent
        rw [← Option.some.inj hcontent]
        refine ⟨[⟨sk.verifyingKey, deltaId⟩], fun call hcall => ?_,
          producible_signedRecord hbase64 hserde hbinding hhonest hdigest hbytes []⟩
        rw [List.mem_singleton.mp hcall]
        exact ⟨i, hsubset₂ (hsubset₁ hi), hsigns⟩

omit hbase64 hserde hbinding in
/-- A node forges nothing in what it writes. -/
theorem noForgery_writeObject {i : ι} {key : String} {data : Bytes}
    (hrequest : (calls i).request = .writeObject key data) {started : Set ι} {store : M}
    (hstore : NoForgery honest messages calls store started) :
    NoForgery honest messages calls
      (((calls i).node.withInner store).writeObject key data).2.inner started := by
  by_cases hcheck : ((calls i).node.withInner store).checkWrite key data = .ok ()
  · rw [TrustAdapter.inner_writeObject_of_checkWrite hcheck]
    apply hstore.update (MapAdapter.objects_writeObject _ _ _)
    intro bytes hbytes
    rw [← Option.some.inj hbytes]
    exact ⟨[], by simp, hloyal.writes i key data hrequest⟩
  · rw [TrustAdapter.inner_writeObject_of_checkWrite_ne_ok hcheck]
    exact hstore

/-- Every call forges nothing, and its reads are backed. -/
theorem guarantees_program (i : ι) {started : Set ι} (hi : i ∈ started) :
    Guarantees (NoForgery honest messages calls) (BackedReply honest messages calls i)
      (programs calls i) started := by
  -- Only a read can return a delta.
  have hother : ∀ (reply : Reply) (started : Set ι),
      (∀ key offset length, (calls i).request ≠ .readObject key offset length) →
      BackedReply honest messages calls i reply started :=
    fun reply started hnot key _ hread => absurd hread (hnot key 0 0)
  unfold programs NodeCall.program
  cases hrequest : (calls i).request with
  | writeObject key data =>
    intro started' store _ hstore
    refine ⟨noForgery_writeObject hloyal hrequest hstore, hother _ _ ?_⟩
    simp [hrequest]
  | listObjects ext =>
    intro started' store _ hstore
    refine ⟨hstore, hother _ _ ?_⟩
    simp [hrequest]
  | endorse deltaId =>
    apply (guarantees_endorseProgram hbase64 hserde hbinding hloyal hrequest hi).andThen
    intro out started' _ _
    apply hother
    simp [hrequest]
  | fetchEndorsements deltaId =>
    apply (guarantees_fetchProgram (calls i).node deltaId started).andThen
    intro out started' _ _
    apply hother
    simp [hrequest]
  | checkDelta deltaId =>
    apply (guarantees_readProgram (calls i).node deltaId.key 0 0 started).andThen
    intro out started' _ _
    apply hother
    simp [hrequest]
  | readObject key offset length =>
    apply (guarantees_readProgram (calls i).node key offset length started).andThen
    intro out started' _ hbacked key' deltaId hread hgated out' hout
    rw [hrequest] at hread
    obtain ⟨rfl, rfl, rfl⟩ := Request.readObject.inj hread
    rw [← Reply.bytes.inj hout]
    exact hbacked deltaId hgated

end

/-! ## Runs -/

omit [MapAdapter M] [SerdeSlice EndorsementRecord] in
theorem votersAmong_subset {t : TrustAdapter M} {data : Bytes} {among among' : VerifyingKey → Prop}
    (h : ∀ vk, among vk → among' vk) : votersAmong t data among ⊆ votersAmong t data among' := by
  intro vk hvk
  rw [mem_votersAmong] at hvk ⊢
  exact ⟨hvk.1, h vk hvk.2.1, hvk.2.2⟩

omit [MapAdapter M] [SerdeSlice EndorsementRecord] in
theorem rule_mono_votersAmong {t : TrustAdapter M} {data : Bytes}
    {among among' : VerifyingKey → Prop} (h : ∀ vk, among vk → among' vk)
    (hrule : t.endorsementMode.rule (votersAmong t data among).card t.keystore.trustedKeyCount) :
    t.endorsementMode.rule (votersAmong t data among').card t.keystore.trustedKeyCount := by
  exact t.endorsementMode.rule_monotone (Finset.card_le_card (votersAmong_subset h))
    (Finset.card_le_card (votersAmong_subset_trustedKeys t data among')) hrule

omit [MapAdapter M] [SerdeSlice EndorsementRecord] in
theorem BackedReply.mono {i : ι} {reply : Reply} {started started' : Set ι}
    (hsubset : started ⊆ started') (h : BackedReply honest messages calls i reply started) :
    BackedReply honest messages calls i reply started' := by
  intro key deltaId hrequest hgated out hreply data hout
  exact rule_mono_votersAmong (fun vk hvouch => hvouch.mono hsubset)
    (h key deltaId hrequest hgated out hreply data hout)

variable [DecidableEq ι]

/-- In every run, what has been returned is backed. -/
theorem upholds_of_run (hbase64 : Base64Law) (hserde : SerdeSliceLaw EndorsementRecord)
    (hbinding : Binding honest messages) (hloyal : Loyal honest messages calls) {store : M}
    (hstore : Unforged honest messages ⟨store, []⟩) {s : State ι M Reply}
    (hrun : OpenRun (programs calls) (Attack honest messages calls) (State.start store) s) :
    Upholds (NoForgery honest messages calls) (BackedReply honest messages calls) s := by
  apply upholds_of_openRun _ _ _ _ _ hrun
  · exact fun i reply started started' hsubset h => h.mono hsubset
  · exact fun store started started' hsubset h => h.mono hsubset
  · exact fun i started hi => guarantees_program hbase64 hserde hbinding hloyal i hi
  · exact fun started store store' h hattack => h.attack hattack
  · apply upholds_start
    exact fun name bytes hobject => ⟨[], by simp, hstore name bytes hobject⟩

/-- A read of a gated delta has returned, and the adversary was free to change
the store between its accesses.  Then the trusted keys of the adversary and of
the holders that have started to endorse the digest are enough, as far as they may
change the delta.  So when those of the adversary are not enough alone, such a
holder exists. -/
theorem enough_voters_of_returned (hbase64 : Base64Law)
    (hserde : SerdeSliceLaw EndorsementRecord) (hbinding : Binding honest messages)
    (hloyal : Loyal honest messages calls) {store : M}
    (hstore : Unforged honest messages ⟨store, []⟩) {s : State ι M Reply}
    (hrun : OpenRun (programs calls) (Attack honest messages calls) (State.start store) s)
    {i : ι} {key : String} (hrequest : (calls i).request = .readObject key 0 0)
    (hkey : endsWith key ".delta" = true) {deltaId : DeltaId}
    (hid : DeltaId.fromStr key = .ok deltaId) (hdigest : asBytes deltaId.digest ∈ messages)
    (hgated : (calls i).node.Gated deltaId) {data : Bytes}
    (hreply : Returned s i (.bytes (.ok data))) :
    (calls i).node.endorsementMode.rule
        (votersAmong (calls i).node data fun vk =>
          vk ∈ honest → StartedToSign calls s.started vk deltaId.digest).card
        (calls i).node.keystore.trustedKeyCount ∧
      (¬ (calls i).node.endorsementMode.rule (votersAmong (calls i).node data (· ∉ honest)).card
          (calls i).node.keystore.trustedKeyCount →
        ∃ vk ∈ (calls i).node.keystore.trustedKeys, vk ∈ honest ∧
          StartedToSign calls s.started vk deltaId.digest ∧
          (calls i).node.Authorises data vk) := by
  have hbacked := (upholds_of_run hbase64 hserde hbinding hloyal hstore hrun).returned hreply
  have henough := rule_mono_votersAmong (fun vk hvouch hhonest => hvouch hhonest hdigest)
    (hbacked key deltaId hrequest ⟨hkey, rfl, rfl, hid, hgated⟩ (.ok data) rfl data rfl)
  refine ⟨henough, fun hfew => ?_⟩
  by_contra hnone
  apply hfew
  refine (calls i).node.endorsementMode.rule_monotone (Finset.card_le_card ?_) ?_ henough
  · intro vk hvk
    rw [mem_votersAmong] at hvk ⊢
    refine ⟨hvk.1, fun hhonest => ?_, hvk.2.2⟩
    exact hnone ⟨vk, hvk.1, hhonest, hvk.2.1 hhonest, hvk.2.2⟩
  · exact Finset.card_le_card (votersAmong_subset_trustedKeys _ _ _)

/-- Two nodes that trust the same keys, and ask for a majority or for all of
them, have returned two deltas, and no honest holder has started to endorse
both digests.  Then a trusted key is of the adversary, and both nodes allow it. -/
theorem exists_corrupt_of_returned (hbase64 : Base64Law)
    (hserde : SerdeSliceLaw EndorsementRecord) (hbinding : Binding honest messages)
    (hloyal : Loyal honest messages calls) {store : M}
    (hstore : Unforged honest messages ⟨store, []⟩) {s : State ι M Reply}
    (hrun : OpenRun (programs calls) (Attack honest messages calls) (State.start store) s)
    {i₁ i₂ : ι}
    (htrusted : (calls i₁).node.keystore.trustedKeys = (calls i₂).node.keystore.trustedKeys)
    (hkeys : (calls i₁).node.keystore.trustedKeys.Nonempty)
    (hmode₁ : (calls i₁).node.endorsementMode.AsksMajority)
    (hmode₂ : (calls i₂).node.endorsementMode.AsksMajority) {key₁ key₂ : String}
    (hrequest₁ : (calls i₁).request = .readObject key₁ 0 0)
    (hrequest₂ : (calls i₂).request = .readObject key₂ 0 0)
    (hkey₁ : endsWith key₁ ".delta" = true) (hkey₂ : endsWith key₂ ".delta" = true)
    {deltaId₁ deltaId₂ : DeltaId} (hid₁ : DeltaId.fromStr key₁ = .ok deltaId₁)
    (hid₂ : DeltaId.fromStr key₂ = .ok deltaId₂) (hdigest₁ : asBytes deltaId₁.digest ∈ messages)
    (hdigest₂ : asBytes deltaId₂.digest ∈ messages) (hgated₁ : (calls i₁).node.Gated deltaId₁)
    (hgated₂ : (calls i₂).node.Gated deltaId₂)
    (honce : ∀ vk ∈ honest, StartedToSign calls s.started vk deltaId₁.digest →
      ¬ StartedToSign calls s.started vk deltaId₂.digest) {data₁ data₂ : Bytes}
    (hreply₁ : Returned s i₁ (.bytes (.ok data₁)))
    (hreply₂ : Returned s i₂ (.bytes (.ok data₂))) :
    ∃ vk ∈ (calls i₁).node.keystore.trustedKeys, vk ∉ honest ∧
      (calls i₁).node.Authorises data₁ vk ∧ (calls i₂).node.Authorises data₂ vk := by
  classical
  have hupholds := upholds_of_run hbase64 hserde hbinding hloyal hstore hrun
  have hsize : 0 < (calls i₁).node.keystore.trustedKeyCount := Finset.card_pos.mpr hkeys
  have hsame : (calls i₂).node.keystore.trustedKeyCount
      = (calls i₁).node.keystore.trustedKeyCount := congrArg Finset.card htrusted.symm
  have hmajority₁ := hmode₁.majority hsize (hupholds.returned hreply₁ key₁ deltaId₁ hrequest₁
    ⟨hkey₁, rfl, rfl, hid₁, hgated₁⟩ (.ok data₁) rfl data₁ rfl)
  have hrule₂ := hupholds.returned hreply₂ key₂ deltaId₂ hrequest₂
    ⟨hkey₂, rfl, rfl, hid₂, hgated₂⟩ (.ok data₂) rfl data₂ rfl
  rw [hsame] at hrule₂
  have hmajority₂ := hmode₂.majority hsize hrule₂
  -- The two nodes count voters of one electorate.
  have hsubset₂ := votersAmong_subset_trustedKeys (calls i₂).node data₂
    (MayVouch honest messages calls s.started deltaId₂)
  rw [← htrusted] at hsubset₂
  obtain ⟨vk, hvk⟩ := Quorum.inter_nonempty_of_majority
    (votersAmong_subset_trustedKeys (calls i₁).node data₁ _) hsubset₂ hmajority₁ hmajority₂
  rw [Finset.mem_inter, mem_votersAmong, mem_votersAmong] at hvk
  obtain ⟨⟨hmem, hvouch₁, hauthorises₁⟩, -, hvouch₂, hauthorises₂⟩ := hvk
  refine ⟨vk, hmem, fun hhonest => ?_, hauthorises₁, hauthorises₂⟩
  exact honce vk hhonest (hvouch₁ hhonest hdigest₁) (hvouch₂ hhonest hdigest₂)

end

section

variable [Crates] {M : Type} [MapAdapter M] [SerdeSlice EndorsementRecord] {ι : Type}
  [DecidableEq ι]

/-- The store changes between the first access of a read and its listing, and
then the read goes on alone. -/
theorem exists_interruptedRead (calls : ι → NodeCall M) (env : Set ι → M → M → Prop)
    {s : State ι M Reply} {i : ι} (hwaiting : s.thread i = .waiting) {key : String}
    (hrequest : (calls i).request = .readObject key 0 0) {store : M}
    (hsame : Adapter.readObject store key 0 0 = Adapter.readObject s.store key 0 0)
    (henv : ∀ started, env started s.store store) {data : Bytes}
    (hread : ((calls i).node.withInner store).readObject key 0 0 = .ok data) :
    ∃ s', OpenRun (programs calls) env s s' ∧ Returned s' i (.bytes (.ok data)) ∧
      s'.store = store ∧ ∀ j, j ≠ i → s'.thread j = s.thread j := by
  let next : M → Program M Reply := fun store =>
    ((calls i).node.afterRead key 0 0 (Adapter.readObject store key 0 0)).andThen fun result =>
      .done (.bytes result)
  have hprogram : programs calls i = .access next id := by
    rw [programs, NodeCall.program, hrequest]
    rfl
  have heval : (next s.store).eval store = (Reply.bytes (.ok data), store) := by
    have hwhole := (calls i).node.eval_program (.readObject key 0 0) store
    rw [TrustAdapter.call, hread] at hwhole
    have hnext : next s.store = next store := by
      show (TrustAdapter.afterRead _ _ _ _ (Adapter.readObject s.store key 0 0)).andThen _ = _
      rw [← hsame]
    rw [hnext]
    exact hwhole
  have hrun := openRun_of_change hwaiting hprogram henv
  rw [heval] at hrun
  refine ⟨_, hrun, Function.update_self _ _ _, rfl, fun j hj => Function.update_of_ne hj _ _⟩

end

section

open Reference

/-- The two holders endorse one delta each, and two nodes read them. -/
inductive RivalCall where
  | sign
  | signRival
  | read
  | readRival
  deriving DecidableEq

def rivalCalls : RivalCall → NodeCall MemoryMap
  | .sign => ⟨honestSigner (sampleKey 1) MemoryMap.new, .endorse (sampleDelta 1)⟩
  | .signRival => ⟨honestSigner (sampleKey 3) MemoryMap.new, .endorse rivalDelta⟩
  | .read => ⟨mixedReader MemoryMap.new, .readObject (sampleDelta 1).key 0 0⟩
  | .readRival => ⟨mixedReader MemoryMap.new, .readObject rivalDelta.key 0 0⟩

/-- Each holder signs one of the deltas only. -/
theorem signs_rivalCalls {i : RivalCall} {vk : VerifyingKey} {deltaId : DeltaId}
    (hsigns : (rivalCalls i).Signs vk deltaId) :
    (vk = (sampleKey 1).verifyingKey ∧ deltaId = sampleDelta 1) ∨
      (vk = (sampleKey 3).verifyingKey ∧ deltaId = rivalDelta) := by
  obtain ⟨hrequest, sk, hsk, hvk⟩ := hsigns
  cases i with
  | sign =>
    rw [← hvk, ← Option.some.inj hsk]
    exact Or.inl ⟨rfl, (Request.endorse.inj hrequest).symm⟩
  | signRival =>
    rw [← hvk, ← Option.some.inj hsk]
    exact Or.inr ⟨rfl, (Request.endorse.inj hrequest).symm⟩
  | read => cases hrequest
  | readRival => cases hrequest

theorem loyal_rivalCalls : Loyal replayHonest replayMessages rivalCalls where
  signs i vk deltaId hsigns := by
    rcases signs_rivalCalls hsigns with ⟨hvk, hdelta⟩ | ⟨hvk, hdelta⟩
    · rw [hvk, hdelta]
      exact ⟨sampleKey_mem, asBytes_digest_mem 1⟩
    · rw [hvk, hdelta]
      exact ⟨otherKey_mem, asBytes_rival_mem⟩
  writes i key data hrequest := by cases i <;> cases hrequest

/-- No holder signs both deltas. -/
theorem not_startedToSign_rival {started : Set RivalCall} {vk : VerifyingKey}
    (hstarted : StartedToSign rivalCalls started vk (sampleDelta 1).digest) :
    ¬ StartedToSign rivalCalls started vk rivalDelta.digest := by
  intro hrival
  obtain ⟨i, -, deltaId, hsigns, hdigest⟩ := hstarted
  obtain ⟨j, -, deltaId', hsigns', hdigest'⟩ := hrival
  rcases signs_rivalCalls hsigns with ⟨hvk, hdelta⟩ | ⟨hvk, hdelta⟩
  · rcases signs_rivalCalls hsigns' with ⟨hvk', hdelta'⟩ | ⟨hvk', hdelta'⟩
    · rw [hdelta'] at hdigest'
      exact digests_ne hdigest'
    · exact absurd (hvk.symm.trans hvk') (by decide)
  · rw [hdelta] at hdigest
    exact digests_ne hdigest.symm

/-- The adversary can write the records of its own key at any time. -/
theorem attack_corruptRecord (deltaId : DeltaId) (started : Set RivalCall) {name : String}
    {store store' : MemoryMap} (hwrite : MapAdapter.objects store'
      = Function.update (MapAdapter.objects store) name
          (some (endorsementObject (sampleKey 2) deltaId).2)) :
    Attack replayHonest replayMessages rivalCalls started store store' := by
  refine ⟨name, _, hwrite, fun bytes hbytes => ⟨[], by simp, ?_⟩⟩
  rw [← Option.some.inj hbytes]
  exact producible_corruptRecord deltaId []

/-- A holder endorses a delta, and a node reads it.  Between the first access of
the node and its listing, the adversary adds the record of its key. -/
theorem exists_rivalRun {s : State RivalCall MemoryMap Reply}
    {signed : SigningKey → DeltaId → Prop} (hexactly : EndorsedExactly s.store signed)
    {sk : SigningKey} (hsk : sk = sampleKey 1 ∨ sk = sampleKey 3) {deltaId : DeltaId}
    (hdigest : IsLowerHex deltaId.digest)
    (hobject : MapAdapter.objects s.store deltaId.key = some nullData) {i j : RivalCall}
    (hsign : rivalCalls i = ⟨honestSigner sk MemoryMap.new, .endorse deltaId⟩)
    (hread : rivalCalls j = ⟨mixedReader MemoryMap.new, .readObject deltaId.key 0 0⟩)
    (hi : s.thread i = .waiting) (hj : s.thread j = .waiting) (hne : j ≠ i) :
    ∃ s' : State RivalCall MemoryMap Reply,
      OpenRun (programs rivalCalls) (Attack replayHonest replayMessages rivalCalls) s s' ∧
      Returned s' j (.bytes (.ok nullData)) ∧
      EndorsedExactly s'.store (fun sk' deltaId' =>
        (signed sk' deltaId' ∨ (sk' = sk ∧ deltaId' = deltaId)) ∨
          (sk' = sampleKey 2 ∧ deltaId' = deltaId)) ∧
      (∀ name, endsWith name ".sig" = false →
        MapAdapter.objects s'.store name = MapAdapter.objects s.store name) ∧
      ∀ k, k ≠ i → k ≠ j → s'.thread k = s.thread k := by
  have hstore₁ : (s.afterCall (programs rivalCalls) i).store
      = ((honestSigner sk s.store).endorse deltaId).2 := by
    rw [store_afterCall_endorse rivalCalls s (congrArg NodeCall.request hsign), hsign]
    rfl
  have hrun₁ := run_afterCall (programs rivalCalls) hi
  have hothers₁ : ∀ k, k ≠ i → (s.afterCall (programs rivalCalls) i).thread k = s.thread k :=
    fun k hk => State.afterCall_of_ne _ _ hk
  generalize s.afterCall (programs rivalCalls) i = s₁ at hstore₁ hrun₁ hothers₁
  have hexactly₁ := hexactly.endorse deltaIdLaws digitLaw signatureLaw base64Law serdeSliceLaw
    (t := honestSigner sk s.store) rfl rfl hdigest
  rw [← hstore₁] at hexactly₁
  have hobjects₁ : ∀ name, endsWith name ".sig" = false →
      MapAdapter.objects s₁.store name = MapAdapter.objects s.store name := by
    intro name hname
    rw [hstore₁]
    exact objects_endorse_of_not_sig serdeSliceLaw (honestSigner sk s.store) deltaId hname
  -- The record of the adversary.
  have hwrite := MapAdapter.objects_writeObject s₁.store
    (TrustAdapter.ownEndorsementKey (sampleKey 2) deltaId).fileName
    (endorsementObject (sampleKey 2) deltaId).2
  generalize (Adapter.writeObject s₁.store _ _).2 = store at hwrite
  have hexactly₂ := hexactly₁.insert hdigest (toVec_signedRecord _ _) hwrite
  have hobjects₂ : ∀ name, endsWith name ".sig" = false →
      MapAdapter.objects store name = MapAdapter.objects s.store name := by
    intro name hname
    have hne : name ≠ (TrustAdapter.ownEndorsementKey (sampleKey 2) deltaId).fileName := by
      intro heq
      rw [heq, EndorsementKey.endsWith_fileName] at hname
      cases hname
    rw [hwrite, Function.update_of_ne hne, hobjects₁ name hname]
  have hkey := endsWith_sig_of_delta (endsWith_key deltaId)
  have hbefore := MapAdapter.readObject_some ((hobjects₁ _ hkey).trans hobject)
  have hafter := MapAdapter.readObject_some ((hobjects₂ _ hkey).trans hobject)
  have hreply := readObject_mixedReader hexactly₂ ((hobjects₂ _ hkey).trans hobject) sk hsk
    (Or.inl (Or.inr ⟨rfl, rfl⟩)) (Or.inr ⟨rfl, rfl⟩)
  obtain ⟨s₂, hrun₂, hreturned, hstore₂, hothers₂⟩ := exists_interruptedRead rivalCalls
    (Attack replayHonest replayMessages rivalCalls) ((hothers₁ j hne).trans hj)
    (congrArg NodeCall.request hread) (hafter.trans hbefore.symm)
    (fun started => attack_corruptRecord deltaId started hwrite)
    (by rw [hread]; exact hreply)
  refine ⟨s₂, (hrun₁.openRun _).trans hrun₂, hreturned, ?_, ?_, fun k hk hk' => ?_⟩
  · rw [hstore₂]
    exact hexactly₂
  · rw [hstore₂]
    exact hobjects₂
  · rw [hothers₂ k hk', hothers₁ k hk]

/-- The store of the samples, before the first call. -/
def rivalStart : State RivalCall MemoryMap Reply := State.start honestStart.store

theorem objects_rivalStart :
    MapAdapter.objects rivalStart.store (sampleDelta 1).key = some nullData ∧
      MapAdapter.objects rivalStart.store rivalDelta.key = some nullData :=
  ⟨objects_storeOf _ _, objects_storeOf _ _⟩

/-- The node has read the delta with a holder behind it, and could not have done
so without. -/
theorem enough_voters_of_returned_sample : ∃ s : State RivalCall MemoryMap Reply,
    Returned s .read (.bytes (.ok nullData)) ∧
      ∃ vk ∈ mixedTrusted, vk ∈ replayHonest ∧
        StartedToSign rivalCalls s.started vk (sampleDelta 1).digest ∧
        (rivalCalls .read).node.Authorises nullData vk := by
  obtain ⟨s, hrun, hreply, -⟩ := exists_rivalRun (s := rivalStart) (i := .sign) (j := .read)
    endorsedExactly_honestStart (Or.inl rfl) (isLowerHex_sampleDelta 1) objects_rivalStart.1 rfl rfl
    rfl rfl (by decide)
  have hmode : EndorsementMode.majority ≠ .permissive := by decide
  have hread : (rivalCalls .read).request = .readObject (sampleDelta 1).key 0 0 := rfl
  refine ⟨s, hreply, ?_⟩
  apply (enough_voters_of_returned base64Law serdeSliceLaw binding_replay loyal_rivalCalls
    fresh_honestStart.unforged hrun hread (endsWith_key _) (fromKeyLaw _) (asBytes_digest_mem 1)
    ⟨rfl, rfl, hmode⟩ hreply).2
  apply not_majority_of_corrupt (votersAmong_subset_trustedKeys _ _ _)
  intro vk hvk
  exact (mem_votersAmong.mp hvk).2.1

/-- The two nodes have read conflicting deltas, and the key of the adversary is
to blame. -/
theorem exists_corrupt_of_returned_sample : ∃ s : State RivalCall MemoryMap Reply,
    Returned s .read (.bytes (.ok nullData)) ∧ Returned s .readRival (.bytes (.ok nullData)) ∧
      ∃ vk ∈ mixedTrusted, vk ∉ replayHonest ∧
        (rivalCalls .read).node.Authorises nullData vk ∧
        (rivalCalls .readRival).node.Authorises nullData vk := by
  obtain ⟨s₁, hrun₁, hreply₁, hexactly₁, hobjects₁, hothers₁⟩ := exists_rivalRun (s := rivalStart)
    (i := .sign) (j := .read) endorsedExactly_honestStart (Or.inl rfl) (isLowerHex_sampleDelta 1)
    objects_rivalStart.1 rfl rfl rfl rfl (by decide)
  obtain ⟨s₂, hrun₂, hreply₂, -, -, hothers₂⟩ := exists_rivalRun (i := .signRival)
    (j := .readRival) hexactly₁ (Or.inr rfl) isLowerHex_rivalDelta
    ((hobjects₁ _ (endsWith_sig_of_delta (endsWith_key _))).trans objects_rivalStart.2) rfl rfl
    (hothers₁ _ (by decide) (by decide)) (hothers₁ _ (by decide) (by decide)) (by decide)
  have hreply : Returned s₂ .read (.bytes (.ok nullData)) :=
    (hothers₂ _ (by decide) (by decide)).trans hreply₁
  have hmode : EndorsementMode.majority ≠ .permissive := by decide
  have hread : (rivalCalls .read).request = .readObject (sampleDelta 1).key 0 0 := rfl
  have hrival : (rivalCalls .readRival).request = .readObject rivalDelta.key 0 0 := rfl
  have htrusted : (rivalCalls .read).node.keystore.trustedKeys
      = (rivalCalls .readRival).node.keystore.trustedKeys := rfl
  refine ⟨s₂, hreply, hreply₂, ?_⟩
  exact exists_corrupt_of_returned base64Law serdeSliceLaw binding_replay loyal_rivalCalls
    fresh_honestStart.unforged (hrun₁.trans hrun₂) htrusted
    (Finset.insert_nonempty _ _) (Or.inl rfl) (Or.inl rfl) hread hrival (endsWith_key _)
    (endsWith_key _) (fromKeyLaw _) (fromKeyLaw _) (asBytes_digest_mem 1) asBytes_rival_mem
    ⟨rfl, rfl, hmode⟩ ⟨rfl, rfl, hmode⟩ (fun _ _ => not_startedToSign_rival) hreply hreply₂

end

end MeldaSec
