import MeldaSec.Linearizability

/-!
# What a reader sees of the calls of others

Three consequences of the histories of runs, in terms of the calls alone.  A
delta is read once its write and enough of its endorsements have returned
(`readObject_of_returned`).  It is read only when its write and enough of its
endorsements have at least started (`started_of_readObject`).  And a delta that
was read once is read by every later call of a node with the same gate
(`readObject_stable`).
-/

namespace MeldaSec

open Rust Atomicity

section

variable [Crates] [SerdeSlice EndorsementRecord] {M : Type} [MapAdapter M]

/-- The call endorses the delta with this key. -/
def NodeCall.Signs (call : NodeCall M) (vk : VerifyingKey) (deltaId : DeltaId) : Prop :=
  call.request = .endorse deltaId ∧
    ∃ sk, call.node.keystore.endorsementKey = some sk ∧ SigningKey.verifyingKey sk = vk

/-- The call writes the object. -/
def NodeCall.Writes (call : NodeCall M) (key : String) (data : Bytes) : Prop :=
  call.request = .writeObject key data ∧ Ledger.MayWrite call.node key data

/-- The call has returned this. -/
def Returned {ι : Type} (s : State ι M Reply) (i : ι) (reply : Reply) : Prop :=
  s.thread i = .running (.done reply)

/-- The call has started. -/
def Started {ι : Type} (s : State ι M Reply) (i : ι) : Prop := s.thread i ≠ .waiting

open Classical in
/-- The trusted keys of the node among those with such a call, as far as they
may change the objects of the delta. -/
noncomputable def votersAmong (t : TrustAdapter M) (data : Bytes)
    (among : VerifyingKey → Prop) : Finset VerifyingKey :=
  t.keystore.trustedKeys.filter fun vk => among vk ∧ t.Authorises data vk

omit [MapAdapter M] [SerdeSlice EndorsementRecord] in
theorem mem_votersAmong {t : TrustAdapter M} {data : Bytes} {among : VerifyingKey → Prop}
    {vk : VerifyingKey} : vk ∈ votersAmong t data among ↔
      vk ∈ t.keystore.trustedKeys ∧ among vk ∧ t.Authorises data vk := by
  classical
  rw [votersAmong, Finset.mem_filter]

variable {content : String → Bytes} {ι : Type} {calls : ι → NodeCall M}

/-! ## Calls in a history -/

omit [MapAdapter M] [SerdeSlice EndorsementRecord] in
theorem signed_of_signs {i : ι} {vk : VerifyingKey} {deltaId : DeltaId}
    (hsigns : (calls i).Signs vk deltaId) (ledger : Ledger) :
    (vk, deltaId) ∈ (specs content calls i ledger).2.signed := by
  obtain ⟨hrequest, sk, hsk, rfl⟩ := hsigns
  simp only [specs, NodeCall.spec, Ledger.call, hrequest, hsk]
  exact Finset.mem_insert_self _ _

omit [MapAdapter M] [SerdeSlice EndorsementRecord] in
/-- What is signed behind a call was signed before it, or the call signs it. -/
theorem signs_of_signed {i : ι} {ledger : Ledger} {vk : VerifyingKey} {deltaId : DeltaId}
    (h : (vk, deltaId) ∈ (specs content calls i ledger).2.signed) :
    (vk, deltaId) ∈ ledger.signed ∨ (calls i).Signs vk deltaId := by
  rw [specs, NodeCall.spec] at h
  rcases ledger.call_cases content (calls i).node (calls i).request with
    hsame | ⟨key, data, -, -, hcall⟩ | ⟨deltaId', sk, hrequest, hsk, hcall⟩
  · rw [hsame] at h
    exact Or.inl h
  · rw [hcall] at h
    exact Or.inl h
  · rw [hcall, Finset.mem_insert, Prod.mk.injEq] at h
    rcases h with ⟨rfl, rfl⟩ | h
    · exact Or.inr ⟨hrequest, sk, hsk, rfl⟩
    · exact Or.inl h

omit [MapAdapter M] [SerdeSlice EndorsementRecord] in
/-- What is stored behind a call was stored before it, or the call writes it. -/
theorem writes_of_stored {i : ι} {ledger : Ledger} {key : String}
    (h : key ∈ (specs content calls i ledger).2.stored) :
    key ∈ ledger.stored ∨ ∃ data, (calls i).Writes key data := by
  rw [specs, NodeCall.spec] at h
  rcases ledger.call_cases content (calls i).node (calls i).request with
    hsame | ⟨key', data, hrequest, hmay, hcall⟩ | ⟨deltaId, sk, -, -, hcall⟩
  · rw [hsame] at h
    exact Or.inl h
  · rw [hcall, Finset.mem_insert] at h
    rcases h with rfl | h
    · exact Or.inr ⟨data, hrequest, hmay⟩
    · exact Or.inl h
  · rw [hcall] at h
    exact Or.inl h

variable [DecidableEq ι]

omit [MapAdapter M] [SerdeSlice EndorsementRecord] in
/-- Everything in the ledger of a history comes from calls that have happened. -/
theorem AtomicRun.provenance {h : History ι Ledger Answer}
    (hrun : AtomicRun (specs content calls) (History.start Ledger.empty) h) :
    (∀ key ∈ h.value.stored, ∃ i data, h.answer i ≠ none ∧ (calls i).Writes key data) ∧
      ∀ vk deltaId, (vk, deltaId) ∈ h.value.signed →
        ∃ i, h.answer i ≠ none ∧ (calls i).Signs vk deltaId := by
  induction hrun with
  | refl =>
    constructor
    · intro key hkey
      simp [History.start, Ledger.empty] at hkey
    · intro vk deltaId hsigned
      simp [History.start, Ledger.empty] at hsigned
  | @tail before _ _ hstep ih =>
    obtain ⟨j, hj⟩ := hstep
    -- A call that has happened has still happened behind the step.
    have hkept : ∀ i, i = j ∨ before.answer i ≠ none →
        (before.perform (specs content calls) j).answer i ≠ none := by
      intro i hi
      rw [History.answer_perform]
      by_cases hij : i = j
      · simp [hij]
      · rw [if_neg hij]
        exact hi.resolve_left hij
    constructor
    · intro key hkey
      rcases writes_of_stored hkey with hbefore | ⟨data, hwrites⟩
      · obtain ⟨i, data, hi, hwrites⟩ := ih.1 key hbefore
        exact ⟨i, data, hkept i (Or.inr hi), hwrites⟩
      · exact ⟨j, data, hkept j (Or.inl rfl), hwrites⟩
    · intro vk deltaId hsigned
      rcases signs_of_signed hsigned with hbefore | hsigns
      · obtain ⟨i, hi, hsigns⟩ := ih.2 vk deltaId hbefore
        exact ⟨i, hkept i (Or.inr hi), hsigns⟩
      · exact ⟨j, hkept j (Or.inl rfl), hsigns⟩

omit [DecidableEq ι] in
/-- A call that has happened has started. -/
theorem Linearizes.started {s : State ι M Reply} {h : History ι Ledger Answer}
    (hlin : Linearizes content s h) {i : ι} (hi : h.answer i ≠ none) : Started s i :=
  fun hwaiting => hi (hlin.waiting i hwaiting)

omit [MapAdapter M] [SerdeSlice EndorsementRecord] in
/-- A call that happened between two points of a history happened on a ledger
between theirs. -/
theorem exists_moment_of_run {h h' : History ι Ledger Answer}
    (hrun : AtomicRun (specs content calls) h h') {i : ι} {answer : Answer}
    (hnone : h.answer i = none) (hsome : h'.answer i = some answer) :
    ∃ ledger, h.value ≤ ledger ∧ answer = (specs content calls i ledger).1 ∧
      (specs content calls i ledger).2 ≤ h'.value :=
  AtomicRun.exists_moment (le_specs calls) hrun hnone hsome

/-- The endorsement of a call that has returned is in the ledger. -/
theorem signed_of_returned {s : State ι M Reply} {ledger : Ledger} {h : History ι Ledger Answer}
    (hrun : AtomicRun (specs content calls) (History.start ledger) h)
    (hlin : Linearizes content s h) {i : ι} {vk : VerifyingKey} {deltaId : DeltaId}
    (hsigns : (calls i).Signs vk deltaId) {reply : Reply} (hi : Returned s i reply) :
    (vk, deltaId) ∈ h.value.signed := by
  obtain ⟨answer, hanswer, -⟩ := hlin.returned i reply hi
  obtain ⟨moment, -, -, hle⟩ := exists_moment_of_run hrun rfl hanswer
  exact hle.2 (signed_of_signs hsigns moment)

/-- The object of a write that has succeeded is in the ledger. -/
theorem stored_of_returned {s : State ι M Reply} {ledger : Ledger} {h : History ι Ledger Answer}
    (hrun : AtomicRun (specs content calls) (History.start ledger) h)
    (hlin : Linearizes content s h) {i : ι} {key : String} {data : Bytes}
    (hrequest : (calls i).request = .writeObject key data)
    (hi : Returned s i (.unit (.ok ()))) : key ∈ h.value.stored := by
  obtain ⟨answer, hanswer, hmatch⟩ := hlin.returned i _ hi
  obtain ⟨moment, -, rfl, hle⟩ := exists_moment_of_run hrun rfl hanswer
  rw [specs, NodeCall.spec, hrequest, Ledger.call] at hmatch hle
  by_cases hmay : Ledger.MayWrite (calls i).node key data
  · rw [if_pos hmay] at hle
    exact hle.1 (Finset.mem_insert_self _ _)
  · rw [if_neg hmay] at hmatch
    cases hmatch with
    | unit hagree => cases hagree

/-- A read that returned happened on a ledger, and returned what that says. -/
theorem read_of_returned {s s' : State ι M Reply} {h h' : History ι Ledger Answer}
    (hrun : AtomicRun (specs content calls) h h') (hlin : Linearizes content s h)
    (hlin' : Linearizes content s' h') {i : ι} {key : String}
    (hrequest : (calls i).request = .readObject key 0 0) (hwaiting : s.thread i = .waiting)
    {reply : Reply} (hi : Returned s' i reply) :
    ∃ ledger, h.value ≤ ledger ∧ ledger ≤ h'.value ∧ ∃ result, reply = .bytes result ∧
      Outcome.Agree result (ledger.read content (calls i).node key 0 0) := by
  obtain ⟨answer, hanswer, hmatch⟩ := hlin'.returned i reply hi
  obtain ⟨ledger, hle, rfl, hle'⟩ := exists_moment_of_run hrun (hlin.waiting i hwaiting) hanswer
  rw [specs, NodeCall.spec, hrequest, Ledger.call] at hmatch hle'
  cases hmatch with
  | bytes hagree => exact ⟨ledger, hle, hle', _, rfl, hagree⟩

/-! ## Calls that nobody interrupts -/

/-- A read returns what it reads, and the store is as it was. -/
theorem afterCall_read (calls : ι → NodeCall M) {i : ι} {key : String} {s : State ι M Reply}
    (hrequest : (calls i).request = .readObject key 0 0) {data : Bytes}
    (hread : ((calls i).node.withInner s.store).readObject key 0 0 = .ok data) :
    Returned (s.afterCall (programs calls) i) i (.bytes (.ok data)) ∧
      (s.afterCall (programs calls) i).store = s.store := by
  have heval : (programs calls i).eval s.store = (Reply.bytes (.ok data), s.store) := by
    rw [programs, NodeCall.program, hrequest, TrustAdapter.eval_program, TrustAdapter.call, hread]
    rfl
  constructor
  · rw [Returned, State.afterCall_self, heval]
  · rw [State.afterCall, heval]

/-- An `endorse` leaves its store behind. -/
theorem store_afterCall_endorse (calls : ι → NodeCall M) (s : State ι M Reply) {i : ι}
    {deltaId : DeltaId} (hrequest : (calls i).request = .endorse deltaId) :
    (s.afterCall (programs calls) i).store
      = (((calls i).node.withInner s.store).endorse deltaId).2 := by
  rw [State.afterCall, programs, NodeCall.program, hrequest, TrustAdapter.eval_program]
  rfl

/-! ## The reader -/

omit [MapAdapter M] [SerdeSlice EndorsementRecord] [DecidableEq ι] in
/-- A node accepts a delta when enough of the keys in the ledger are voters. -/
theorem accepts_of_voters {ledger : Ledger} {t : TrustAdapter M} {deltaId : DeltaId}
    {data : Bytes} {among : VerifyingKey → Prop}
    (hamong : ∀ vk, among vk → (vk, deltaId) ∈ ledger.signed)
    (hblack : t.deltaFilter.isBlacklisted deltaId = false)
    (hquorum : t.deltaFilter.isWhitelisted deltaId = true ∨
      t.endorsementMode.rule (votersAmong t data among).card t.keystore.trustedKeys.card) :
    ledger.Accepts t deltaId data := by
  classical
  refine ⟨hblack, hquorum.imp id fun hrule => ?_⟩
  refine t.endorsementMode.rule_monotone (Finset.card_le_card ?_) (Finset.card_le_card ?_) hrule
  · intro vk hvk
    rw [mem_votersAmong] at hvk
    exact Ledger.mem_voters.mpr ⟨hvk.1, hamong vk hvk.2.1, hvk.2.2⟩
  · intro vk hvk
    exact (Ledger.mem_voters.mp hvk).1

omit [MapAdapter M] [SerdeSlice EndorsementRecord] [DecidableEq ι] in
/-- The voters of an accepted delta are among the keys in the ledger. -/
theorem voters_of_accepts {ledger : Ledger} {t : TrustAdapter M} {deltaId : DeltaId}
    {data : Bytes} {among : VerifyingKey → Prop}
    (hamong : ∀ vk, (vk, deltaId) ∈ ledger.signed → among vk)
    (haccepts : ledger.Accepts t deltaId data) :
    t.deltaFilter.isBlacklisted deltaId = false ∧
      (t.deltaFilter.isWhitelisted deltaId = true ∨
        t.endorsementMode.rule (votersAmong t data among).card t.keystore.trustedKeys.card) := by
  classical
  refine ⟨haccepts.1, haccepts.2.imp id fun hrule => ?_⟩
  refine t.endorsementMode.rule_monotone (Finset.card_le_card ?_)
    (Finset.card_le_card (Finset.filter_subset _ _)) hrule
  intro vk hvk
  rw [Ledger.mem_voters] at hvk
  rw [mem_votersAmong]
  exact ⟨hvk.1, hamong vk hvk.2.1, hvk.2.2⟩

omit [MapAdapter M] [SerdeSlice EndorsementRecord] [DecidableEq ι] in
/-- Two nodes with the same gate read the same. -/
theorem read_congr {t t' : TrustAdapter M} {store : M}
    (hsame : (t'.withInner store).SameGate (t.withInner store)) (ledger : Ledger) (key : String)
    (offset length : UInt64) :
    ledger.read content t' key offset length = ledger.read content t key offset length := by
  obtain ⟨inner, ⟨sk, trusted, roles⟩, df, ⟨rules, strict⟩, mode⟩ := t
  obtain ⟨inner', ⟨sk', trusted', roles'⟩, df', ⟨rules', strict'⟩, mode'⟩ := t'
  obtain rfl : trusted' = trusted := hsame.trustedKeys
  obtain rfl : roles' = roles := hsame.roles
  obtain rfl : df' = df := hsame.deltaFilter
  obtain rfl : rules' = rules := hsame.rules
  obtain rfl : mode' = mode := hsame.endorsementMode
  rfl

omit [MapAdapter M] [SerdeSlice EndorsementRecord] [DecidableEq ι] in
/-- An object that is read from a ledger is read from every larger one. -/
theorem read_mono {ledger ledger' : Ledger} (hle : ledger ≤ ledger') {t : TrustAdapter M}
    {key : String} {data : Bytes} (hread : ledger.read content t key 0 0 = .ok data) :
    ledger'.read content t key 0 0 = .ok data := by
  rw [Ledger.read_eq_ok_iff] at hread ⊢
  obtain ⟨hstored, hvisible, hdata⟩ := hread
  refine ⟨hle.1 hstored, fun hhides => hvisible ⟨hhides.1, fun deltaId hid haccepts => ?_⟩, hdata⟩
  exact hhides.2 deltaId hid (haccepts.mono hle)

section

variable (hdelta : DeltaIdLaws) (hdigit : DigitLaw) (hsign : SignatureLaw)
  (hbase64 : Base64Law) (hserde : SerdeSliceLaw EndorsementRecord)
include hdelta hdigit hsign hbase64 hserde

/-- A read that starts behind the write of a delta and behind enough of its
endorsements returns the bytes that were written. -/
theorem readObject_of_returned (calls : ι → NodeCall M)
    (hhonest : ∀ i, (calls i).request.Honest content) {store : M} {ledger : Ledger}
    (hstart : Represents content store ledger) {s s' : State ι M Reply}
    (hrun : Run (programs calls) (State.start store) s) (hrun' : Run (programs calls) s s')
    {deltaId : DeltaId} (hdigest : IsLowerHex deltaId.digest) {data : Bytes} {w r : ι}
    (hwrite : (calls w).request = .writeObject deltaId.key data)
    (hwritten : Returned s w (.unit (.ok ())))
    (hread : (calls r).request = .readObject deltaId.key 0 0) (hwaiting : s.thread r = .waiting)
    (hblack : (calls r).node.deltaFilter.isBlacklisted deltaId = false)
    (hquorum : (calls r).node.deltaFilter.isWhitelisted deltaId = true ∨
      (calls r).node.endorsementMode.rule
        (votersAmong (calls r).node data fun vk =>
          ∃ i reply, (calls i).Signs vk deltaId ∧ Returned s i reply).card
        (calls r).node.keystore.trustedKeys.card)
    {reply : Reply} (hreply : Returned s' r reply) : reply = .bytes (.ok data) := by
  obtain ⟨h, h', hatomic, hatomic', hlin, hlin'⟩ :=
    exists_histories hdelta hdigit hsign hbase64 hserde calls hhonest hstart hrun hrun'
  have hdata : data = content deltaId.key := by
    have hclient := hhonest w
    rw [hwrite] at hclient
    exact hclient.2
  have hstored := stored_of_returned hatomic hlin hwrite hwritten
  have haccepts : h.value.Accepts (calls r).node deltaId data := by
    apply accepts_of_voters _ hblack hquorum
    intro vk ⟨i, reply', hsigns, hreturned⟩
    exact signed_of_returned hatomic hlin hsigns hreturned
  obtain ⟨moment, hle, -, result, rfl, hagree⟩ :=
    read_of_returned hatomic' hlin hlin' hread hwaiting hreply
  have hok : moment.read content (calls r).node deltaId.key 0 0 = .ok data := by
    rw [Ledger.read_eq_ok_iff, Ledger.hides_key_iff content hdelta hdigest, not_not, ← hdata]
    exact ⟨hle.1 hstored, haccepts.mono hle, rfl⟩
  rw [hok] at hagree
  cases hagree with
  | ok _ => rfl

/-- A delta is read only after its write has started, and behind the start of
enough endorsements by trusted keys that may change its objects. -/
theorem started_of_readObject (calls : ι → NodeCall M)
    (hhonest : ∀ i, (calls i).request.Honest content) {store : M}
    (hempty : ∀ name, MapAdapter.objects store name = none) {s : State ι M Reply}
    (hrun : Run (programs calls) (State.start store) s) {deltaId : DeltaId}
    (hdigest : IsLowerHex deltaId.digest) {r : ι}
    (hread : (calls r).request = .readObject deltaId.key 0 0) {data : Bytes}
    (hreply : Returned s r (.bytes (.ok data))) :
    (∃ w, Started s w ∧ (calls w).Writes deltaId.key data) ∧
      (calls r).node.deltaFilter.isBlacklisted deltaId = false ∧
      ((calls r).node.deltaFilter.isWhitelisted deltaId = true ∨
        (calls r).node.endorsementMode.rule
          (votersAmong (calls r).node data fun vk =>
            ∃ i, Started s i ∧ (calls i).Signs vk deltaId).card
          (calls r).node.keystore.trustedKeys.card) := by
  have hstart : Represents content store Ledger.empty := .empty hempty
  obtain ⟨h, -, hatomic, -, hlin, -⟩ :=
    exists_histories hdelta hdigit hsign hbase64 hserde calls hhonest hstart hrun .refl
  obtain ⟨moment, -, hle, result, hresult, hagree⟩ :=
    read_of_returned hatomic (linearizes_start hstart) hlin hread rfl hreply
  obtain rfl : result = .ok data := (Reply.bytes.inj hresult).symm
  generalize hvalue : moment.read content (calls r).node deltaId.key 0 0 = value at hagree
  cases hagree with
  | ok _ =>
    rw [Ledger.read_eq_ok_iff, Ledger.hides_key_iff content hdelta hdigest, not_not] at hvalue
    obtain ⟨hstored, haccepts, hdata⟩ := hvalue
    rw [← hdata] at haccepts
    obtain ⟨hwrites, hsigns⟩ := AtomicRun.provenance hatomic
    constructor
    · obtain ⟨w, data', hw, hwrites⟩ := hwrites _ (hle.1 hstored)
      have hclient := hhonest w
      rw [hwrites.1] at hclient
      rw [hdata, ← hclient.2]
      exact ⟨w, hlin.started hw, hwrites⟩
    · refine voters_of_accepts (fun vk hsigned => ?_) haccepts
      obtain ⟨i, hi, hsigns⟩ := hsigns vk deltaId (hle.2 hsigned)
      exact ⟨i, hlin.started hi, hsigns⟩

/-- An object that was read once is read by every later call of a node with the
same gate, with the same bytes. -/
theorem readObject_stable (calls : ι → NodeCall M)
    (hhonest : ∀ i, (calls i).request.Honest content) {store : M} {ledger : Ledger}
    (hstart : Represents content store ledger) {s s' : State ι M Reply}
    (hrun : Run (programs calls) (State.start store) s) (hrun' : Run (programs calls) s s')
    {key : String} {r r' : ι} (hread : (calls r).request = .readObject key 0 0)
    (hread' : (calls r').request = .readObject key 0 0)
    (hsame : ((calls r').node.withInner store).SameGate ((calls r).node.withInner store))
    {data : Bytes} (hreply : Returned s r (.bytes (.ok data))) (hwaiting : s.thread r' = .waiting)
    {reply : Reply} (hreply' : Returned s' r' reply) : reply = .bytes (.ok data) := by
  obtain ⟨h, h', hatomic, hatomic', hlin, hlin'⟩ :=
    exists_histories hdelta hdigit hsign hbase64 hserde calls hhonest hstart hrun hrun'
  obtain ⟨moment, -, hle, result, hresult, hagree⟩ :=
    read_of_returned hatomic (linearizes_start hstart) hlin hread rfl hreply
  obtain ⟨moment', hle', -, result', rfl, hagree'⟩ :=
    read_of_returned hatomic' hlin hlin' hread' hwaiting hreply'
  obtain rfl : result = .ok data := (Reply.bytes.inj hresult).symm
  generalize hvalue : moment.read content (calls r).node key 0 0 = value at hagree
  cases hagree with
  | ok _ =>
    rw [read_congr hsame, read_mono (hle.trans hle') hvalue] at hagree'
    cases hagree' with
    | ok _ => rfl

end

end

section

open Reference

/-- The write alone. -/
def writtenState (mode : EndorsementMode) : State SharedCall MemoryMap Reply :=
  (State.start MemoryMap.new).afterCall (programs (sharedCalls mode)) .write

/-- The write, and the endorsement behind it. -/
def endorsedState (mode : EndorsementMode) : State SharedCall MemoryMap Reply :=
  (writtenState mode).afterCall (programs (sharedCalls mode)) .endorse

theorem waiting_writtenState (mode : EndorsementMode) {i : SharedCall} (hi : i ≠ .write) :
    (writtenState mode).thread i = .waiting :=
  State.afterCall_of_ne _ _ hi

theorem run_writtenState (mode : EndorsementMode) :
    Run (programs (sharedCalls mode)) (State.start MemoryMap.new) (writtenState mode) :=
  run_afterCall _ rfl

theorem run_endorsedState (mode : EndorsementMode) :
    Run (programs (sharedCalls mode)) (State.start MemoryMap.new) (endorsedState mode) :=
  (run_writtenState mode).trans (run_afterCall _ (waiting_writtenState mode (by decide)))

/-- The sample node may write the sample delta. -/
theorem checkWrite_emptyNode (store : MemoryMap) :
    (emptyNode.withInner store).checkWrite (sampleDelta 1).key sampleData = .ok () :=
  TrustAdapter.checkWrite_iff.mpr fun _ _ => ⟨sampleKey 1, rfl, fun id _ => allows_allowAll _ _ id⟩

/-- The write succeeds, and the delta is in the store behind it. -/
theorem eval_sharedCalls_write (mode : EndorsementMode) :
    (programs (sharedCalls mode) .write).eval MemoryMap.new = (Reply.unit (.ok ()),
      (Adapter.writeObject MemoryMap.new (sampleDelta 1).key sampleData).2) := by
  have hprogram : programs (sharedCalls mode) .write
      = emptyNode.program (.writeObject (sampleDelta 1).key sampleData) := rfl
  rw [hprogram, TrustAdapter.eval_program, TrustAdapter.call, TrustAdapter.writeObject,
    checkWrite_emptyNode]
  rfl

theorem returned_writtenState (mode : EndorsementMode) :
    Returned (writtenState mode) .write (.unit (.ok ())) := by
  rw [Returned, writtenState, State.afterCall_self, State.start, eval_sharedCalls_write]

/-- The delta is in the store. -/
theorem objects_writtenState (mode : EndorsementMode) :
    MapAdapter.objects (writtenState mode).store (sampleDelta 1).key = some sampleData := by
  rw [writtenState, State.afterCall, State.start, eval_sharedCalls_write,
    MapAdapter.objects_writeObject, Function.update_self]

theorem store_endorsedState (mode : EndorsementMode) :
    (endorsedState mode).store
      = ((emptyNode.withInner (writtenState mode).store).endorse (sampleDelta 1)).2 :=
  store_afterCall_endorse (sharedCalls mode) (writtenState mode) (i := .endorse) rfl

/-- Behind the write and the endorsement, a reader that trusts the key reads the
delta. -/
theorem readObject_of_returned_sample :
    Returned ((endorsedState .single).afterCall (programs (sharedCalls .single)) .read) .read
      (.bytes (.ok sampleData)) := by
  have hreply := (endorsedState .single).afterCall_self (programs (sharedCalls .single)) .read
  have hwritten : Returned (endorsedState .single) .write (.unit (.ok ())) :=
    (State.afterCall_of_ne _ _ (by decide)).trans (returned_writtenState .single)
  have hwaiting : (endorsedState .single).thread .read = .waiting :=
    (State.afterCall_of_ne _ _ (by decide)).trans (waiting_writtenState .single (by decide))
  have hvote : (sampleKey 1).verifyingKey ∈
      votersAmong (sharedCalls .single .read).node sampleData fun vk =>
        ∃ i reply, (sharedCalls .single i).Signs vk (sampleDelta 1) ∧
          Returned (endorsedState .single) i reply :=
    mem_votersAmong.mpr ⟨Finset.mem_singleton_self _,
      ⟨.endorse, _, ⟨rfl, sampleKey 1, rfl, rfl⟩, State.afterCall_self _ _ _⟩,
      fun id _ => allows_allowAll _ _ id⟩
  have hread := readObject_of_returned deltaIdLaws digitLaw signatureLaw base64Law serdeSliceLaw
    (sharedCalls .single) (honest_sharedCalls .single) represents_new (run_endorsedState .single)
    (run_afterCall _ hwaiting) (isLowerHex_sampleDelta 1) (w := .write) (r := .read) rfl
    hwritten rfl hwaiting rfl (Or.inr (Finset.card_pos.mpr ⟨_, hvote⟩)) hreply
  rw [hread] at hreply
  exact hreply

/-- In every mode, the node reads a stored delta that it endorses. -/
theorem readObject_endorse_emptyNode (mode : EndorsementMode) {store : MemoryMap}
    {signed : SigningKey → DeltaId → Prop} (hexactly : EndorsedExactly store signed)
    (hobject : MapAdapter.objects store (sampleDelta 1).key = some sampleData) :
    ((emptyNode.setEndorsementMode mode).withInner
      ((emptyNode.withInner store).endorse (sampleDelta 1)).2).readObject (sampleDelta 1).key 0 0
        = .ok sampleData := by
  have hsigned := hexactly.endorse deltaIdLaws digitLaw signatureLaw base64Law serdeSliceLaw
    (t := emptyNode.withInner store) rfl rfl (isLowerHex_sampleDelta 1)
  have hkept := (objects_endorse_of_not_sig serdeSliceLaw (emptyNode.withInner store)
    (sampleDelta 1) (endsWith_sig_of_delta (endsWith_key (sampleDelta 1)))).trans hobject
  generalize ((emptyNode.withInner store).endorse (sampleDelta 1)).2 = store' at hsigned hkept ⊢
  rw [TrustAdapter.readObject_of_fromStr (endsWith_key _) (fromKeyLaw _)]
  refine ⟨MapAdapter.readObject_some hkept, ?_⟩
  have hkeys : 0 < ({(sampleKey 1).verifyingKey} : Finset VerifyingKey).card := by decide
  apply hsigned.admits_of_all_signed deltaIdLaws digitLaw signatureLaw base64Law serdeSliceLaw
    (t := (emptyNode.setEndorsementMode mode).withInner store') rfl rfl hkeys
  intro vk hvk
  rw [Finset.mem_singleton.mp hvk]
  exact ⟨⟨sampleKey 1, Or.inr ⟨rfl, rfl⟩, rfl⟩, fun id _ => allows_allowAll _ _ id⟩

/-- Nobody has endorsed behind the write alone. -/
theorem endorsedExactly_writtenState (mode : EndorsementMode) :
    EndorsedExactly (writtenState mode).store fun _ _ => False := by
  rw [writtenState, State.afterCall, State.start, eval_sharedCalls_write]
  exact (EndorsedExactly.empty fun _ _ hobj => by cases hobj).of_write
    (endsWith_sig_of_delta (endsWith_key _)) (MapAdapter.objects_writeObject _ _ _)

theorem readObject_endorsedState (mode : EndorsementMode) :
    ((emptyNode.setEndorsementMode mode).withInner (endorsedState mode).store).readObject
      (sampleDelta 1).key 0 0 = .ok sampleData := by
  rw [store_endorsedState]
  exact readObject_endorse_emptyNode mode (endorsedExactly_writtenState mode)
    (objects_writtenState mode)

/-- The state behind the write, the endorsement and the first read. -/
def readState (mode : EndorsementMode) : State SharedCall MemoryMap Reply :=
  (endorsedState mode).afterCall (programs (sharedCalls mode)) .read

theorem waiting_endorsedState (mode : EndorsementMode) {i : SharedCall} (hi : i ≠ .write)
    (hi' : i ≠ .endorse) : (endorsedState mode).thread i = .waiting :=
  (State.afterCall_of_ne _ _ hi').trans (waiting_writtenState mode hi)

theorem run_readState (mode : EndorsementMode) :
    Run (programs (sharedCalls mode)) (State.start MemoryMap.new) (readState mode) :=
  (run_endorsedState mode).trans
    (run_afterCall _ (waiting_endorsedState mode (by decide) (by decide)))

theorem returned_readState (mode : EndorsementMode) :
    Returned (readState mode) .read (.bytes (.ok sampleData)) :=
  (afterCall_read (sharedCalls mode) (i := .read) rfl (readObject_endorsedState mode)).1

/-- The read has the write behind it, and the endorsement that the node asks
for. -/
theorem started_of_readObject_sample :
    (∃ w, Started (readState .majority) w ∧
      (sharedCalls .majority w).Writes (sampleDelta 1).key sampleData) ∧
      EndorsementMode.majority.rule
        (votersAmong (sharedCalls .majority .read).node sampleData fun vk =>
          ∃ i, Started (readState .majority) i ∧
            (sharedCalls .majority i).Signs vk (sampleDelta 1)).card 1 := by
  obtain ⟨hwrite, -, hquorum⟩ := started_of_readObject deltaIdLaws digitLaw signatureLaw base64Law
    serdeSliceLaw (sharedCalls .majority) (honest_sharedCalls .majority) (fun _ => rfl)
    (run_readState .majority) (isLowerHex_sampleDelta 1) (r := .read) rfl
    (returned_readState .majority)
  exact ⟨hwrite, hquorum.resolve_left Bool.false_ne_true⟩

/-- The second read returns what the first one did. -/
theorem readObject_stable_sample :
    Returned ((readState .majority).afterCall (programs (sharedCalls .majority)) .readAgain)
      .readAgain (.bytes (.ok sampleData)) := by
  have hreply := (readState .majority).afterCall_self (programs (sharedCalls .majority)) .readAgain
  have hwaiting : (readState .majority).thread .readAgain = .waiting :=
    (State.afterCall_of_ne _ _ (by decide)).trans
      (waiting_endorsedState .majority (by decide) (by decide))
  have hread : (sharedCalls .majority .read).request = .readObject (sampleDelta 1).key 0 0 := rfl
  have hread' : (sharedCalls .majority .readAgain).request
      = .readObject (sampleDelta 1).key 0 0 := rfl
  have hstable := readObject_stable deltaIdLaws digitLaw signatureLaw base64Law serdeSliceLaw
    (sharedCalls .majority) (honest_sharedCalls .majority) represents_new (run_readState .majority)
    (run_afterCall _ hwaiting) hread hread' ⟨rfl, rfl, rfl, rfl, rfl, rfl⟩
    (returned_readState .majority) hwaiting hreply
  rw [hstable] at hreply
  exact hreply

end

end MeldaSec
