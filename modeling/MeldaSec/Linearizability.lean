import MeldaSec.Ledger

/-!
# Calls of many nodes over one store

Any number of nodes call the trust adapter over one shared store, each with its
own configuration, and the accesses of their calls interleave in any way.  A
read may list the endorsements, and find records that came after the listing
under names that it has listed, and so the records that it reads may come from
different stores.

`linearizable` says that this does not show.  The calls of a run have one order
such that each of them happens at one moment between its start and its return,
and they return what they return on the ledger in this order.  A read of a delta
happens when it lists the endorsements, and an `endorse` when it finds its
record or writes it.
-/

namespace MeldaSec

open Rust Atomicity

section

variable [Crates] [SerdeSlice EndorsementRecord] {M : Type} [MapAdapter M]

/-- A call by a node: its configuration at the time of the call, and what it
asks for. -/
structure NodeCall (M : Type) where
  node : TrustAdapter M
  request : Request

/-- The accesses of a call. -/
def NodeCall.program (call : NodeCall M) : Program M Reply := call.node.program call.request

/-- The call on a ledger. -/
noncomputable def NodeCall.spec (content : String → Bytes) (call : NodeCall M) :
    Ledger → Answer × Ledger :=
  Ledger.call content call.node call.request

variable {content : String → Bytes}

/-- The written name of an endorsement. -/
def pairName (pair : VerifyingKey × DeltaId) : String :=
  EndorsementKey.fileName ⟨pair.2, pair.1.toBytes⟩

/-- What the scan makes of an endorsement that verifies. -/
def TrustAdapter.pairVerdict (t : TrustAdapter M) (deltaId : DeltaId)
    (pair : VerifyingKey × DeltaId) : Option (Bytes × Bool) :=
  if pair.2 = deltaId then some (pair.1.toBytes, t.keystore.isTrusted pair.1) else none

section

variable (hdelta : DeltaIdLaws) (hdigit : DigitLaw) (hsign : SignatureLaw)
  (hbase64 : Base64Law) (hserde : SerdeSliceLaw EndorsementRecord)
include hdelta hdigit hsign hbase64 hserde

/-! ## The scan -/

/-- The verdict on an endorsement of the ledger is the same in every store. -/
theorem Represents.endorsementVerdict_eq {store : M} {ledger : Ledger}
    (h : Represents content store ledger) (t : TrustAdapter M) (deltaId : DeltaId)
    {pair : VerifyingKey × DeltaId} (hpair : pair ∈ ledger.signed) :
    (t.withInner store).endorsementVerdict deltaId (pairName pair)
      = .ok (t.pairVerdict deltaId pair) := by
  obtain ⟨signed, hexactly, hiff⟩ := h.signed
  obtain ⟨vk, deltaId'⟩ := pair
  obtain ⟨sk, hsigned, rfl⟩ := (hiff _ _).mp hpair
  have hname := hexactly.own_mem_sigNames hsigned
  have hkey := hexactly.fromStr_own hdelta hdigit hsigned
  rw [TrustAdapter.pairVerdict]
  by_cases hd : deltaId' = deltaId
  · subst hd
    obtain ⟨-, -, -, -, -, sig, hsig, -⟩ :=
      hexactly.exists_signer_of_mem hdelta hdigit hsign hbase64 hserde hname
    have hverify := (hexactly.signedBy_of_fromStr hdelta hdigit hsign hbase64 hserde hname
      hkey).2 sig hsig
    rw [if_pos rfl]
    refine endorsementVerdict_eq_some_iff.mpr ⟨sig, sk.verifyingKey, rfl, hkey, hsig, ?_⟩
    rw [hverify, Bool.and_true]
    rfl
  · rw [if_neg hd, TrustAdapter.endorsementVerdict, pairName]
    have hkey' : EndorsementKey.fromStr
          (EndorsementKey.fileName ⟨deltaId', sk.verifyingKey.toBytes⟩)
        = .ok (TrustAdapter.ownEndorsementKey sk deltaId') := hkey
    rw [hkey']
    exact if_neg hd

/-- A scan over endorsements of the ledger is committed to their verdicts,
whatever is written in the meantime. -/
theorem committed_scanProgram (t : TrustAdapter M) (deltaId : DeltaId)
    {pairs : List (VerifyingKey × DeltaId)} {result : EndorsementFetchResult} {ledger : Ledger}
    (hpairs : ∀ pair ∈ pairs, pair ∈ ledger.signed) :
    Committed (Represents content) (· = ·) (t.scanProgram deltaId (pairs.map pairName) result)
      (.ok (pairs.foldl (fun result pair => result.record (t.pairVerdict deltaId pair)) result))
      ledger := by
  induction pairs generalizing result ledger with
  | nil => rfl
  | cons pair pairs ih =>
    intro ledger' store hle hrep
    obtain ⟨hpair, hrest⟩ := List.forall_mem_cons.mp hpairs
    refine ⟨hrep, ?_⟩
    simp only [hrep.endorsementVerdict_eq hdelta hdigit hsign hbase64 hserde t deltaId
      (hle.2 hpair)]
    exact ih fun other hother => hle.2 (hrest other hother)

omit hdelta hdigit hsign hbase64 hserde in
/-- The listed endorsements are those of the ledger. -/
theorem Represents.exists_pairs {store : M} {ledger : Ledger}
    (h : Represents content store ledger) {names : List String}
    (hnames : ∀ name ∈ names, (MapAdapter.objects store name).isSome ∧
      endsWith name ".sig" = true) :
    ∃ pairs : List (VerifyingKey × DeltaId), names = pairs.map pairName ∧
      ∀ pair ∈ pairs, pair ∈ ledger.signed := by
  induction names with
  | nil => exact ⟨[], rfl, by simp⟩
  | cons name names ih =>
    obtain ⟨hname, hrest⟩ := List.forall_mem_cons.mp hnames
    obtain ⟨pairs, rfl, hpairs⟩ := ih hrest
    have hmem := h.mem_names_iff.mp hname.1
    rw [Ledger.names, Finset.mem_union, Finset.mem_image] at hmem
    rcases hmem with hstored | ⟨pair, hpair, rfl⟩
    · have hsig := h.stored name hstored
      rw [hname.2] at hsig
      cases hsig
    · exact ⟨pair :: pairs, rfl, List.forall_mem_cons.mpr ⟨hpair, hpairs⟩⟩

/-- From its listing on, `fetch_endorsements` is committed to the endorsements
of the ledger at the listing. -/
theorem pending_fetchProgram {α β : Type} {S : α → β → Prop} {spec : Ledger → β × Ledger}
    (t : TrustAdapter M) (deltaId : DeltaId)
    {rest : Result EndorsementFetchResult → Program M α} {ledger : Ledger}
    (hsame : ∀ ledger', (spec ledger').2 = ledger')
    (hrest : ∀ ledger' (store : M), ledger ≤ ledger' → Represents content store ledger' →
      ∀ ledger'', ledger' ≤ ledger'' → Committed (Represents content) S
        (rest (.ok (ledger'.fetch t deltaId))) (spec ledger').1 ledger'') :
    Pending (Represents content) S spec ((t.fetchProgram deltaId).andThen rest) ledger := by
  intro ledger' store hle hrep
  refine Or.inr ⟨by rw [hsame]; exact hrep, ?_⟩
  obtain ⟨names, hnames, hmem⟩ := MapAdapter.listObjects_ok store ".sig"
  obtain ⟨pairs, rfl, hpairs⟩ := hrep.exists_pairs fun name hname => (hmem name).mp hname
  have hscan : Committed (Represents content) (· = ·)
      (t.scanProgram deltaId (pairs.map pairName) ⟨∅, ∅⟩) _ ledger' :=
    committed_scanProgram hdelta hdigit hsign hbase64 hserde t deltaId hpairs
  -- The scan at the moment of the listing is the whole of `fetch_endorsements`.
  have hresult := hscan.eval hrep
  have hfetch := t.eval_fetchProgram deltaId store
  rw [TrustAdapter.fetchProgram, Program.eval_access] at hfetch
  simp only [hnames, id] at hfetch
  rw [hfetch, hrep.fetchEndorsements_eq hdelta hdigit hsign hbase64 hserde] at hresult
  rw [← hresult] at hscan
  simp only [hnames, hsame]
  exact hscan.andThen (hrest ledger' store hle hrep)

/-! ## The calls -/

/-- A call that has nothing left to do after its next access happens there. -/
theorem commits_at_access {t : TrustAdapter M} {request : Request}
    (hhonest : request.Honest content) {next : M → Program M Reply} {effect : M → M}
    (hprogram : t.program request = .access next effect) {store : M} {ledger : Ledger}
    (hrep : Represents content store ledger) {reply : Reply} (hdone : next store = .done reply) :
    Represents content (effect store) (ledger.call content t request).2 ∧
      Committed (Represents content) Reply.Matches (next store) (ledger.call content t request).1
        (ledger.call content t request).2 := by
  have heval := t.eval_program request store
  rw [hprogram, Program.eval_access, hdone, Program.eval_done, Prod.mk.injEq] at heval
  obtain ⟨hmatch, hnext⟩ := hrep.call hdelta hdigit hsign hbase64 hserde t hhonest
  rw [hdone, heval.2]
  refine ⟨hnext, ?_⟩
  rw [heval.1]
  exact hmatch

/-- A read happens at its first access, or at the listing of the endorsements.
The object that it found is still the same there. -/
theorem pending_readProgram {α β : Type} {S : α → β → Prop} {spec : Ledger → β × Ledger}
    (t : TrustAdapter M) {key : String} (hkey : endsWith key ".sig" = false)
    (offset length : UInt64) {reply : Result Bytes → α}
    (hsame : ∀ ledger, (spec ledger).2 = ledger)
    (hmatch : ∀ ledger (store : M), Represents content store ledger →
      S (reply ((t.withInner store).readObject key offset length)) (spec ledger).1)
    (ledger : Ledger) :
    Pending (Represents content) S spec
      ((t.readProgram key offset length).andThen fun result => .done (reply result)) ledger := by
  intro ledger₁ store₁ hle hrep
  have heval := t.eval_readProgram key offset length store₁
  rw [TrustAdapter.readProgram, Program.eval_access] at heval
  rcases t.afterRead_cases key offset length (Adapter.readObject store₁ key 0 0) with
    ⟨out, hout⟩ | ⟨data, deltaId, hdata, hfetch⟩
  · refine Or.inr ⟨by rw [hsame]; exact hrep, ?_⟩
    rw [hout, Program.eval_done, Prod.mk.injEq] at heval
    beta_reduce
    rw [hout, heval.1]
    exact hmatch ledger₁ store₁ hrep
  · refine Or.inl ⟨hrep, ?_⟩
    beta_reduce
    rw [hfetch, Program.andThen_assoc]
    apply pending_fetchProgram hdelta hdigit hsign hbase64 hserde t deltaId hsame
    intro ledger₂ store₂ hle₂ hrep₂ ledger₃ hle₃
    have hobj₁ := hrep.objects key hkey
    rw [MapAdapter.readObject_eq_ok_iff.mp hdata] at hobj₁
    split_ifs at hobj₁ with hstored
    have hdata₂ : Adapter.readObject store₂ key 0 0 = .ok data := by
      rw [Option.some.inj hobj₁]
      exact MapAdapter.readObject_some (hrep₂.objects_of_stored (hle₂.1 hstored))
    have heval₂ := t.eval_readProgram key offset length store₂
    rw [TrustAdapter.readProgram, Program.eval_access, hdata₂, ← hdata, hfetch, id,
      Program.eval_andThen, TrustAdapter.eval_fetchProgram, Program.eval_done,
      Prod.mk.injEq, hrep₂.fetchEndorsements_eq hdelta hdigit hsign hbase64 hserde] at heval₂
    show S (reply _) _
    rw [heval₂.1]
    exact hmatch ledger₂ store₂ hrep₂

/-- An `endorse` happens when it finds its record, or when it writes it. -/
theorem pending_endorse (t : TrustAdapter M) {deltaId : DeltaId}
    (hdigest : IsLowerHex deltaId.digest) (ledger : Ledger) :
    Pending (Represents content) Reply.Matches (Ledger.call content t (.endorse deltaId))
      (t.program (.endorse deltaId)) ledger := by
  intro ledger₁ store₁ hle hrep
  cases hsk : t.keystore.endorsementKey with
  | none =>
    refine Or.inr ?_
    simp only [hsk, Ledger.call]
    exact ⟨hrep, .unit (.err _ _)⟩
  | some sk =>
    obtain ⟨present, hpresent, hsigned⟩ :=
      hrep.exists_alreadyEndorsed hdelta hdigit hsign hbase64 hserde t sk hdigest
    simp only [hsk, hpresent, Ledger.call]
    cases present with
    | true =>
      refine Or.inr ⟨?_, .unit (.ok ())⟩
      rw [Finset.insert_eq_self.mpr (hsigned rfl)]
      exact hrep
    | false =>
      refine Or.inl ⟨hrep, ?_⟩
      intro ledger₂ store₂ hle₂ hrep₂
      obtain ⟨hok, hnext⟩ := hrep₂.writeEndorsement hserde t sk hdigest
      refine Or.inr ?_
      simp only [hsk, Ledger.call]
      refine ⟨hnext, ?_⟩
      show Reply.Matches (.unit ((t.withInner store₂).writeEndorsement sk deltaId).1) _
      rw [hok]
      exact .unit (.ok ())

/-- Every call of a well-behaved client is pending until it happens. -/
theorem pending_program (t : TrustAdapter M) {request : Request}
    (hhonest : request.Honest content) (ledger : Ledger) :
    Pending (Represents content) Reply.Matches (Ledger.call content t request)
      (t.program request) ledger := by
  cases request with
  | writeObject key data =>
    intro ledger' store hle hrep
    exact Or.inr (commits_at_access hdelta hdigit hsign hbase64 hserde hhonest rfl hrep rfl)
  | listObjects ext =>
    intro ledger' store hle hrep
    exact Or.inr (commits_at_access hdelta hdigit hsign hbase64 hserde hhonest rfl hrep rfl)
  | endorse deltaId => exact pending_endorse hdelta hdigit hsign hbase64 hserde t hhonest ledger
  | readObject key offset length =>
    apply pending_readProgram hdelta hdigit hsign hbase64 hserde t hhonest offset length
    · exact fun _ => rfl
    · exact fun ledger store hrep => .bytes
        (hrep.read_agree hdelta hdigit hsign hbase64 hserde t hhonest offset length)
  | fetchEndorsements deltaId =>
    apply pending_fetchProgram hdelta hdigit hsign hbase64 hserde t deltaId
    · exact fun _ => rfl
    · exact fun ledger' store hle hrep ledger'' hle' => .endorsements _
  | checkDelta deltaId =>
    have hkey := endsWith_sig_of_delta (hdelta.endsWith_key deltaId)
    apply pending_readProgram hdelta hdigit hsign hbase64 hserde t hkey 0 0
    · exact fun _ => rfl
    · intro ledger store hrep
      have hcheck := hrep.checkDelta hdelta hdigit hsign hbase64 hserde t hhonest
      rw [TrustAdapter.checkDelta] at hcheck
      generalize (t.withInner store).readObject deltaId.key 0 0 = out at hcheck ⊢
      cases out <;> exact hcheck

end

/-! ## Runs -/

/-- The accesses of all calls. -/
def programs {ι : Type} (calls : ι → NodeCall M) (i : ι) : Program M Reply := (calls i).program

/-- The calls on the ledger. -/
noncomputable def specs {ι : Type} (content : String → Bytes) (calls : ι → NodeCall M) (i : ι) :
    Ledger → Answer × Ledger :=
  (calls i).spec content

/-- The history explains the state: its ledger is what the store stands for,
the calls that have returned have happened with matching answers, and the calls
that have not started have not happened. -/
structure Linearizes {ι : Type} (content : String → Bytes) (s : State ι M Reply)
    (h : History ι Ledger Answer) : Prop where
  store : Represents content s.store h.value
  returned : ∀ i reply, s.thread i = .running (.done reply) →
    ∃ answer, h.answer i = some answer ∧ reply.Matches answer
  waiting : ∀ i, s.thread i = .waiting → h.answer i = none

omit [MapAdapter M] [SerdeSlice EndorsementRecord] in
theorem le_specs {ι : Type} (calls : ι → NodeCall M) (i : ι) (ledger : Ledger) :
    ledger ≤ (specs content calls i ledger).2 :=
  ledger.le_call content (calls i).node (calls i).request

/-- A state with an explanation is linearized by it. -/
theorem linearizes_of_explains {ι : Type} {calls : ι → NodeCall M} {s : State ι M Reply}
    {h : History ι Ledger Answer}
    (hexpl : Explains (Represents content) Reply.Matches (specs content calls) s h) :
    Linearizes content s h where
  store := hexpl.store
  returned _ _ hi := hexpl.exists_answer hi
  waiting _ hi := hexpl.answer_of_waiting hi

/-- At the start nothing has happened. -/
theorem linearizes_start {ι : Type} {store : M} {ledger : Ledger}
    (hstart : Represents content store ledger) :
    Linearizes content (State.start store : State ι M Reply) (History.start ledger) where
  store := hstart
  returned _ _ hi := by cases hi
  waiting _ _ := rfl

section

variable (hdelta : DeltaIdLaws) (hdigit : DigitLaw) (hsign : SignatureLaw)
  (hbase64 : Base64Law) (hserde : SerdeSliceLaw EndorsementRecord)
include hdelta hdigit hsign hbase64 hserde

/-- Every call is pending before it starts. -/
theorem pending_programs {ι : Type} (calls : ι → NodeCall M)
    (hhonest : ∀ i, (calls i).request.Honest content) (i : ι) (ledger : Ledger) :
    Pending (Represents content) Reply.Matches (specs content calls i) (programs calls i) ledger :=
  pending_program hdelta hdigit hsign hbase64 hserde (calls i).node (hhonest i) ledger

/-- The history of a run, up to a point of it and up to its end. -/
theorem exists_histories {ι : Type} [DecidableEq ι] (calls : ι → NodeCall M)
    (hhonest : ∀ i, (calls i).request.Honest content) {store : M} {ledger : Ledger}
    (hstart : Represents content store ledger) {s s' : State ι M Reply}
    (hrun : Run (programs calls) (State.start store) s) (hrun' : Run (programs calls) s s') :
    ∃ h h', AtomicRun (specs content calls) (History.start ledger) h ∧
      AtomicRun (specs content calls) h h' ∧ Linearizes content s h ∧ Linearizes content s' h' := by
  have hpending := pending_programs hdelta hdigit hsign hbase64 hserde calls hhonest
  obtain ⟨h, hatomic, hexpl⟩ :=
    exists_atomicRun (le_specs calls) hpending (explains_start hstart) hrun
  obtain ⟨h', hatomic', hexpl'⟩ := exists_atomicRun (le_specs calls) hpending hexpl hrun'
  exact ⟨h, h', hatomic, hatomic', linearizes_of_explains hexpl, linearizes_of_explains hexpl'⟩

/-- The calls of a run by any nodes have one order, which grows along the run.
At each of its states the calls that have returned stand in the order so far,
with the answers that the ledger gives in this order, and those that have not
started do not.  So each call happens at one moment between its start and its
return.  And at each state, every call can return. -/
theorem linearizable {ι : Type} [DecidableEq ι] (calls : ι → NodeCall M)
    (hhonest : ∀ i, (calls i).request.Honest content) {store : M} {ledger : Ledger}
    (hrepresents : Represents content store ledger) {trace : ℕ → State ι M Reply}
    (hstart : trace 0 = State.start store) (htrace : IsTrace (programs calls) trace) :
    (∃ order : ℕ → List ι, (∀ k, order k <+: order (k + 1)) ∧ (∀ k, (order k).Nodup) ∧
        ∀ k, Linearizes content (trace k)
          (History.ofOrder (specs content calls) ledger (order k))) ∧
      ∀ k i, ∃ s reply, Run (programs calls) (trace k) s ∧
        s.thread i = .running (.done reply) := by
  have hpending := pending_programs hdelta hdigit hsign hbase64 hserde calls hhonest
  have hexpl : Explains (Represents content) Reply.Matches (specs content calls) (trace 0)
      (History.start ledger) := by
    rw [hstart]
    exact explains_start hrepresents
  obtain ⟨order, hprefix, hnodup, hexplains⟩ :=
    exists_order (le_specs calls) hpending hexpl htrace
  constructor
  · exact ⟨order, hprefix, hnodup, fun k => linearizes_of_explains (hexplains k)⟩
  · exact fun k i => exists_run_returned _ (trace k) i

end

end

section

open Reference

/-- The calls of the samples. -/
inductive SharedCall where
  | write
  | endorse
  | read
  | readAgain
  deriving DecidableEq

/-- A node writes the sample delta and endorses it, and the node reads it twice
in the given mode. -/
def sharedCalls (mode : EndorsementMode) : SharedCall → NodeCall MemoryMap
  | .write => ⟨emptyNode, .writeObject (sampleDelta 1).key sampleData⟩
  | .endorse => ⟨emptyNode, .endorse (sampleDelta 1)⟩
  | .read => ⟨emptyNode.setEndorsementMode mode, .readObject (sampleDelta 1).key 0 0⟩
  | .readAgain => ⟨emptyNode.setEndorsementMode mode, .readObject (sampleDelta 1).key 0 0⟩

theorem honest_sharedCalls (mode : EndorsementMode) (i : SharedCall) :
    (sharedCalls mode i).request.Honest fun _ => sampleData := by
  have hkey : endsWith (sampleDelta 1).key ".sig" = false := by decide
  cases i with
  | write => exact ⟨hkey, rfl⟩
  | endorse => exact isLowerHex_sampleDelta 1
  | read => exact hkey
  | readAgain => exact hkey

theorem represents_new :
    Represents (fun _ => sampleData) MemoryMap.new Ledger.empty :=
  .empty fun _ => rfl

/-- The first read starts on the empty store, and the write runs before its
first access.  Then the read and the endorsement take turns. -/
def overtaken : ℕ → SharedCall
  | 0 => .read
  | 1 => .write
  | 2 => .write
  | k + 3 => if k % 2 = 0 then .endorse else .read

/-- The states of this schedule. -/
def overtakenStates : ℕ → State SharedCall MemoryMap Reply :=
  (State.start MemoryMap.new).follow (programs (sharedCalls .single)) overtaken

/-- One order of the calls explains every state of this schedule, where a write
returns while the read is under way. -/
theorem linearizable_sample :
    (∃ order : ℕ → List SharedCall, (∀ k, order k <+: order (k + 1)) ∧ (∀ k, (order k).Nodup) ∧
        ∀ k, Linearizes (fun _ => sampleData) (overtakenStates k) (History.ofOrder
          (specs (fun _ => sampleData) (sharedCalls .single)) Ledger.empty (order k))) ∧
      ∀ k i, ∃ s reply, Run (programs (sharedCalls .single)) (overtakenStates k) s ∧
        s.thread i = .running (.done reply) :=
  linearizable deltaIdLaws digitLaw signatureLaw base64Law serdeSliceLaw (sharedCalls .single)
    (honest_sharedCalls .single) represents_new rfl (isTrace_follow _ _ overtaken)

end

end MeldaSec
