import MeldaSec.Encryption
import MeldaSec.Lib.Atomicity

/-!
# The calls one access at a time

A call of the trust adapter is not one step over the inner adapter.  A read
fetches the object, lists the endorsements and then reads one record after the
other, and other nodes use the store in between.  `TrustAdapter.program` is
the call as the sequence of its accesses: one for each call of a method of the
inner adapter, with a turn of the loop of `fetch_endorsements` as one access,
because a turn reads at most one record.

`eval_program` says that a call that nobody interrupts is the call as before.
The adapter that makes the call is its configuration, and its store is the
shared one.
-/

namespace MeldaSec

open Rust Atomicity

variable [Crates] [SerdeSlice EndorsementRecord] {A : Type} [Adapter A]

namespace TrustAdapter

/-- The loop of `fetch_endorsements`. -/
def scanProgram (t : TrustAdapter A) (deltaId : DeltaId) :
    List String → EndorsementFetchResult → Program A (Result EndorsementFetchResult)
  | [], result => .done (.ok result)
  | sigFile :: sigFiles, result =>
    .access (fun store =>
      match (t.withInner store).endorsementVerdict deltaId sigFile with
      | .ok verdict => t.scanProgram deltaId sigFiles (result.record verdict)
      | .err e => .done (.err e)
      | .panic => .done .panic) id

/-- `fetch_endorsements`: the listing, and then the loop over it. -/
def fetchProgram (t : TrustAdapter A) (deltaId : DeltaId) :
    Program A (Result EndorsementFetchResult) :=
  .access (fun store =>
    match Adapter.listObjects store ".sig" with
    | .ok sigFiles => t.scanProgram deltaId sigFiles ⟨∅, ∅⟩
    | .err _ => .done (.ok ⟨∅, ∅⟩)
    | .panic => .done .panic) id

/-- The two counts of `read_object`, once the endorsements are there. -/
def settle (t : TrustAdapter A) (data : Bytes) (endorsements : EndorsementFetchResult) :
    Result Bytes :=
  if !t.endorsementMode.enough endorsements.valid.card t.keystore.trustedKeyCount then
    .err "missing_or_insufficient_endorsements"
  else if !t.endorsementMode.enough (t.allowedEndorsers endorsements data)
      t.keystore.trustedKeyCount then
    .err "not_allowed_by_policy"
  else .ok data

/-- What `read_object` does with the bytes of a delta. -/
def gateProgram (t : TrustAdapter A) (deltaId : DeltaId) (data : Bytes) :
    Program A (Result Bytes) :=
  if t.deltaFilter.isBlacklisted deltaId then .done (.err "blacklisted_object_key")
  else if t.deltaFilter.isWhitelisted deltaId || t.endorsementMode == .permissive then
    .done (.ok data)
  else (t.fetchProgram deltaId).andThen fun endorsements => .done (endorsements >>= t.settle data)

/-- What `read_object` does behind its first access. -/
def afterRead (t : TrustAdapter A) (key : String) (offset length : UInt64) :
    Result Bytes → Program A (Result Bytes)
  | .ok data =>
    if !endsWith key ".delta" || offset != 0 || length != 0 then
      .done (if offset == 0 && length == 0 then .ok data
        else sliceOrErr "invalid_slice" data offset length)
    else
      match DeltaId.fromStr key with
      | .panic => .done .panic
      | .err _ => .done (.err "invalid delta")
      | .ok deltaId => t.gateProgram deltaId data
  | .err e => .done (.err e)
  | .panic => .done .panic

/-- `read_object`: the object, and then the gate for the whole read of a delta. -/
def readProgram (t : TrustAdapter A) (key : String) (offset length : UInt64) :
    Program A (Result Bytes) :=
  .access (fun store => t.afterRead key offset length (Adapter.readObject store key 0 0)) id

/-- `endorse`: the look at the own record, and then the write. -/
def endorseProgram (t : TrustAdapter A) (deltaId : DeltaId) : Program A (Result Unit) :=
  .access (fun store =>
    match t.keystore.endorsementKey with
    | none => .done (.err "missing endorsement key")
    | some sk =>
      match (t.withInner store).alreadyEndorsed sk deltaId with
      | .ok true => .done (.ok ())
      | .ok false =>
        .access (fun store => .done ((t.withInner store).writeEndorsement sk deltaId).1)
          fun store => ((t.withInner store).writeEndorsement sk deltaId).2
      | .err e => .done (.err e)
      | .panic => .done .panic) id

/-- The verdict of `check_delta` on what the read returned. -/
def verdictOf : Result Bytes → Result Bool
  | .ok _ => .ok true
  | .err _ => .ok false
  | .panic => .panic

/-- A call as the sequence of its accesses. -/
def program (t : TrustAdapter A) : Request → Program A Reply
  | .writeObject key data =>
    .access (fun store => .done (.unit ((t.withInner store).writeObject key data).1))
      fun store => ((t.withInner store).writeObject key data).2.inner
  | .readObject key offset length =>
    (t.readProgram key offset length).andThen fun result => .done (.bytes result)
  | .listObjects ext => .access (fun store => .done (.names (Adapter.listObjects store ext))) id
  | .endorse deltaId => (t.endorseProgram deltaId).andThen fun result => .done (.unit result)
  | .fetchEndorsements deltaId =>
    (t.fetchProgram deltaId).andThen fun result => .done (.endorsements result)
  | .checkDelta deltaId =>
    (t.readProgram deltaId.key 0 0).andThen fun result => .done (.verdict (verdictOf result))

/-! ## Calls that nobody interrupts -/

theorem eval_scanProgram (t : TrustAdapter A) (deltaId : DeltaId) (store : A)
    (sigFiles : List String) (result : EndorsementFetchResult) :
    (t.scanProgram deltaId sigFiles result).eval store
      = (sigFiles.foldlM (fun result sigFile =>
          result.record <$> (t.withInner store).endorsementVerdict deltaId sigFile) result,
        store) := by
  induction sigFiles generalizing result with
  | nil => rfl
  | cons sigFile sigFiles ih =>
    rw [scanProgram, Program.eval_access, List.foldlM_cons, id]
    cases (t.withInner store).endorsementVerdict deltaId sigFile with
    | ok verdict => exact ih _
    | err e => rfl
    | panic => rfl

theorem eval_fetchProgram (t : TrustAdapter A) (deltaId : DeltaId) (store : A) :
    (t.fetchProgram deltaId).eval store
      = ((t.withInner store).fetchEndorsements deltaId, store) := by
  have hinner : (t.withInner store).inner = store := rfl
  rw [fetchProgram, Program.eval_access, fetchEndorsements, hinner, id]
  cases Adapter.listObjects store ".sig" with
  | ok sigFiles => exact t.eval_scanProgram deltaId store sigFiles _
  | err e => rfl
  | panic => rfl

theorem eval_gateProgram (t : TrustAdapter A) (deltaId : DeltaId) (data : Bytes) (store : A) :
    (t.gateProgram deltaId data).eval store = ((t.withInner store).gate deltaId data, store) := by
  have hblack : (t.withInner store).deltaFilter = t.deltaFilter := rfl
  have hmode : (t.withInner store).endorsementMode = t.endorsementMode := rfl
  rw [gateProgram, gate, hblack, hmode]
  split_ifs
  · rfl
  · rfl
  · rw [Program.eval_andThen, eval_fetchProgram]
    rfl

theorem eval_readProgram (t : TrustAdapter A) (key : String) (offset length : UInt64)
    (store : A) :
    (t.readProgram key offset length).eval store
      = ((t.withInner store).readObject key offset length, store) := by
  have hinner : (t.withInner store).inner = store := rfl
  rw [readProgram, Program.eval_access, id]
  by_cases hwhole : endsWith key ".delta" = true ∧ offset = 0 ∧ length = 0
  · obtain ⟨hkey, rfl, rfl⟩ := hwhole
    rw [readObject_whole _ hkey, hinner]
    cases Adapter.readObject store key 0 0 with
    | ok data =>
      simp only [afterRead, hkey, Outcome.ok_bind]
      cases DeltaId.fromStr key with
      | ok deltaId => exact t.eval_gateProgram deltaId data store
      | err e => rfl
      | panic => rfl
    | err e => rfl
    | panic => rfl
  · have hpart : (!endsWith key ".delta" || offset != 0 || length != 0) = true := by
      by_contra hnot
      apply hwhole
      simpa [and_assoc] using hnot
    rw [readObject, hinner]
    cases Adapter.readObject store key 0 0 with
    | ok data => simp only [afterRead, hpart, if_true, Outcome.ok_bind, Program.eval_done]
    | err e => rfl
    | panic => rfl

/-- Behind its first access a read returns, or it asks for endorsements. -/
theorem afterRead_cases (t : TrustAdapter A) (key : String) (offset length : UInt64)
    (result : Result Bytes) :
    (∃ out, t.afterRead key offset length result = .done out) ∨
      ∃ data deltaId, result = .ok data ∧ t.afterRead key offset length result
        = (t.fetchProgram deltaId).andThen fun endorsements =>
            .done (endorsements >>= t.settle data) := by
  cases result with
  | err e => exact Or.inl ⟨_, rfl⟩
  | panic => exact Or.inl ⟨_, rfl⟩
  | ok data =>
    rw [afterRead]
    split
    · exact Or.inl ⟨_, rfl⟩
    · split
      · exact Or.inl ⟨_, rfl⟩
      · exact Or.inl ⟨_, rfl⟩
      · rename_i deltaId _
        rw [gateProgram]
        split_ifs
        · exact Or.inl ⟨_, rfl⟩
        · exact Or.inl ⟨_, rfl⟩
        · exact Or.inr ⟨data, deltaId, rfl, rfl⟩

theorem eval_endorseProgram (t : TrustAdapter A) (deltaId : DeltaId) (store : A) :
    (t.endorseProgram deltaId).eval store = (t.withInner store).endorse deltaId := by
  have hkey : (t.withInner store).keystore.endorsementKey = t.keystore.endorsementKey := rfl
  rw [endorseProgram, Program.eval_access, endorse, hkey, id]
  cases t.keystore.endorsementKey with
  | none => rfl
  | some sk =>
    simp only
    cases (t.withInner store).alreadyEndorsed sk deltaId with
    | ok present => cases present <;> rfl
    | err e => rfl
    | panic => rfl

/-- A call that nobody interrupts is the call of the adapter over the store. -/
theorem eval_program (t : TrustAdapter A) (request : Request) (store : A) :
    (t.program request).eval store
      = (((t.withInner store).call request).1, ((t.withInner store).call request).2.inner) := by
  cases request with
  | writeObject key data => rfl
  | listObjects ext => rfl
  | readObject key offset length =>
    rw [program, Program.eval_andThen, eval_readProgram]
    rfl
  | endorse deltaId =>
    rw [program, Program.eval_andThen, eval_endorseProgram]
    rfl
  | fetchEndorsements deltaId =>
    rw [program, Program.eval_andThen, eval_fetchProgram]
    rfl
  | checkDelta deltaId =>
    rw [program, Program.eval_andThen, eval_readProgram, call, checkDelta]
    cases (t.withInner store).readObject deltaId.key 0 0 <;> rfl

end TrustAdapter

end MeldaSec
