import MeldaSec.TrustAdapter

/-!
# What the scan of the endorsements finds

`fetchEndorsements` runs over the listed `.sig` names and leaves at the first
one with a bad record.  This module says what the scan finds in terms of the
store, without the loop.

The first group describes one name.  `HoldsSignature` is a stored record that
passes every check of the reader.  A listed name is harmless to the scan
(`Passes`), stops it with an error, or makes an `unwrap` fail (`Unwraps`).
The second group describes the scan: it finishes when every listed name is
harmless (`CleanScan`), it panics when the first name that is not harmless
makes an `unwrap` fail (`Derails`), and a finished scan has sorted the
complete endorsements of the delta into valid and invalid keys.
-/

namespace MeldaSec

open Rust

variable [Crates] {A B : Type} [Adapter A] [Adapter B] [SerdeSlice EndorsementRecord]

/-! ## One name -/

/-- The object `name` is a version-1 Ed25519 record with the signature `sig`. -/
def HoldsSignature (store : A) (name : String) (sig : Signature) : Prop :=
  ∃ bytes, Adapter.readObject store name 0 0 = .ok bytes ∧
    ∃ endorsement : EndorsementRecord, SerdeSlice.fromSlice bytes = .ok endorsement ∧
      endorsement.version = 1 ∧ endorsement.algorithm = "Ed25519" ∧
      Crates.base64Decode endorsement.signature = .ok sig.val

theorem HoldsSignature.unique {store : A} {name : String} {sig sig' : Signature}
    (h : HoldsSignature store name sig) (h' : HoldsSignature store name sig') :
    sig = sig' := by
  obtain ⟨bytes, hread, endorsement, hparse, -, -, hsig⟩ := h
  obtain ⟨bytes', hread', endorsement', hparse', -, -, hsig'⟩ := h'
  obtain rfl := Outcome.ok.inj (hread.symm.trans hread')
  obtain rfl := Except.ok.inj (hparse.symm.trans hparse')
  exact Subtype.ext (Except.ok.inj (hsig.symm.trans hsig'))

/-- A held signature depends on the one object. -/
theorem holdsSignature_congr {s : A} {s' : B} {name : String}
    (h : ∀ bytes, Adapter.readObject s name 0 0 = .ok bytes ↔
      Adapter.readObject s' name 0 0 = .ok bytes) (sig : Signature) :
    HoldsSignature s name sig ↔ HoldsSignature s' name sig := by
  simp only [HoldsSignature, h]

/-- The scan of `deltaId` is not stopped by `name`: it is not the name of an
endorsement, or it is about another delta, or its record is complete and its
key is the encoding of a verifying key. -/
def Passes (store : A) (deltaId : DeltaId) (name : String) : Prop :=
  (∃ e, EndorsementKey.fromStr name = .err e) ∨
    ∃ key, EndorsementKey.fromStr name = .ok key ∧
      (key.deltaId = deltaId →
        ∃ (sig : Signature) (vk : VerifyingKey),
          HoldsSignature store key.fileName sig ∧ vk.toBytes = key.pubkey)

/-- An `unwrap` fails on `name`: the name is broken, or it is about the delta
and has a complete record but a key that is not thirty-two bytes long. -/
def Unwraps (store : A) (deltaId : DeltaId) (name : String) : Prop :=
  EndorsementKey.IsBroken name ∨
    ∃ (key : EndorsementKey) (sig : Signature), EndorsementKey.fromStr name = .ok key ∧
      key.deltaId = deltaId ∧ HoldsSignature store key.fileName sig ∧
      key.pubkey.length ≠ 32

theorem readEndorsementRecord_eq_ok_iff {t : TrustAdapter A} {key : EndorsementKey}
    {endorsement : EndorsementRecord} :
    t.readEndorsementRecord key = .ok endorsement ↔
      ∃ bytes, Adapter.readObject t.inner key.fileName 0 0 = .ok bytes ∧
        SerdeSlice.fromSlice bytes = .ok endorsement ∧
        endorsement.version = 1 ∧ endorsement.algorithm = "Ed25519" := by
  simp only [TrustAdapter.readEndorsementRecord, Outcome.bind_eq_ok_iff,
    Outcome.ofExcept_eq_ok_iff]
  constructor
  · intro ⟨bytes, hread, endorsement', hparse, h⟩
    split_ifs at h with hformat
    obtain rfl := Outcome.ok.inj h
    rw [not_or, not_ne_iff, not_ne_iff] at hformat
    exact ⟨bytes, hread, hparse, hformat⟩
  · intro ⟨bytes, hread, hparse, hversion, halgorithm⟩
    refine ⟨bytes, hread, endorsement, hparse, ?_⟩
    rw [if_neg (by simp [hversion, halgorithm])]

/-- Only the store can make the reading of a record panic. -/
theorem readEndorsementRecord_ne_panic {t : TrustAdapter A} {key : EndorsementKey}
    (hread : Adapter.readObject t.inner key.fileName 0 0 ≠ .panic) :
    t.readEndorsementRecord key ≠ .panic := by
  rw [TrustAdapter.readEndorsementRecord, ne_eq, Outcome.bind_eq_panic_iff, not_or]
  refine ⟨hread, ?_⟩
  rintro ⟨bytes, -, h⟩
  rw [Outcome.bind_eq_panic_iff] at h
  rcases h with h | ⟨endorsement, -, h⟩
  · exact Outcome.ofExcept_ne_panic _ h
  · split_ifs at h

/-- A record whose signature has sixty-four bytes is a held signature. -/
theorem holdsSignature_iff {t : TrustAdapter A} {key : EndorsementKey} {sig : Signature} :
    HoldsSignature t.inner key.fileName sig ↔
      ∃ endorsement sigBytes, t.readEndorsementRecord key = .ok endorsement ∧
        Crates.base64Decode endorsement.signature = .ok sigBytes ∧
        tryInto 64 sigBytes = some sig := by
  simp only [readEndorsementRecord_eq_ok_iff, tryInto_eq_some_iff, HoldsSignature]
  constructor
  · intro ⟨bytes, hread, endorsement, hparse, hversion, halgorithm, hsig⟩
    exact ⟨endorsement, sig.val, ⟨bytes, hread, hparse, hversion, halgorithm⟩, hsig, rfl⟩
  · rintro ⟨endorsement, _, ⟨bytes, hread, hparse, hversion, halgorithm⟩, hsig, rfl⟩
    exact ⟨bytes, hread, endorsement, hparse, hversion, halgorithm, hsig⟩

/-- The verdict on an endorsement of the scanned delta, from its record. -/
def TrustAdapter.recordVerdict (t : TrustAdapter A) (key : EndorsementKey) :
    Result (Option (Bytes × Bool)) := do
  let endorsement ← t.readEndorsementRecord key
  let sigBytes ← Outcome.ofExcept (Crates.base64Decode endorsement.signature)
  let sig ← Outcome.okOr "invalid signature length" (tryInto 64 sigBytes)
  let pubKeySlice ← Outcome.unwrapSome (tryInto 32 key.pubkey)
  let vk ← Outcome.okOr "invalid endorsement public key" (VerifyingKey.fromBytes pubKeySlice)
  .ok (some (key.pubkey, t.keystore.isTrusted vk && vk.verify (asBytes key.deltaId.digest) sig))

/-- What the scan does with a name: it panics, or it skips the name, or the
name is about the delta and its record is checked. -/
theorem endorsementVerdict_cases (t : TrustAdapter A) (deltaId : DeltaId) (name : String) :
    (EndorsementKey.fromStr name = .panic ∧ t.endorsementVerdict deltaId name = .panic) ∨
      (∃ e, EndorsementKey.fromStr name = .err e ∧
        t.endorsementVerdict deltaId name = .ok none) ∨
      ∃ key, EndorsementKey.fromStr name = .ok key ∧
        (key.deltaId ≠ deltaId ∧ t.endorsementVerdict deltaId name = .ok none ∨
          key.deltaId = deltaId ∧ t.endorsementVerdict deltaId name = t.recordVerdict key) := by
  unfold TrustAdapter.endorsementVerdict
  cases EndorsementKey.fromStr name with
  | panic => exact Or.inl ⟨rfl, rfl⟩
  | err e => exact Or.inr (Or.inl ⟨e, rfl, rfl⟩)
  | ok key =>
    refine Or.inr (Or.inr ⟨key, rfl, ?_⟩)
    by_cases hd : key.deltaId = deltaId
    · subst hd
      exact Or.inr ⟨rfl, if_pos rfl⟩
    · exact Or.inl ⟨hd, if_neg hd⟩

/-- A record has a verdict when it is complete and its key is the encoding of
a verifying key. -/
theorem recordVerdict_eq_ok_iff {t : TrustAdapter A} {key : EndorsementKey}
    {verdict : Option (Bytes × Bool)} :
    t.recordVerdict key = .ok verdict ↔
      ∃ (sig : Signature) (vk : VerifyingKey), HoldsSignature t.inner key.fileName sig ∧
        vk.toBytes = key.pubkey ∧
        verdict = some (key.pubkey,
          t.keystore.isTrusted vk && vk.verify (asBytes key.deltaId.digest) sig) := by
  simp only [TrustAdapter.recordVerdict, Outcome.bind_eq_ok_iff, Outcome.ofExcept_eq_ok_iff,
    Outcome.okOr_eq_ok_iff, Outcome.unwrapSome_eq_ok_iff, Outcome.ok.injEq, holdsSignature_iff,
    VerifyingKey.toBytes_eq_iff]
  constructor
  · rintro ⟨endorsement, hread, sigBytes, hdecode, sig, htry, array, harray, vk, hvk, rfl⟩
    exact ⟨sig, vk, ⟨endorsement, sigBytes, hread, hdecode, htry⟩, ⟨array, harray, hvk⟩, rfl⟩
  · rintro ⟨sig, vk, ⟨endorsement, sigBytes, hread, hdecode, htry⟩, ⟨array, harray, hvk⟩, rfl⟩
    exact ⟨endorsement, hread, sigBytes, hdecode, sig, htry, array, harray, vk, hvk, rfl⟩

/-- Over a store that does not panic itself, the check of a record panics when
the record is complete and its key is not thirty-two bytes long. -/
theorem recordVerdict_eq_panic_iff {t : TrustAdapter A} {key : EndorsementKey}
    (hread : Adapter.readObject t.inner key.fileName 0 0 ≠ .panic) :
    t.recordVerdict key = .panic ↔
      (∃ sig, HoldsSignature t.inner key.fileName sig) ∧ key.pubkey.length ≠ 32 := by
  simp only [TrustAdapter.recordVerdict, Outcome.bind_eq_panic_iff,
    readEndorsementRecord_ne_panic hread, Outcome.ofExcept_ne_panic, Outcome.okOr_ne_panic,
    false_or, Outcome.ofExcept_eq_ok_iff, Outcome.okOr_eq_ok_iff, holdsSignature_iff,
    reduceCtorEq, and_false, exists_false, or_false, ← tryInto_eq_none_iff]
  constructor
  · intro ⟨endorsement, hrecord, sigBytes, hdecode, sig, htry, hpanic⟩
    refine ⟨⟨sig, endorsement, sigBytes, hrecord, hdecode, htry⟩, ?_⟩
    cases harray : tryInto 32 key.pubkey with
    | none => rfl
    | some array => simp [harray] at hpanic
  · intro ⟨⟨sig, endorsement, sigBytes, hrecord, hdecode, htry⟩, hnone⟩
    exact ⟨endorsement, hrecord, sigBytes, hdecode, sig, htry, by rw [hnone]; rfl⟩

/-- A verdict that names a key comes from a complete record of that key. -/
theorem endorsementVerdict_eq_some_iff {t : TrustAdapter A} {deltaId : DeltaId}
    {name : String} {pk : Bytes} {valid : Bool} :
    t.endorsementVerdict deltaId name = .ok (some (pk, valid)) ↔
      ∃ (sig : Signature) (vk : VerifyingKey), vk.toBytes = pk ∧
        EndorsementKey.fromStr name = .ok ⟨deltaId, pk⟩ ∧
        HoldsSignature t.inner (EndorsementKey.fileName ⟨deltaId, pk⟩) sig ∧
        valid = (t.keystore.isTrusted vk && vk.verify (asBytes deltaId.digest) sig) := by
  rcases endorsementVerdict_cases t deltaId name with
    ⟨hkey, hverdict⟩ | ⟨e, hkey, hverdict⟩ | ⟨key, hkey, ⟨hd, hverdict⟩ | ⟨rfl, hverdict⟩⟩
  · simp [hkey, hverdict]
  · simp [hkey, hverdict]
  · simp only [hkey, hverdict, Outcome.ok.injEq, reduceCtorEq, false_iff]
    rintro ⟨sig, vk, -, rfl, -⟩
    exact hd rfl
  · rw [hverdict, recordVerdict_eq_ok_iff, hkey]
    constructor
    · intro ⟨sig, vk, hsig, hvk, heq⟩
      obtain ⟨rfl, rfl⟩ := Prod.mk.inj (Option.some.inj heq)
      exact ⟨sig, vk, hvk, rfl, hsig, rfl⟩
    · rintro ⟨sig, vk, hvk, heq, hsig, rfl⟩
      obtain rfl := congrArg EndorsementKey.pubkey (Outcome.ok.inj heq)
      exact ⟨sig, vk, hsig, hvk, rfl⟩

/-- The scan gets past exactly the names that are harmless to it. -/
theorem exists_endorsementVerdict_iff {t : TrustAdapter A} {deltaId : DeltaId}
    {name : String} :
    (∃ verdict, t.endorsementVerdict deltaId name = .ok verdict) ↔
      Passes t.inner deltaId name := by
  unfold Passes
  rcases endorsementVerdict_cases t deltaId name with
    ⟨hkey, hverdict⟩ | ⟨e, hkey, hverdict⟩ | ⟨key, hkey, ⟨hd, hverdict⟩ | ⟨rfl, hverdict⟩⟩
  · simp [hkey, hverdict]
  · simp [hkey, hverdict]
  · simp [hkey, hverdict, hd]
  · simp only [hverdict, hkey, recordVerdict_eq_ok_iff, reduceCtorEq, exists_false, false_or,
      Outcome.ok.injEq, exists_eq_left', forall_const]
    constructor
    · rintro ⟨verdict, sig, vk, hsig, hvk, -⟩
      exact ⟨sig, vk, hsig, hvk⟩
    · intro ⟨sig, vk, hsig, hvk⟩
      exact ⟨_, sig, vk, hsig, hvk, rfl⟩

/-- Over a store that does not panic itself, an `unwrap` of the scan fails
exactly on the names described by `Unwraps`. -/
theorem endorsementVerdict_eq_panic_iff {t : TrustAdapter A} {deltaId : DeltaId}
    {name : String} (hread : ∀ n, Adapter.readObject t.inner n 0 0 ≠ .panic) :
    t.endorsementVerdict deltaId name = .panic ↔ Unwraps t.inner deltaId name := by
  rw [Unwraps, ← EndorsementKey.fromStr_eq_panic_iff]
  rcases endorsementVerdict_cases t deltaId name with
    ⟨hkey, hverdict⟩ | ⟨e, hkey, hverdict⟩ | ⟨key, hkey, ⟨hd, hverdict⟩ | ⟨rfl, hverdict⟩⟩
  · simp [hkey, hverdict]
  · simp [hkey, hverdict]
  · simp only [hkey, hverdict, Outcome.ok.injEq, reduceCtorEq, false_or, false_iff]
    rintro ⟨key', sig, rfl, hd', -⟩
    exact hd hd'
  · simp only [hverdict, hkey, recordVerdict_eq_panic_iff (hread _), reduceCtorEq, false_or,
      Outcome.ok.injEq]
    constructor
    · intro ⟨⟨sig, hsig⟩, hlen⟩
      exact ⟨key, sig, rfl, rfl, hsig, hlen⟩
    · rintro ⟨key', sig, rfl, -, hsig, hlen⟩
      exact ⟨⟨sig, hsig⟩, hlen⟩

/-! ## The scan -/

/-- The names that the scan runs over. -/
def sigNames (store : A) : List String :=
  match Adapter.listObjects store ".sig" with
  | .ok names => names
  | _ => []

/-- Every listed name is harmless to the scan of the delta. -/
def CleanScan (store : A) (deltaId : DeltaId) : Prop :=
  ∀ name ∈ sigNames store, Passes store deltaId name

/-- The first listed name that is not harmless makes an `unwrap` fail. -/
def Derails (store : A) (deltaId : DeltaId) : Prop :=
  ∃ before name after, sigNames store = before ++ name :: after ∧
    (∀ n ∈ before, Passes store deltaId n) ∧ Unwraps store deltaId name

/-- The store lists a complete endorsement of the delta by `vk`, and its
signature verifies over the digest of the delta. -/
def Endorses (store : A) (deltaId : DeltaId) (vk : VerifyingKey) : Prop :=
  ∃ name ∈ sigNames store, EndorsementKey.fromStr name = .ok ⟨deltaId, vk.toBytes⟩ ∧
    ∃ sig, HoldsSignature store (EndorsementKey.fileName ⟨deltaId, vk.toBytes⟩) sig ∧
      vk.verify (asBytes deltaId.digest) sig = true

/-- A name that is harmless to the scan makes no `unwrap` fail. -/
theorem Passes.not_unwraps {store : A} {deltaId : DeltaId} {name : String}
    (h : Passes store deltaId name) : ¬ Unwraps store deltaId name := by
  rw [Unwraps, ← EndorsementKey.fromStr_eq_panic_iff]
  rcases h with ⟨e, he⟩ | ⟨key, hkey, hcomplete⟩
  · simp [he]
  · rintro (hpanic | ⟨key', sig, hkey', hd, -, hlen⟩)
    · simp [hkey] at hpanic
    · obtain rfl := Outcome.ok.inj (hkey.symm.trans hkey')
      obtain ⟨-, vk, -, hvk⟩ := hcomplete hd
      rw [← hvk] at hlen
      exact hlen vk.val.property

/-- A clean scan does not derail. -/
theorem CleanScan.not_derails {store : A} {deltaId : DeltaId}
    (h : CleanScan store deltaId) : ¬ Derails store deltaId := by
  rintro ⟨before, name, after, hnames, -, hunwraps⟩
  exact (h name (by rw [hnames]; simp)).not_unwraps hunwraps

/-- A scan that starts with a broken name derails for every delta. -/
theorem derails_of_isBroken {store : A} {name : String} {names : List String}
    (hnames : sigNames store = name :: names) (hbroken : EndorsementKey.IsBroken name)
    (deltaId : DeltaId) : Derails store deltaId :=
  ⟨[], name, names, hnames, by simp, Or.inl hbroken⟩

/-- The scan is the list of verdicts, and then the recording of them. -/
theorem fetchEndorsements_eq {t : TrustAdapter A} {deltaId : DeltaId}
    (hlist : Adapter.listObjects t.inner ".sig" ≠ .panic) :
    t.fetchEndorsements deltaId
      = (fun verdicts => verdicts.foldl EndorsementFetchResult.record ⟨∅, ∅⟩) <$>
          (sigNames t.inner).mapM (t.endorsementVerdict deltaId) := by
  rw [TrustAdapter.fetchEndorsements, sigNames]
  cases h : Adapter.listObjects t.inner ".sig" with
  | panic => exact absurd h hlist
  | err e => rfl
  | ok names => exact Outcome.foldlM_record _ _ _ _

theorem exists_fetchEndorsements_iff {t : TrustAdapter A} {deltaId : DeltaId} :
    (∃ result, t.fetchEndorsements deltaId = .ok result) ↔
      Adapter.listObjects t.inner ".sig" ≠ .panic ∧ CleanScan t.inner deltaId := by
  by_cases hlist : Adapter.listObjects t.inner ".sig" = .panic
  · simp [TrustAdapter.fetchEndorsements, hlist]
  · simp only [fetchEndorsements_eq hlist, Outcome.map_eq_ok_iff, CleanScan,
      ← exists_endorsementVerdict_iff, ← Outcome.exists_mapM_eq_ok_iff, ne_eq, hlist,
      not_false_eq_true, true_and]
    constructor
    · rintro ⟨_, verdicts, h, -⟩
      exact ⟨verdicts, h⟩
    · intro ⟨verdicts, h⟩
      exact ⟨_, verdicts, h, rfl⟩

theorem fetchEndorsements_eq_panic_iff {t : TrustAdapter A} {deltaId : DeltaId}
    (hlist : Adapter.listObjects t.inner ".sig" ≠ .panic)
    (hread : ∀ n, Adapter.readObject t.inner n 0 0 ≠ .panic) :
    t.fetchEndorsements deltaId = .panic ↔ Derails t.inner deltaId := by
  rw [fetchEndorsements_eq hlist, Outcome.map_eq_panic_iff, Outcome.mapM_eq_panic_iff]
  simp only [exists_endorsementVerdict_iff, endorsementVerdict_eq_panic_iff hread, Derails]

/-- A finished scan has a listing and a list of verdicts behind it. -/
theorem exists_verdicts_of_fetchEndorsements {t : TrustAdapter A} {deltaId : DeltaId}
    {result : EndorsementFetchResult} (h : t.fetchEndorsements deltaId = .ok result) :
    ∃ verdicts, (sigNames t.inner).mapM (t.endorsementVerdict deltaId) = .ok verdicts ∧
      verdicts.foldl EndorsementFetchResult.record ⟨∅, ∅⟩ = result := by
  have hlist := (exists_fetchEndorsements_iff.mp ⟨result, h⟩).1
  rw [fetchEndorsements_eq hlist] at h
  exact Outcome.map_eq_ok_iff.mp h

/-- The keys of a finished scan have a complete endorsement, and they are valid
when they are trusted and their signature verifies. -/
theorem mem_keys_iff {t : TrustAdapter A} {deltaId : DeltaId}
    {result : EndorsementFetchResult} (h : t.fetchEndorsements deltaId = .ok result)
    {pk : Bytes} {valid : Bool} :
    pk ∈ result.keys valid ↔
      ∃ vk : VerifyingKey, vk.toBytes = pk ∧
        ∃ name ∈ sigNames t.inner, EndorsementKey.fromStr name = .ok ⟨deltaId, pk⟩ ∧
          ∃ sig, HoldsSignature t.inner (EndorsementKey.fileName ⟨deltaId, pk⟩) sig ∧
            (valid = true ↔ vk ∈ t.keystore.trustedKeys ∧
              vk.verify (asBytes deltaId.digest) sig = true) := by
  obtain ⟨verdicts, hverdicts, rfl⟩ := exists_verdicts_of_fetchEndorsements h
  have hnone : pk ∉ EndorsementFetchResult.keys ⟨∅, ∅⟩ valid := by
    cases valid <;> exact Finset.notMem_empty pk
  have hflag : ∀ (vk : VerifyingKey) (sig : Signature),
      valid = (t.keystore.isTrusted vk && vk.verify (asBytes deltaId.digest) sig) ↔
        (valid = true ↔ vk ∈ t.keystore.trustedKeys ∧
          vk.verify (asBytes deltaId.digest) sig = true) := by
    intro vk sig
    rw [Bool.eq_iff_iff, Bool.and_eq_true, KeyStore.isTrusted, decide_eq_true_eq]
  rw [EndorsementFetchResult.mem_keys_foldl, or_iff_right hnone,
    Outcome.mem_of_mapM_eq_ok hverdicts]
  simp only [endorsementVerdict_eq_some_iff, hflag]
  constructor
  · intro ⟨name, hname, sig, vk, hvk, hkey, hsig, hvalid⟩
    exact ⟨vk, hvk, name, hname, hkey, sig, hsig, hvalid⟩
  · intro ⟨vk, hvk, name, hname, hkey, sig, hsig, hvalid⟩
    exact ⟨name, hname, sig, vk, hvk, hkey, hsig, hvalid⟩

/-- The valid keys of a finished scan are the trusted keys that endorse. -/
theorem mem_valid_iff {t : TrustAdapter A} {deltaId : DeltaId}
    {result : EndorsementFetchResult} (h : t.fetchEndorsements deltaId = .ok result)
    {pk : Bytes} :
    pk ∈ result.valid ↔
      ∃ vk ∈ t.keystore.trustedKeys, vk.toBytes = pk ∧ Endorses t.inner deltaId vk := by
  show pk ∈ result.keys true ↔ _
  simp only [mem_keys_iff h, true_iff]
  constructor
  · rintro ⟨vk, rfl, name, hname, hkey, sig, hsig, htrusted, hverify⟩
    exact ⟨vk, htrusted, rfl, name, hname, hkey, sig, hsig, hverify⟩
  · rintro ⟨vk, htrusted, rfl, name, hname, hkey, sig, hsig, hverify⟩
    exact ⟨vk, rfl, name, hname, hkey, sig, hsig, htrusted, hverify⟩

/-- The invalid keys of a finished scan have a complete endorsement, but are
not trusted or do not verify. -/
theorem mem_invalid_iff {t : TrustAdapter A} {deltaId : DeltaId}
    {result : EndorsementFetchResult} (h : t.fetchEndorsements deltaId = .ok result)
    {pk : Bytes} :
    pk ∈ result.invalid ↔
      ∃ vk : VerifyingKey, vk.toBytes = pk ∧
        ∃ name ∈ sigNames t.inner, EndorsementKey.fromStr name = .ok ⟨deltaId, pk⟩ ∧
          ∃ sig, HoldsSignature t.inner (EndorsementKey.fileName ⟨deltaId, pk⟩) sig ∧
            ¬ (vk ∈ t.keystore.trustedKeys ∧
              vk.verify (asBytes deltaId.digest) sig = true) := by
  show pk ∈ result.keys false ↔ _
  simp only [mem_keys_iff h, Bool.false_eq_true, false_iff]

/-! ## Over a map

The scan of a map sees the objects with a `.sig` name.  An endorsement by
`vk` can then be found under its written name, and so one object decides
whether `vk` endorses the delta.
-/

section

variable {M : Type} [MapAdapter M]

omit [Crates] [SerdeSlice EndorsementRecord] in
theorem mem_sigNames {store : M} {name : String} :
    name ∈ sigNames store ↔
      (MapAdapter.objects store name).isSome ∧ endsWith name ".sig" = true := by
  obtain ⟨names, hnames, hmem⟩ := MapAdapter.listObjects_ok store ".sig"
  rw [sigNames, hnames]
  exact hmem name

theorem cleanScan_iff {store : M} {deltaId : DeltaId} :
    CleanScan store deltaId ↔
      ∀ name bytes, MapAdapter.objects store name = some bytes →
        endsWith name ".sig" = true → Passes store deltaId name := by
  simp only [CleanScan, mem_sigNames, Option.isSome_iff_exists]
  constructor
  · intro h name bytes hobj hsuffix
    exact h name ⟨⟨bytes, hobj⟩, hsuffix⟩
  · intro h name ⟨⟨bytes, hobj⟩, hsuffix⟩
    exact h name bytes hobj hsuffix

theorem HoldsSignature.exists_object {store : M} {name : String} {sig : Signature}
    (h : HoldsSignature store name sig) : ∃ bytes, MapAdapter.objects store name = some bytes := by
  obtain ⟨bytes, hread, -⟩ := h
  exact ⟨bytes, MapAdapter.readObject_eq_ok_iff.mp hread⟩

/-- The record that `sk` writes for the delta holds its signature. -/
theorem holdsSignature_signedRecord (hbase64 : Base64Law)
    (hserde : SerdeSliceLaw EndorsementRecord) {store : M} {name : String} {sk : SigningKey}
    {deltaId : DeltaId} {bytes : Bytes}
    (hbytes : SerdeSlice.toVec (TrustAdapter.signedRecord sk deltaId) = .ok bytes)
    (hobj : MapAdapter.objects store name = some bytes) :
    HoldsSignature store name (SigningKey.sign sk (asBytes deltaId.digest)) := by
  obtain ⟨bytes', hbytes', hparse⟩ := hserde (TrustAdapter.signedRecord sk deltaId)
  obtain rfl := Except.ok.inj (hbytes.symm.trans hbytes')
  exact ⟨bytes, MapAdapter.readObject_some hobj, _, hparse, rfl, rfl, hbase64 _⟩

/-- The endorsement of the delta by `vk` is under its written name, whatever
name the scan found it by. -/
theorem endorses_iff (hdelta : DeltaIdLaws) (hdigests : EndorsementKey.DigestLaw)
    (hdigit : DigitLaw) {store : M} {deltaId : DeltaId} {vk : VerifyingKey} :
    Endorses store deltaId vk ↔
      EndorsementKey.fromStr (EndorsementKey.fileName ⟨deltaId, vk.toBytes⟩)
          = .ok ⟨deltaId, vk.toBytes⟩ ∧
        ∃ sig, HoldsSignature store (EndorsementKey.fileName ⟨deltaId, vk.toBytes⟩) sig ∧
          vk.verify (asBytes deltaId.digest) sig = true := by
  constructor
  · rintro ⟨name, -, hkey, hsig⟩
    exact ⟨EndorsementKey.fromStr_fileName_of_fromStr hdelta hdigests hdigit hkey, hsig⟩
  · intro ⟨hkey, sig, hsig, hverify⟩
    obtain ⟨bytes, hobj⟩ := hsig.exists_object
    have hlisted := mem_sigNames.mpr ⟨by rw [hobj]; rfl, EndorsementKey.endsWith_fileName _⟩
    exact ⟨_, hlisted, hkey, sig, hsig, hverify⟩

end

end MeldaSec
