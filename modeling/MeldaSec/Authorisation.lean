import MeldaSec.Policy.Loading

/-!
# The policy at the writer and at the reader

The policy is asked in two places.  A strict writer asks it about its own key
before it hands a delta to the store, and a reader asks it about every
endorser of a delta that it finds there.  Both mean `Authorises`: the policy
allows the key on every object that the delta touches.
`checkWrite_iff_readObject` says that they agree.

`Authorises` quantifies over the identifiers that can be extracted, so a delta
without any is authorised by every policy.  `failsClosed_iff` says when a
policy that denies everything does stop a delta that cannot be read.
-/

namespace MeldaSec

open Rust

section

variable [Crates]

namespace TrustAdapter

section

variable {A B : Type}

/-- The decision about a key depends on the rules and on the role of the key. -/
theorem authorises_congr {t : TrustAdapter A} {t' : TrustAdapter B} {vk : VerifyingKey}
    (hrules : t.policy.rules = t'.policy.rules)
    (hrole : t.keystore.getRole vk.toBytes = t'.keystore.getRole vk.toBytes) (data : Bytes) :
    t.Authorises data vk ↔ t'.Authorises data vk := by
  simp only [Authorises, PolicyEngine.allows_congr hrules hrole]

end

variable {A : Type} [Adapter A] [SerdeSlice EndorsementRecord]

/-! ## The writer -/

omit [Adapter A] [SerdeSlice EndorsementRecord] in
/-- A strict write of a delta passes the check when there is a local key and
the policy authorises it. -/
theorem checkWrite_eq_ok_iff {t : TrustAdapter A} (hstrict : t.policy.strictWrite = true)
    {key : String} (hkey : endsWith key ".delta" = true) {data : Bytes} :
    t.checkWrite key data = .ok () ↔
      ∃ sk, t.keystore.endorsementKey = some sk ∧
        t.Authorises data (SigningKey.verifyingKey sk) := by
  rw [checkWrite, hstrict, hkey, KeyStore.endorsementPublicKey]
  cases t.keystore.endorsementKey with
  | none => simp
  | some sk =>
    simp only [Bool.and_self, if_true, Option.map_some, Outcome.okOr_some, Outcome.ok_bind,
      List.forM_eq_forM, Option.some.injEq, exists_eq_left']
    rw [Outcome.forM_eq_ok_iff]
    refine forall₂_congr fun id _ => ?_
    cases t.policy.allows t.keystore (SigningKey.verifyingKey sk).toBytes id <;> simp

omit [Adapter A] [SerdeSlice EndorsementRecord] in
/-- The check asks nothing of a write that is not strict, or not of a delta. -/
theorem checkWrite_iff {t : TrustAdapter A} {key : String} {data : Bytes} :
    t.checkWrite key data = .ok () ↔
      (t.policy.strictWrite = true → endsWith key ".delta" = true →
        ∃ sk, t.keystore.endorsementKey = some sk ∧
          t.Authorises data (SigningKey.verifyingKey sk)) := by
  by_cases hstrict : t.policy.strictWrite = true
  · by_cases hkey : endsWith key ".delta" = true
    · simp only [checkWrite_eq_ok_iff hstrict hkey, hstrict, hkey, true_implies]
    · simp [checkWrite, hkey]
  · simp [checkWrite, hstrict]

omit [Adapter A] [SerdeSlice EndorsementRecord] in
theorem checkWrite_ne_panic (t : TrustAdapter A) (key : String) (data : Bytes) :
    t.checkWrite key data ≠ .panic := by
  unfold checkWrite
  split
  · cases t.keystore.endorsementPublicKey with
    | none => simp
    | some pubkey =>
      simp only [Outcome.okOr_some, Outcome.ok_bind, List.forM_eq_forM]
      refine Outcome.forM_ne_panic fun id _ => ?_
      split <;> simp
  · simp

omit [SerdeSlice EndorsementRecord] in
/-- A write that does not pass the check is an error and changes nothing. -/
theorem writeObject_of_checkWrite_ne_ok {t : TrustAdapter A} {key : String} {data : Bytes}
    (h : t.checkWrite key data ≠ .ok ()) : ∃ e, t.writeObject key data = (.err e, t) := by
  cases hcheck : t.checkWrite key data with
  | ok _ => exact absurd hcheck h
  | err e => exact ⟨e, by rw [writeObject, hcheck]⟩
  | panic => exact absurd hcheck (t.checkWrite_ne_panic key data)

omit [SerdeSlice EndorsementRecord] in
/-- A write that passes the check is the write of the inner store. -/
theorem writeObject_of_checkWrite {t : TrustAdapter A} {key : String} {data : Bytes}
    (h : t.checkWrite key data = .ok ()) :
    (t.writeObject key data).1 = (Adapter.writeObject t.inner key data).1 := by
  rw [writeObject, h]

omit [SerdeSlice EndorsementRecord] in
/-- A write succeeds when it passes the check and the inner store takes it. -/
theorem writeObject_eq_ok_iff {t : TrustAdapter A} {key : String} {data : Bytes} :
    (t.writeObject key data).1 = .ok () ↔
      t.checkWrite key data = .ok () ∧ (Adapter.writeObject t.inner key data).1 = .ok () := by
  by_cases hcheck : t.checkWrite key data = .ok ()
  · rw [writeObject_of_checkWrite hcheck, hcheck]
    exact (and_iff_right rfl).symm
  · obtain ⟨e, he⟩ := writeObject_of_checkWrite_ne_ok hcheck
    simp [he, hcheck]

/-! ## The reader -/

/-- Where only `vk` endorsed a delta, and is trusted, the single mode asks
the policy about `vk` alone. -/
theorem admits_single_iff {t : TrustAdapter A} (hmode : t.endorsementMode = .single)
    {deltaId : DeltaId} (hblack : t.deltaFilter.isBlacklisted deltaId = false)
    (hwhite : t.deltaFilter.isWhitelisted deltaId = false)
    (hlist : Adapter.listObjects t.inner ".sig" ≠ .panic) (hclean : CleanScan t.inner deltaId)
    {vk : VerifyingKey} (htrusted : vk ∈ t.keystore.trustedKeys)
    (honly : ∀ vk', Endorses t.inner deltaId vk' ↔ vk' = vk) (data : Bytes) :
    t.Admits deltaId data ↔ t.Authorises data vk := by
  have hgated : t.Gated deltaId := ⟨hblack, hwhite, by simp [hmode]⟩
  have hrule : t.endorsementMode.rule (t.authorisedEndorsers deltaId data).card
      t.keystore.trustedKeyCount ↔ (t.authorisedEndorsers deltaId data).Nonempty := by
    rw [hmode, ← Finset.one_le_card]
    rfl
  constructor
  · rintro ⟨-, hgate⟩
    obtain ⟨vk', hvk'⟩ := hrule.mp (hgate hgated).2.2
    obtain ⟨-, hendorses, hauthorises⟩ := mem_authorisedEndorsers.mp hvk'
    obtain rfl := (honly vk').mp hendorses
    exact hauthorises
  · intro hauthorises
    have hmem := mem_authorisedEndorsers.mpr ⟨htrusted, (honly vk).mpr rfl, hauthorises⟩
    exact ⟨hblack, fun _ => ⟨hlist, hclean, hrule.mpr ⟨vk, hmem⟩⟩⟩

/-- A strict writer may write a delta exactly when a reader in the single
mode reads it, once the writer has endorsed it: the reader has the same rules
and the same role for the key of the writer and trusts it, nobody else has
endorsed the delta, and the delta is on no list.  A write that is refused is
an error and changes nothing. -/
theorem checkWrite_iff_readObject (hdelta : DeltaIdLaws) (hdigit : DigitLaw)
    (hsign : SignatureLaw) (hbase64 : Base64Law) (hserde : SerdeSliceLaw EndorsementRecord)
    (writer : TrustAdapter A) (hstrict : writer.policy.strictWrite = true) {w : SigningKey}
    (hw : writer.keystore.endorsementKey = some w) {M : Type} [MapAdapter M] {store : M}
    {signed : SigningKey → DeltaId → Prop} (hstore : EndorsedExactly store signed)
    {deltaId : DeltaId} (hdigest : IsLowerHex deltaId.digest)
    (honly : ∀ vk, SignedBy signed deltaId vk → vk = w.verifyingKey) {data : Bytes}
    (hdata : MapAdapter.objects store deltaId.key = some data) (reader : TrustAdapter M)
    (hinner : reader.inner = ((writer.withInner store).endorse deltaId).2)
    (hmode : reader.endorsementMode = .single)
    (hrules : reader.policy.rules = writer.policy.rules)
    (htrusted : w.verifyingKey ∈ reader.keystore.trustedKeys)
    (hrole : reader.keystore.getRole w.verifyingKey.toBytes
      = writer.keystore.getRole w.verifyingKey.toBytes)
    (hblack : reader.deltaFilter.isBlacklisted deltaId = false)
    (hwhite : reader.deltaFilter.isWhitelisted deltaId = false) :
    (writer.checkWrite deltaId.key data = .ok () ↔
        reader.readObject deltaId.key 0 0 = .ok data) ∧
      (writer.checkWrite deltaId.key data ≠ .ok () →
        ∃ e, writer.writeObject deltaId.key data = (.err e, writer)) := by
  refine ⟨?_, writeObject_of_checkWrite_ne_ok⟩
  have hkey := hdelta.endsWith_key deltaId
  have hafter := hstore.endorse hdelta hdigit hsign hbase64 hserde
    (t := writer.withInner store) rfl hw hdigest
  rw [← hinner] at hafter
  -- The endorsement is not stored under the name of the delta.
  have hobj : MapAdapter.objects reader.inner deltaId.key = some data := by
    rw [hinner]
    rcases (writer.withInner store).endorse_cases hserde deltaId with
      hsame | ⟨sk, bytes, -, -, hwrite⟩
    · exact (congrFun hsame _).trans hdata
    · rw [hwrite, Function.update_of_ne (EndorsementKey.fileName_ne_key hdelta _ _).symm]
      exact hdata
  have hendorses : ∀ vk, Endorses reader.inner deltaId vk ↔ vk = w.verifyingKey := by
    intro vk
    rw [hafter.endorses_iff_signedBy hdelta hdigit hsign hbase64 hserde]
    constructor
    · rintro ⟨sk, hsigned | ⟨rfl, -⟩, rfl⟩
      · exact honly _ ⟨sk, hsigned, rfl⟩
      · rfl
    · rintro rfl
      exact ⟨w, Or.inr ⟨rfl, rfl⟩, rfl⟩
  rw [checkWrite_eq_ok_iff hstrict hkey,
    readObject_of_fromStr hkey (hdelta.fromStr_key deltaId hdigest),
    MapAdapter.readObject_some hobj,
    admits_single_iff hmode hblack hwhite (MapAdapter.listObjects_ne_panic _ _)
      (hafter.cleanScan hdelta hdigit hsign hbase64 hserde deltaId) htrusted hendorses,
    authorises_congr hrules hrole, hw]
  simp

/-! ## Deltas that cannot be read -/

end TrustAdapter

/-- The affected objects of a delta cannot all be extracted: it is not a JSON
object, or its `c` member is not an array, or an entry of that array does not
start with a string. -/
inductive Unreadable (data : Bytes) : Prop where
  | notJson {e : Error} : Crates.valueFromSlice data = .error e → Unreadable data
  | notObject {value : Value} : Crates.valueFromSlice data = .ok value →
    (∀ entries, value ≠ .object entries) → Unreadable data
  | notArray {entries : List (String × Value)} {changes : Value} :
    Crates.valueFromSlice data = .ok (.object entries) → entries.lookup "c" = some changes →
    (∀ arr, changes ≠ .array arr) → Unreadable data
  | badEntry {entries : List (String × Value)} {arr : List Value} {entry : Value} :
    Crates.valueFromSlice data = .ok (.object entries) → entries.lookup "c" = some (.array arr) →
    entry ∈ arr → (∀ s rest, entry ≠ .array (.string s :: rest)) → Unreadable data

/-- Some entry of the `c` member starts with a string. -/
def SomeIdentified (data : Bytes) : Prop :=
  ∃ entries arr s rest, Crates.valueFromSlice data = .ok (.object entries) ∧
    entries.lookup "c" = some (.array arr) ∧ Value.array (.string s :: rest) ∈ arr

omit [Crates] in
theorem entryObjectId_eq_some_iff {entry : Value} {s : String} :
    entryObjectId entry = some s ↔ ∃ rest, entry = .array (.string s :: rest) := by
  constructor
  · intro h
    rw [entryObjectId.eq_def] at h
    split at h
    · obtain rfl := Option.some.inj h
      exact ⟨_, rfl⟩
    · cases h
  · rintro ⟨rest, rfl⟩
    rfl

/-- The extracted identifiers are the strings at the head of the entries. -/
theorem mem_extract_iff {data : Bytes} {s : String} :
    s ∈ extractCreatedAndModifiedObjectIds data ↔
      ∃ entries arr rest, Crates.valueFromSlice data = .ok (.object entries) ∧
        entries.lookup "c" = some (.array arr) ∧ Value.array (.string s :: rest) ∈ arr := by
  unfold extractCreatedAndModifiedObjectIds
  split
  · rename_i e he
    simp [he]
  · rename_i parsed hparsed
    split
    · rename_i entries
      split
      · rename_i arr harr
        simp only [List.mem_filterMap, entryObjectId_eq_some_iff, hparsed, Except.ok.injEq,
          Value.object.injEq, exists_and_left, exists_eq_left', harr, Option.some.injEq,
          Value.array.injEq]
        constructor
        · rintro ⟨entry, hentry, rest, rfl⟩
          exact ⟨rest, hentry⟩
        · intro ⟨rest, hentry⟩
          exact ⟨_, hentry, rest, rfl⟩
      · rename_i hnone
        simp only [List.not_mem_nil, false_iff]
        rintro ⟨entries', arr, rest, heq, harr, -⟩
        rw [hparsed, Except.ok.injEq, Value.object.injEq] at heq
        subst heq
        exact hnone arr harr
    · rename_i hnone
      simp only [List.not_mem_nil, false_iff]
      rintro ⟨entries, arr, rest, heq, -⟩
      exact hnone entries (Except.ok.inj (hparsed.symm.trans heq))

/-- No identifier is extracted exactly when no entry has one. -/
theorem extract_eq_nil_iff {data : Bytes} :
    extractCreatedAndModifiedObjectIds data = [] ↔ ¬ SomeIdentified data := by
  simp only [List.eq_nil_iff_forall_not_mem, mem_extract_iff, SomeIdentified, not_exists]
  exact ⟨fun h entries arr s rest => h s entries arr rest,
    fun h s entries arr rest => h entries arr s rest⟩

namespace TrustAdapter

variable {A B : Type} [Adapter A] [Adapter B] [SerdeSlice EndorsementRecord]

omit [Adapter A] [SerdeSlice EndorsementRecord] in
/-- Without rules, a key is authorised where there is nothing to ask about. -/
theorem authorises_of_no_rules {t : TrustAdapter A} (hrules : t.policy.rules = []) {data : Bytes}
    {vk : VerifyingKey} : t.Authorises data vk ↔ ¬ SomeIdentified data := by
  have hdenies : ∀ id, t.policy.allows t.keystore vk.toBytes id = false := by
    intro id
    rw [Bool.eq_false_iff, ne_eq, PolicyEngine.allows_iff]
    simp [hrules]
  rw [← extract_eq_nil_iff, List.eq_nil_iff_forall_not_mem, Authorises]
  simp [hdenies]

/-- A policy without rules stops what it cannot read, at the writer and at
the reader. -/
def FailsClosed (writer : TrustAdapter A) (reader : TrustAdapter B) (writeKey readKey : String)
    (data : Bytes) : Prop :=
  Unreadable data →
    (∃ e, (writer.writeObject writeKey data).1 = .err e) ∧
      ∃ e, reader.readObject readKey 0 0 = .err e

omit [SerdeSlice EndorsementRecord] in
/-- Without rules, a strict write is refused when there is an identifier to
ask about, or no key to ask for. -/
theorem exists_writeObject_eq_err_iff {t : TrustAdapter A} (hrules : t.policy.rules = [])
    (hstrict : t.policy.strictWrite = true) {key : String}
    (hkey : endsWith key ".delta" = true) {data : Bytes} :
    (∃ e, (t.writeObject key data).1 = .err e) ↔
      SomeIdentified data ∨ t.keystore.endorsementKey = none ∨
        ∃ e, (Adapter.writeObject t.inner key data).1 = .err e := by
  have hcheck : t.checkWrite key data = .ok () ↔
      ¬ (SomeIdentified data ∨ t.keystore.endorsementKey = none) := by
    rw [checkWrite_eq_ok_iff hstrict hkey, not_or, ← ne_eq, Option.ne_none_iff_exists']
    simp only [authorises_of_no_rules hrules]
    exact ⟨fun ⟨sk, hsk, hnone⟩ => ⟨hnone, sk, hsk⟩, fun ⟨hnone, sk, hsk⟩ => ⟨sk, hsk, hnone⟩⟩
  rw [← or_assoc]
  by_cases hpass : t.checkWrite key data = .ok ()
  · rw [writeObject_of_checkWrite hpass, or_iff_right (hcheck.mp hpass)]
  · obtain ⟨e, he⟩ := writeObject_of_checkWrite_ne_ok hpass
    exact iff_of_true ⟨e, by rw [he]⟩ (Or.inl (not_not.mp fun h => hpass (hcheck.mpr h)))

/-- Without rules, a gated delta with an identifier has no authorised
endorser, and a gated delta without one has all the valid ones. -/
theorem admits_of_no_rules {t : TrustAdapter A} (hrules : t.policy.rules = [])
    {deltaId : DeltaId} (hgated : t.Gated deltaId)
    (hlist : Adapter.listObjects t.inner ".sig" ≠ .panic) (hkeys : 0 < t.keystore.trustedKeyCount)
    {data : Bytes} :
    t.Admits deltaId data ↔ ¬ SomeIdentified data ∧ CleanScan t.inner deltaId ∧
      t.endorsementMode.rule (t.validEndorsers deltaId).card t.keystore.trustedKeyCount := by
  classical
  have hcard : (t.authorisedEndorsers deltaId data).card
      = if SomeIdentified data then 0 else (t.validEndorsers deltaId).card := by
    rw [authorisedEndorsers_eq_filter]
    simp only [authorises_of_no_rules hrules]
    split_ifs with hids
    · simp [hids]
    · simp [hids]
  rw [Admits, hcard]
  simp only [hgated.1, hgated, hlist, ne_eq, not_false_eq_true, true_and, forall_const]
  by_cases hids : SomeIdentified data
  · have hnone : ¬ t.endorsementMode.rule 0 t.keystore.trustedKeyCount :=
      fun h => absurd (t.endorsementMode.one_le_of_rule hgated.2.2 hkeys h) (by omega)
    simp [hids, hnone]
  · simp [hids]

section

variable (reader : TrustAdapter B) (hrules : reader.policy.rules = [])
  (hmode : reader.endorsementMode ≠ .permissive) (hkeys : 0 < reader.keystore.trustedKeyCount)
  {key : String} (hkey : endsWith key ".delta" = true) {deltaId : DeltaId}
  (hid : DeltaId.fromStr key = .ok deltaId)
  (hwhite : reader.deltaFilter.isWhitelisted deltaId = false) {data : Bytes}
  (hdata : Adapter.readObject reader.inner key 0 0 = .ok data)
  (hlist : Adapter.listObjects reader.inner ".sig" ≠ .panic)
  (hread : ∀ name, Adapter.readObject reader.inner name 0 0 ≠ .panic)
include hrules hmode hkeys hkey hid hwhite hdata hlist hread

/-- Without rules, a stored delta is refused when it is blacklisted, or the
scan does not panic and one of the three conditions of the gate fails. -/
theorem exists_readObject_eq_err_iff :
    (∃ e, reader.readObject key 0 0 = .err e) ↔
      reader.deltaFilter.isBlacklisted deltaId = true ∨
        ¬ Derails reader.inner deltaId ∧
          (SomeIdentified data ∨ ¬ CleanScan reader.inner deltaId ∨
            ¬ reader.endorsementMode.rule (reader.validEndorsers deltaId).card
              reader.keystore.trustedKeyCount) := by
  have hok : (∀ out, reader.readObject key 0 0 ≠ .ok out) ↔ ¬ reader.Admits deltaId data := by
    simp only [ne_eq, readObject_of_fromStr hkey hid, hdata, Outcome.ok.injEq, not_and, forall_eq']
  rw [Outcome.exists_eq_err_iff, hok, ne_eq, readObject_eq_panic_iff hkey hlist hread]
  simp only [hdata, hid, Outcome.ok.injEq, exists_eq', true_and, reduceCtorEq, false_or,
    exists_eq_left']
  by_cases hblack : reader.deltaFilter.isBlacklisted deltaId = true
  · simp [hblack, Gated, Admits]
  · rw [Bool.not_eq_true] at hblack
    have hgated : reader.Gated deltaId := ⟨hblack, hwhite, hmode⟩
    rw [admits_of_no_rules hrules hgated hlist hkeys]
    simp only [hgated, true_and, hblack, Bool.false_eq_true, false_or, not_and_or, not_not]

/-- A policy without rules stops a delta that it cannot read exactly when
some identifier could be extracted all the same, or other reasons stop it: at
the writer a missing key or the store, and at the reader the blacklist, the
scan, or too few endorsements. -/
theorem failsClosed_iff (writer : TrustAdapter A) (hwriterRules : writer.policy.rules = [])
    (hstrict : writer.policy.strictWrite = true) {writeKey : String}
    (hwriteKey : endsWith writeKey ".delta" = true) :
    FailsClosed writer reader writeKey key data ↔
      (Unreadable data →
        (SomeIdentified data ∨ writer.keystore.endorsementKey = none ∨
          ∃ e, (Adapter.writeObject writer.inner writeKey data).1 = .err e) ∧
        (reader.deltaFilter.isBlacklisted deltaId = true ∨
          ¬ Derails reader.inner deltaId ∧
            (SomeIdentified data ∨ ¬ CleanScan reader.inner deltaId ∨
              ¬ reader.endorsementMode.rule (reader.validEndorsers deltaId).card
                reader.keystore.trustedKeyCount))) := by
  refine imp_congr_right fun _ => and_congr ?_ ?_
  · exact exists_writeObject_eq_err_iff hwriterRules hstrict hwriteKey
  · exact reader.exists_readObject_eq_err_iff hrules hmode hkeys hkey hid hwhite hdata hlist hread

end

end TrustAdapter

end

section

open Reference

/-- A writer with the first sample key and these rules. -/
def sampleWriter (rules : List Rule) (store : MemoryMap) : TrustAdapter MemoryMap :=
  ⟨store, ⟨some (sampleKey 1), ∅, ∅⟩, DeltaFilter.new, ⟨rules, true⟩, .single⟩

/-- A store with an object for the first sample delta, and its endorsements. -/
def deltaStore (data : Bytes) (signed : List (SigningKey × DeltaId)) : MemoryMap :=
  repository [((sampleDelta 1).key, data)] signed

theorem endorsedExactly_deltaStore (data : Bytes) {signed : List (SigningKey × DeltaId)}
    (hsigned : ∀ call ∈ signed, IsLowerHex call.2.digest) :
    EndorsedExactly (deltaStore data signed) fun sk id => (sk, id) ∈ signed := by
  refine endorsedExactly_repository (fun object hobject => ?_) hsigned
  obtain rfl := List.mem_singleton.mp hobject
  show endsWith (sampleDelta 1).key ".sig" = false
  decide

/-- A store without endorsements. -/
theorem endorsedExactly_unsigned (data : Bytes) :
    EndorsedExactly (deltaStore data [])
      fun sk id => (sk, id) ∈ ([] : List (SigningKey × DeltaId)) :=
  endorsedExactly_deltaStore data (List.forall_mem_nil _)

theorem objects_deltaStore (data : Bytes) (signed : List (SigningKey × DeltaId)) :
    MapAdapter.objects (deltaStore data signed) (sampleDelta 1).key = some data := by
  rw [deltaStore, repository, objects_storeOf, List.singleton_append, List.lookup_cons_self]

/-- A reader of the sample delta, once the sample writer has endorsed it. -/
def endorsedReader : TrustAdapter MemoryMap :=
  sampleAdapter .single {(sampleKey 1).verifyingKey}
    ((sampleWriter allowAll.rules (deltaStore sampleData [])).endorse (sampleDelta 1)).2

/-- The sample writer may write the sample delta, so the reader reads it. -/
theorem checkWrite_iff_readObject_sample :
    endorsedReader.readObject (sampleDelta 1).key 0 0 = .ok sampleData := by
  have hcheck : (sampleWriter allowAll.rules (deltaStore sampleData [])).checkWrite
      (sampleDelta 1).key sampleData = .ok () :=
    (TrustAdapter.checkWrite_eq_ok_iff rfl (endsWith_key _)).mpr
      ⟨sampleKey 1, rfl, fun id _ => allows_allowAll _ _ id⟩
  have hstore := endorsedExactly_unsigned sampleData
  have hnone : ∀ vk, SignedBy (fun sk id => (sk, id) ∈ ([] : List (SigningKey × DeltaId)))
      (sampleDelta 1) vk → vk = (sampleKey 1).verifyingKey := by
    rintro vk ⟨sk, hsigned, -⟩
    cases hsigned
  exact (TrustAdapter.checkWrite_iff_readObject deltaIdLaws digitLaw signatureLaw base64Law
    serdeSliceLaw (sampleWriter allowAll.rules (deltaStore sampleData [])) rfl rfl hstore
    (isLowerHex_sampleDelta 1) hnone (objects_deltaStore _ _) endorsedReader rfl rfl rfl
    (Finset.mem_singleton_self _) rfl rfl rfl).1.mp hcheck

/-- A reader that trusts the first sample key, without rules. -/
def denyingReader (mode : EndorsementMode) (store : MemoryMap) : TrustAdapter MemoryMap :=
  ⟨store, ⟨none, {(sampleKey 1).verifyingKey}, ∅⟩, DeltaFilter.new, ⟨[], true⟩, mode⟩

/-- A delta with an identifier in its first entry, and a second entry that is
a number. -/
def halfReadable : Bytes := asBytes "\x7b\x22c\x22:[[\x22x\x22],1]\x7d"

/-- A delta with one identifier is stopped by a policy without rules, although
its second entry cannot be read. -/
theorem failsClosed_iff_sample :
    (sampleWriter [] MemoryMap.new).FailsClosed
      (denyingReader .majority (deltaStore halfReadable [])) (sampleDelta 1).key
      (sampleDelta 1).key halfReadable := by
  have hids : SomeIdentified halfReadable := by
    have hextract : extractCreatedAndModifiedObjectIds halfReadable = ["x"] := by decide +kernel
    exact not_not.mp fun h => by simp [extract_eq_nil_iff.mpr h] at hextract
  have hclean := (endorsedExactly_unsigned halfReadable).cleanScan deltaIdLaws digitLaw
    signatureLaw base64Law serdeSliceLaw (sampleDelta 1)
  have hdata : Adapter.readObject (deltaStore halfReadable []) (sampleDelta 1).key 0 0
      = .ok halfReadable :=
    MapAdapter.readObject_some (objects_deltaStore _ _)
  exact (TrustAdapter.failsClosed_iff (denyingReader .majority (deltaStore halfReadable [])) rfl
    (by decide) (by decide) (endsWith_key _) (fromKeyLaw _) rfl hdata
    (MapAdapter.listObjects_ne_panic _ _) (MapAdapter.readObject_ne_panic _)
    (sampleWriter [] MemoryMap.new) rfl rfl (endsWith_key _)).mpr
      fun _ => ⟨Or.inl hids, Or.inr ⟨hclean.not_derails, Or.inl hids⟩⟩

/-- The empty byte string is not JSON, but it is written and read under a
policy that denies everything. -/
theorem emptyData_not_failsClosed :
    let store := deltaStore [] [(sampleKey 1, sampleDelta 1)]
    ((sampleWriter [] store).writeObject (sampleDelta 1).key []).1 = .ok () ∧
      (denyingReader .unanimous store).readObject (sampleDelta 1).key 0 0 = .ok [] ∧
      ¬ (sampleWriter [] store).FailsClosed (denyingReader .unanimous store) (sampleDelta 1).key
        (sampleDelta 1).key [] := by
  intro store
  have hunreadable : Unreadable [] := .notJson (e := "invalid JSON") rfl
  have hids : ¬ SomeIdentified [] := extract_eq_nil_iff.mp rfl
  have hcheck : (sampleWriter [] store).checkWrite (sampleDelta 1).key [] = .ok () :=
    (TrustAdapter.checkWrite_eq_ok_iff rfl (endsWith_key _)).mpr
      ⟨sampleKey 1, rfl, (TrustAdapter.authorises_of_no_rules rfl).mpr hids⟩
  have hread : (denyingReader .unanimous store).readObject (sampleDelta 1).key 0 0 = .ok [] := by
    refine (TrustAdapter.readObject_of_fromStr (endsWith_key _) (fromKeyLaw _)).mpr
      ⟨MapAdapter.readObject_some (objects_deltaStore _ _), ?_⟩
    have hsigned : ∀ call ∈ [(sampleKey 1, sampleDelta 1)], IsLowerHex call.2.digest := by
      intro call hcall
      obtain rfl := List.mem_singleton.mp hcall
      exact isLowerHex_sampleDelta 1
    refine (endorsedExactly_deltaStore [] hsigned).admits_of_all_signed deltaIdLaws digitLaw
      signatureLaw base64Law serdeSliceLaw rfl rfl (by decide) fun vk hvk => ⟨?_, ?_⟩
    · obtain rfl := Finset.mem_singleton.mp hvk
      exact ⟨sampleKey 1, List.mem_singleton_self _, rfl⟩
    · exact (TrustAdapter.authorises_of_no_rules rfl).mpr hids
  refine ⟨TrustAdapter.writeObject_of_checkWrite hcheck, hread, fun hcloses => ?_⟩
  obtain ⟨-, e, he⟩ := hcloses hunreadable
  simp [hread] at he

end

end MeldaSec
