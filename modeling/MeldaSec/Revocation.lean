import MeldaSec.Reload

/-!
# Revoked content

A delta on the blacklist is not read again.  The gate looks at the blacklist
first, nothing takes an entry off it, and a saved configuration brings every
entry back.  So the key of a revoked delta is on the blacklist in every state
that a node reaches (`Reaches`, `mem_blacklist_of_reaches`), whatever the
node, its users and the other nodes on its store do.

The revocation is about the one delta.  Names that do not parse to it are read
as before (`readObject_addDeltaToBlacklist`).
-/

namespace MeldaSec

open Rust

section

variable [Crates]

/-- A filter that is saved and loaded still has the keys of its blacklist. -/
theorem DeltaFilter.mem_blacklist_of_reload [SerdeValue DeltaFilterConfig] (hkeys : FromKeyLaw)
    (hserde : SerdeValueLaw DeltaFilterConfig) {df df' : DeltaFilter}
    {white black : HashIter String} {json : Value} (hsaved : df.toJson white black = .ok json)
    (hloaded : fromJson json = .ok df') {deltaId : DeltaId} (h : deltaId.key ∈ df.blacklist) :
    deltaId.key ∈ df'.blacklist := by
  obtain ⟨json', hjson', hconfig⟩ := hserde ⟨white.items df.whitelist, black.items df.blacklist⟩
  rw [toJson, hjson', Outcome.ofExcept_ok] at hsaved
  obtain rfl := Outcome.ok.inj hsaved
  obtain ⟨whiteIds, blackIds, -, hblack, rfl⟩ := (fromJson_eq_ok_iff hconfig).mp hloaded
  refine mem_keySet.mpr ⟨deltaId, ?_, rfl⟩
  exact (Outcome.mem_of_mapM_eq_ok hblack deltaId).mpr
    ⟨deltaId.key, black.mem_items.mpr h, hkeys deltaId⟩

namespace TrustAdapter

variable {A : Type} [Adapter A] [SerdeSlice EndorsementRecord]

/-! ## One read -/

/-- A whole read of a blacklisted delta fails, as long as the store does not
panic. -/
theorem readObject_of_mem_blacklist (hdelta : DeltaIdLaws) (hkeys : FromKeyLaw)
    {t : TrustAdapter A} {deltaId : DeltaId} (h : deltaId.key ∈ t.deltaFilter.blacklist)
    (hread : Adapter.readObject t.inner deltaId.key 0 0 ≠ .panic) :
    ∃ e, t.readObject deltaId.key 0 0 = .err e := by
  have hblack : t.deltaFilter.isBlacklisted deltaId = true := decide_eq_true h
  rw [readObject_whole t (hdelta.endsWith_key deltaId)]
  cases hobject : Adapter.readObject t.inner deltaId.key 0 0 with
  | panic => exact absurd hobject hread
  | err e => exact ⟨e, rfl⟩
  | ok data =>
    refine ⟨"blacklisted_object_key", ?_⟩
    simp only [hkeys deltaId, gate, hblack, Outcome.ok_bind, if_true]

omit [Adapter A] [SerdeSlice EndorsementRecord] in
/-- Other deltas are on the blacklist as before. -/
theorem isBlacklisted_addDeltaToBlacklist (hkeys : FromKeyLaw) (t : TrustAdapter A)
    {deltaId other : DeltaId} (h : other ≠ deltaId) :
    (t.addDeltaToBlacklist deltaId).2.deltaFilter.isBlacklisted other
      = t.deltaFilter.isBlacklisted other := by
  have hkey : other.key ≠ deltaId.key := by
    intro heq
    have hother := hkeys other
    rw [heq, hkeys deltaId] at hother
    exact h (Outcome.ok.inj hother).symm
  have hmem : other.key ∈ insert deltaId.key t.deltaFilter.blacklist ↔
      other.key ∈ t.deltaFilter.blacklist := by
    rw [Finset.mem_insert, or_iff_right hkey]
  exact decide_eq_decide.mpr hmem

/-- Names that do not parse to the revoked delta are read as before. -/
theorem readObject_addDeltaToBlacklist (hkeys : FromKeyLaw) (t : TrustAdapter A)
    {deltaId : DeltaId} {key : String} (hkey : DeltaId.fromStr key ≠ .ok deltaId)
    (offset length : UInt64) :
    (t.addDeltaToBlacklist deltaId).2.readObject key offset length
      = t.readObject key offset length := by
  rw [readObject, readObject]
  cases hid : DeltaId.fromStr key with
  | panic => rfl
  | err e => rfl
  | ok other =>
    have hne : other ≠ deltaId := fun heq => hkey (heq ▸ hid)
    simp only [t.isBlacklisted_addDeltaToBlacklist hkeys hne]
    rfl

/-! ## Every run -/

variable [SerdeYaml PolicyFile] [SerdeValue TrustConfiguration] [SerdeValue KeyStoreConfig]
  [SerdeValue DeltaFilterConfig] [SerdeValue PolicyEngineConfig]

/-- One thing that can happen to a node: a call that changes its configuration,
a call that changes its store, an endorsement by another node over the same
store, or a reload of the saved configuration over any store. -/
inductive Change (t : TrustAdapter A) : TrustAdapter A → Prop where
  | addDeltaToWhitelist (deltaId : DeltaId) : Change t (t.addDeltaToWhitelist deltaId).2
  | addDeltaToBlacklist (deltaId : DeltaId) : Change t (t.addDeltaToBlacklist deltaId).2
  | setEndorsementMode (mode : EndorsementMode) : Change t (t.setEndorsementMode mode)
  | setKeystore (ks : KeyStore) : Change t (t.setKeystore ks)
  | setPolicy (policy : PolicyEngine) : Change t (t.setPolicy policy)
  | getKeystoreMut {ks : KeyStore} : t.keystore.Change ks → Change t (t.setKeystore ks)
  | getDeltaFilterMut {df : DeltaFilter} : t.deltaFilter.Change df → Change t (t.setDeltaFilter df)
  | getPolicyMut {policy : PolicyEngine} : t.policy.Change policy → Change t (t.setPolicy policy)
  | writeObject (key : String) (data : Bytes) : Change t (t.writeObject key data).2
  | endorse (deltaId : DeltaId) : Change t (t.withInner (t.endorse deltaId).2)
  | endorseBy (signer : TrustAdapter A) (deltaId : DeltaId) :
    signer.inner = t.inner → Change t (t.withInner (signer.endorse deltaId).2)
  | reload {json : Value} {t' : TrustAdapter A} (iter : HashIter VerifyingKey)
    (white black : HashIter String) (inner : A) :
    t.toJson iter white black = .ok json → fromJson inner json = .ok t' → Change t t'

/-- The states that a node reaches. -/
def Reaches : TrustAdapter A → TrustAdapter A → Prop := Relation.ReflTransGen Change

omit [Adapter A] [SerdeSlice EndorsementRecord] [SerdeYaml PolicyFile] in
/-- A node that is saved and loaded still has the keys of its blacklist. -/
theorem mem_blacklist_of_reload (hkeys : FromKeyLaw) (hconfig : SerdeValueLaw TrustConfiguration)
    (hfilter : SerdeValueLaw DeltaFilterConfig) {t t' : TrustAdapter A}
    {iter : HashIter VerifyingKey} {white black : HashIter String} {inner : A} {json : Value}
    (hsaved : t.toJson iter white black = .ok json) (hloaded : fromJson inner json = .ok t')
    {deltaId : DeltaId} (h : deltaId.key ∈ t.deltaFilter.blacklist) :
    deltaId.key ∈ t'.deltaFilter.blacklist := by
  simp only [toJson, Outcome.bind_eq_ok_iff, Outcome.ofExcept_eq_ok_iff] at hsaved
  obtain ⟨ksJson, -, dfJson, hdfJson, policyJson, -, hjson⟩ := hsaved
  obtain ⟨json', hjson', hparse⟩ := hconfig ⟨t.endorsementMode, ksJson, dfJson, policyJson⟩
  obtain rfl := Except.ok.inj (hjson.symm.trans hjson')
  obtain ⟨-, hdf, -⟩ := (fromJson_eq_ok_iff hparse).mp hloaded
  exact DeltaFilter.mem_blacklist_of_reload hkeys hfilter hdfJson hdf h

/-- Nothing takes a delta off the blacklist. -/
theorem Change.mem_blacklist (hkeys : FromKeyLaw) (hconfig : SerdeValueLaw TrustConfiguration)
    (hfilter : SerdeValueLaw DeltaFilterConfig) {t t' : TrustAdapter A} (hchange : t.Change t')
    {deltaId : DeltaId} (h : deltaId.key ∈ t.deltaFilter.blacklist) :
    deltaId.key ∈ t'.deltaFilter.blacklist := by
  cases hchange with
  | addDeltaToWhitelist other => exact h
  | addDeltaToBlacklist other => exact Finset.mem_insert_of_mem h
  | setEndorsementMode mode => exact h
  | setKeystore ks => exact h
  | setPolicy policy => exact h
  | getKeystoreMut hks => exact h
  | getDeltaFilterMut hdf =>
    cases hdf with
    | addToWhitelist other => exact h
    | addToBlacklist other => exact Finset.mem_insert_of_mem h
  | getPolicyMut hpolicy => exact h
  | writeObject key data =>
    unfold TrustAdapter.writeObject
    cases t.checkWrite key data <;> exact h
  | endorse other => exact h
  | endorseBy signer other hinner => exact h
  | reload iter white black inner hsaved hloaded =>
    exact mem_blacklist_of_reload hkeys hconfig hfilter hsaved hloaded h

/-- A revoked delta is on the blacklist in every state that is reached. -/
theorem mem_blacklist_of_reaches (hkeys : FromKeyLaw) (hconfig : SerdeValueLaw TrustConfiguration)
    (hfilter : SerdeValueLaw DeltaFilterConfig) {t t' : TrustAdapter A} (hrun : t.Reaches t')
    {deltaId : DeltaId} (h : deltaId.key ∈ t.deltaFilter.blacklist) :
    deltaId.key ∈ t'.deltaFilter.blacklist := by
  induction hrun with
  | refl => exact h
  | tail _ hchange ih => exact hchange.mem_blacklist hkeys hconfig hfilter ih

/-- Blacklisting a delta changes the reads of that delta only, and that delta
is not read in any state that is reached afterwards. -/
theorem blacklist_permanent (hdelta : DeltaIdLaws) (hkeys : FromKeyLaw)
    (hconfig : SerdeValueLaw TrustConfiguration) (hfilter : SerdeValueLaw DeltaFilterConfig)
    {deltaId : DeltaId}
    (hread : ∀ store : A, Adapter.readObject store deltaId.key 0 0 ≠ .panic)
    (t : TrustAdapter A) :
    let revoked := (t.addDeltaToBlacklist deltaId).2
    (∀ key, DeltaId.fromStr key ≠ .ok deltaId →
        revoked.readObject key 0 0 = t.readObject key 0 0) ∧
      (∃ e, revoked.readObject deltaId.key 0 0 = .err e) ∧
      ∀ t', revoked.Reaches t' → ∃ e, t'.readObject deltaId.key 0 0 = .err e := by
  intro revoked
  have hmem : deltaId.key ∈ revoked.deltaFilter.blacklist := Finset.mem_insert_self _ _
  refine ⟨fun key hkey => t.readObject_addDeltaToBlacklist hkeys hkey 0 0,
    readObject_of_mem_blacklist hdelta hkeys hmem (hread _), fun t' hrun => ?_⟩
  exact readObject_of_mem_blacklist hdelta hkeys
    (mem_blacklist_of_reaches hkeys hconfig hfilter hrun hmem) (hread _)

end TrustAdapter

end

section

open Reference

/-- The sample node, with its first delta revoked. -/
def revokedTrust : TrustAdapter MemoryMap :=
  ((sampleTrust .majority).addDeltaToBlacklist (sampleDelta 1)).2

/-- The node after its revoked delta was whitelisted, its mode was set to the
permissive one, and another key endorsed the delta. -/
def lenientTrust : TrustAdapter MemoryMap :=
  let t := (revokedTrust.addDeltaToWhitelist (sampleDelta 1)).2
  let t := t.setEndorsementMode .permissive
  let signer := t.setKeystore (KeyStore.new.setEndorsementCredentials (sampleKey 2).val none).2
  t.withInner (signer.endorse (sampleDelta 1)).2

theorem reaches_lenientTrust : revokedTrust.Reaches lenientTrust :=
  ((Relation.ReflTransGen.single (.addDeltaToWhitelist (sampleDelta 1))).tail
    (.setEndorsementMode .permissive)).tail (.endorseBy _ (sampleDelta 1) rfl)

/-- The sample node reads the delta before the revocation, and not after it.
The other delta of the store is read as before. -/
theorem blacklist_permanent_sample :
    (sampleTrust .majority).readObject (sampleDelta 1).key 0 0 = .ok sampleData ∧
      (∃ e, lenientTrust.readObject (sampleDelta 1).key 0 0 = .err e) ∧
      revokedTrust.readObject (sampleDelta 2).key 0 0 = .ok sampleData := by
  obtain ⟨hframe, -, hrun⟩ := TrustAdapter.blacklist_permanent deltaIdLaws fromKeyLaw
    serdeValueLaw_trustConfiguration serdeValueLaw_deltaFilterConfig
    (fun store => MapAdapter.readObject_ne_panic store (sampleDelta 1).key)
    (sampleTrust .majority)
  have hother : DeltaId.fromStr (sampleDelta 2).key ≠ .ok (sampleDelta 1) := by
    rw [fromKeyLaw (sampleDelta 2)]
    decide
  exact ⟨readObject_sampleTrust .majority (Or.inl rfl), hrun _ reaches_lenientTrust,
    (hframe _ hother).trans (readObject_sampleTrust .majority (Or.inr rfl))⟩

end

end MeldaSec
