import MeldaSec.Policy.Loading

/-!
# What a loaded configuration holds

The loaders of the key store and of the delta filter are loops with a `?` in
every turn.  This module says what they return without the loops: each entry
is decoded on its own (`decodeEntry`, `DeltaId.fromStr`), and the decoded
entries are then collected.  A key store collects trusted keys and roles (`trust`),
and a filter collects the keys of the deltas.  The loader of the policy is
described in the same way by `PolicyEngine.fromJson_eq_ok_iff`.
-/

namespace MeldaSec

open Rust

section

variable [Crates]

/-! ## The key store -/

namespace KeyStore

/-- The key and the role of a serialized entry. -/
def decodeEntry (key : KeyEntry) : Result (VerifyingKey × Option String) := do
  let pubkey ← Outcome.ofExcept (Crates.base64Decode key.pubkey)
  let array ← Outcome.okOr tryFromSliceError (tryInto 32 pubkey)
  let vk ← Outcome.okOr Crates.pointError (VerifyingKey.fromBytes array)
  .ok (vk, key.role)

/-- A written entry reads back. -/
theorem decodeEntry_written (hbase64 : Base64Law) (vk : VerifyingKey) (role : Option String) :
    decodeEntry ⟨Crates.base64Encode vk.toBytes, role⟩ = .ok (vk, role) := by
  simp only [decodeEntry, hbase64 vk.toBytes, Outcome.ofExcept_ok, Outcome.ok_bind,
    VerifyingKey.tryInto_toBytes, Outcome.okOr_some, VerifyingKey.fromBytes_val]

/-- One more trusted key, with a role or without. -/
def trust (ks : KeyStore) (entry : VerifyingKey × Option String) : KeyStore where
  endorsementKey := ks.endorsementKey
  trustedKeys := insert entry.1 ks.trustedKeys
  roles := entry.2.elim ks.roles (ks.roles.insert entry.1.toBytes)

/-- A turn of the loop decodes the entry and trusts its key. -/
theorem addEntry_eq (ks : KeyStore) (key : KeyEntry) :
    ks.addEntry key = ks.trust <$> decodeEntry key := by
  obtain ⟨pubkey, role⟩ := key
  rw [addEntry, decodeEntry]
  cases Crates.base64Decode pubkey with
  | error e => rfl
  | ok bytes =>
    simp only [Outcome.ofExcept_ok, Outcome.ok_bind]
    cases harray : tryInto 32 bytes with
    | none =>
      cases role <;> simp [addTrustedPublicKey, addTrustedPublicKeyWithRole, harray, andThen]
    | some array =>
      cases hvk : VerifyingKey.fromBytes array with
      | none =>
        cases role <;>
          simp [addTrustedPublicKey, addTrustedPublicKeyWithRole, harray, hvk, andThen]
      | some vk =>
        cases role <;>
          simp [addTrustedPublicKey, addTrustedPublicKeyWithRole, harray, hvk, andThen, trust]

/-- The loaded key store trusts the decoded entries, one after the other. -/
theorem fromJson_eq_ok_iff [SerdeValue KeyStoreConfig] {ks : KeyStore} {json : Value}
    {config : KeyStoreConfig} (h : SerdeValue.fromValue json = .ok config) :
    fromJson json = .ok ks ↔
      ∃ entries, config.keys.mapM decodeEntry = .ok entries ∧ entries.foldl trust new = ks := by
  have hturn : addEntry = fun ks key => ks.trust <$> decodeEntry key :=
    funext fun ks => funext fun key => addEntry_eq ks key
  rw [fromJson, h, Outcome.ofExcept_ok, Outcome.ok_bind, hturn, Outcome.foldlM_record,
    Outcome.map_eq_ok_iff]

theorem mem_trustedKeys_foldl {entries : List (VerifyingKey × Option String)} {ks : KeyStore}
    {vk : VerifyingKey} :
    vk ∈ (entries.foldl trust ks).trustedKeys ↔
      vk ∈ ks.trustedKeys ∨ ∃ entry ∈ entries, entry.1 = vk := by
  induction entries generalizing ks with
  | nil => simp
  | cons entry entries ih =>
    rw [List.foldl_cons, ih, trust, Finset.mem_insert, List.exists_mem_cons_iff]
    simp only [or_assoc, or_left_comm, eq_comm]

/-- The role of a key changes when that key is trusted with a role. -/
theorem getRole_trust (ks : KeyStore) (vk : VerifyingKey) (role : Option String) (pubkey : Bytes) :
    (ks.trust (vk, role)).getRole pubkey
      = if pubkey = vk.toBytes then role.or (ks.getRole pubkey) else ks.getRole pubkey := by
  cases role with
  | none => simp [trust, getRole]
  | some role =>
    split_ifs with h
    · subst h
      exact Finmap.lookup_insert _
    · exact Finmap.lookup_insert_of_ne _ h

end KeyStore

/-! ## The delta filter -/

namespace DeltaFilter

/-- The keys of these deltas. -/
def keySet (deltaIds : List DeltaId) : Finset String := (deltaIds.map DeltaId.key).toFinset

theorem mem_keySet {deltaIds : List DeltaId} {key : String} :
    key ∈ keySet deltaIds ↔ ∃ deltaId ∈ deltaIds, deltaId.key = key := by
  rw [keySet, List.mem_toFinset, List.mem_map]

theorem keySet_cons (deltaId : DeltaId) (deltaIds : List DeltaId) :
    keySet (deltaId :: deltaIds) = insert deltaId.key (keySet deltaIds) := by
  rw [keySet, List.map_cons, List.toFinset_cons, keySet]

theorem foldl_insert_key (deltaIds : List DeltaId) (keys : Finset String) :
    deltaIds.foldl (fun keys deltaId => insert deltaId.key keys) keys = keys ∪ keySet deltaIds := by
  induction deltaIds generalizing keys with
  | nil => rw [keySet, List.map_nil, List.toFinset_nil, Finset.union_empty, List.foldl_nil]
  | cons deltaId deltaIds ih =>
    rw [List.foldl_cons, ih, keySet_cons, Finset.union_insert, ← Finset.insert_union]

theorem foldl_addToWhitelist (deltaIds : List DeltaId) (df : DeltaFilter) :
    deltaIds.foldl (fun df deltaId => (df.addToWhitelist deltaId).2) df
      = ⟨df.whitelist ∪ keySet deltaIds, df.blacklist⟩ := by
  rw [← foldl_insert_key]
  exact List.foldl_hom (fun keys => DeltaFilter.mk keys df.blacklist) fun _ _ => rfl

theorem foldl_addToBlacklist (deltaIds : List DeltaId) (df : DeltaFilter) :
    deltaIds.foldl (fun df deltaId => (df.addToBlacklist deltaId).2) df
      = ⟨df.whitelist, df.blacklist ∪ keySet deltaIds⟩ := by
  rw [← foldl_insert_key]
  exact List.foldl_hom (fun keys => DeltaFilter.mk df.whitelist keys) fun _ _ => rfl

/-- The loaded filter has the keys of the deltas of both lists. -/
theorem fromJson_eq_ok_iff [SerdeValue DeltaFilterConfig] {df : DeltaFilter} {json : Value}
    {config : DeltaFilterConfig} (h : SerdeValue.fromValue json = .ok config) :
    fromJson json = .ok df ↔
      ∃ white black, config.whitelist.mapM DeltaId.fromStr = .ok white ∧
        config.blacklist.mapM DeltaId.fromStr = .ok black ∧ df = ⟨keySet white, keySet black⟩ := by
  -- Adding to a list does not fail, so a turn fails when its entry does not parse.
  have hloops : fromJson json = (do
      let df ← config.whitelist.foldlM
        (fun df entry => (fun id => (addToWhitelist df id).2) <$> DeltaId.fromStr entry) new
      config.blacklist.foldlM
        (fun df entry => (fun id => (addToBlacklist df id).2) <$> DeltaId.fromStr entry) df) := by
    rw [fromJson, h, Outcome.ofExcept_ok, Outcome.ok_bind]
    rfl
  rw [hloops, Outcome.bind_eq_ok_iff]
  simp only [Outcome.foldlM_record, foldl_addToWhitelist, foldl_addToBlacklist,
    Outcome.map_eq_ok_iff, new, Finset.empty_union]
  constructor
  · rintro ⟨_, ⟨white, hwhite, rfl⟩, black, hblack, rfl⟩
    exact ⟨white, black, hwhite, hblack, by rw [Finset.empty_union]⟩
  · rintro ⟨white, black, hwhite, hblack, rfl⟩
    exact ⟨_, ⟨white, hwhite, rfl⟩, black, hblack, by rw [Finset.empty_union]⟩

end DeltaFilter

/-! ## The trust adapter -/

/-- The loaded adapter has the loaded parts, the mode of the configuration and
the given store. -/
theorem TrustAdapter.fromJson_eq_ok_iff [SerdeValue TrustConfiguration]
    [SerdeValue KeyStoreConfig] [SerdeValue DeltaFilterConfig] [SerdeValue PolicyEngineConfig]
    {A : Type} {inner : A} {t : TrustAdapter A} {json : Value} {config : TrustConfiguration}
    (h : SerdeValue.fromValue json = .ok config) :
    TrustAdapter.fromJson inner json = .ok t ↔
      KeyStore.fromJson config.keystore = .ok t.keystore ∧
        DeltaFilter.fromJson config.deltaFilter = .ok t.deltaFilter ∧
          PolicyEngine.fromJson config.policy = .ok t.policy ∧
            t.inner = inner ∧ t.endorsementMode = config.endorsementMode := by
  rw [TrustAdapter.fromJson, h]
  simp only [Outcome.ofExcept_ok, Outcome.ok_bind, Outcome.bind_eq_ok_iff, Outcome.ok.injEq]
  constructor
  · rintro ⟨ks, hks, df, hdf, policy, hpolicy, rfl⟩
    exact ⟨hks, hdf, hpolicy, rfl, rfl⟩
  · rintro ⟨hks, hdf, hpolicy, rfl, hmode⟩
    exact ⟨_, hks, _, hdf, _, hpolicy, by rw [← hmode]⟩

end

end MeldaSec
