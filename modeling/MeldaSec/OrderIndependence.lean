import MeldaSec.Reference.Configuration

/-!
# The order of configurations and listings

Two nodes whose configurations have the same entries in another order, over
stores that hold the same objects and list the same names in another order,
accept the same deltas.

`Reordered` and `SameContent` say this of the configurations and of the
stores.  A loaded key store, filter or policy does not depend on the order of
its entries, so the two nodes are `Alike`; and alike nodes decide alike,
because `Admits` is about the members of the listing, of the trusted keys and
of the rules, and about nothing else.
-/

namespace MeldaSec

open Rust

section

variable [Crates]

/-! ## Reordered configurations -/

namespace KeyStore

/-- Every public key has one entry. -/
def DistinctKeys (entries : List KeyEntry) : Prop :=
  (entries.map fun entry => Crates.base64Decode entry.pubkey).Nodup

theorem pubkey_of_decodeEntry {key : KeyEntry} {entry : VerifyingKey × Option String}
    (h : decodeEntry key = .ok entry) :
    Crates.base64Decode key.pubkey = .ok entry.1.toBytes := by
  simp only [decodeEntry, Outcome.bind_eq_ok_iff, Outcome.ofExcept_eq_ok_iff,
    Outcome.okOr_eq_ok_iff] at h
  obtain ⟨bytes, hbytes, array, harray, vk, hvk, hentry⟩ := h
  obtain rfl := Outcome.ok.inj hentry
  rw [hbytes, tryInto_eq_some_iff.mp harray, VerifyingKey.fromBytes_eq_some_iff.mp hvk]
  rfl

/-- Entries for different keys can be trusted in any order. -/
theorem trust_comm (ks : KeyStore) {entry entry' : VerifyingKey × Option String}
    (h : entry.1 ≠ entry'.1) :
    (ks.trust entry).trust entry' = (ks.trust entry').trust entry := by
  obtain ⟨vk, role⟩ := entry
  obtain ⟨vk', role'⟩ := entry'
  have hbytes : vk.toBytes ≠ vk'.toBytes := fun heq => h (VerifyingKey.toBytes_injective heq)
  have htrusted := Finset.insert_comm vk' vk ks.trustedKeys
  cases role <;> cases role' <;>
    simp [trust, htrusted, Finmap.insert_insert_of_ne ks.roles hbytes]

/-- The order of the entries does not change the loaded key store. -/
theorem fromJson_of_perm [SerdeValue KeyStoreConfig] {json json' : Value}
    {config config' : KeyStoreConfig} (h : SerdeValue.fromValue json = .ok config)
    (h' : SerdeValue.fromValue json' = .ok config') (hperm : config.keys.Perm config'.keys)
    (hdistinct : DistinctKeys config.keys) {ks : KeyStore} (hload : fromJson json = .ok ks) :
    fromJson json' = .ok ks := by
  obtain ⟨decoded, hdecoded, rfl⟩ := (fromJson_eq_ok_iff h).mp hload
  obtain ⟨decoded', hdecoded', hperm'⟩ := Outcome.mapM_perm hperm hdecoded
  refine (fromJson_eq_ok_iff h').mpr ⟨decoded', hdecoded', (hperm'.foldl_eq' ?_ new).symm⟩
  intro entry hentry entry' hentry' ks
  obtain ⟨key, hkey, hdecode⟩ := (Outcome.mem_of_mapM_eq_ok hdecoded entry).mp hentry
  obtain ⟨key', hkey', hdecode'⟩ := (Outcome.mem_of_mapM_eq_ok hdecoded entry').mp hentry'
  by_cases hvk : entry.1 = entry'.1
  · -- Entries for one key are one entry.
    have hpubkey : Crates.base64Decode key.pubkey = Crates.base64Decode key'.pubkey := by
      rw [pubkey_of_decodeEntry hdecode, pubkey_of_decodeEntry hdecode', hvk]
    obtain rfl := List.inj_on_of_nodup_map hdistinct hkey hkey' hpubkey
    obtain rfl := Outcome.ok.inj (hdecode.symm.trans hdecode')
    rfl
  · exact ks.trust_comm hvk

end KeyStore

namespace DeltaFilter

theorem keySet_perm {deltaIds deltaIds' : List DeltaId} (h : deltaIds.Perm deltaIds') :
    keySet deltaIds = keySet deltaIds' :=
  List.toFinset_eq_of_perm _ _ (h.map DeltaId.key)

/-- The order of the entries does not change the loaded filter. -/
theorem fromJson_of_perm [SerdeValue DeltaFilterConfig] {json json' : Value}
    {config config' : DeltaFilterConfig} (h : SerdeValue.fromValue json = .ok config)
    (h' : SerdeValue.fromValue json' = .ok config')
    (hwhite : config.whitelist.Perm config'.whitelist)
    (hblack : config.blacklist.Perm config'.blacklist) {df : DeltaFilter}
    (hload : fromJson json = .ok df) : fromJson json' = .ok df := by
  obtain ⟨white, black, hwhiteIds, hblackIds, rfl⟩ := (fromJson_eq_ok_iff h).mp hload
  obtain ⟨white', hwhiteIds', hwhitePerm⟩ := Outcome.mapM_perm hwhite hwhiteIds
  obtain ⟨black', hblackIds', hblackPerm⟩ := Outcome.mapM_perm hblack hblackIds
  refine (fromJson_eq_ok_iff h').mpr ⟨white', black', hwhiteIds', hblackIds', ?_⟩
  rw [keySet_perm hwhitePerm, keySet_perm hblackPerm]

end DeltaFilter

namespace PolicyEngine

/-- The order of the entries is the order of the rules. -/
theorem fromJson_of_perm [SerdeValue PolicyEngineConfig] {json json' : Value}
    {config config' : PolicyEngineConfig} (h : SerdeValue.fromValue json = .ok config)
    (h' : SerdeValue.fromValue json' = .ok config') (hperm : config.rules.Perm config'.rules)
    {engine : PolicyEngine} (hload : fromJson json = .ok engine) :
    ∃ engine', fromJson json' = .ok engine' ∧ engine'.rules.Perm engine.rules := by
  obtain ⟨rules, hrules, rfl⟩ := (fromJson_eq_ok_iff h).mp hload
  obtain ⟨rules', hrules', hperm'⟩ := List.perm_comp_forall₂ hperm.symm hrules
  exact ⟨⟨rules', true⟩, (fromJson_eq_ok_iff h').mpr ⟨rules', hrules', rfl⟩, hperm'⟩

/-- The order of the rules does not change a decision. -/
theorem allows_of_perm {engine engine' : PolicyEngine} (h : engine'.rules.Perm engine.rules)
    (ks : KeyStore) (pubkey : Bytes) (objectId : String) :
    engine'.allows ks pubkey objectId = engine.allows ks pubkey objectId := by
  rw [Bool.eq_iff_iff, allows_iff, allows_iff]
  simp only [h.mem_iff]

end PolicyEngine

/-- The configurations have the same mode, and the same keys, list entries and
rules in another order. -/
structure TrustConfiguration.Reordered [SerdeValue KeyStoreConfig] [SerdeValue DeltaFilterConfig]
    [SerdeValue PolicyEngineConfig] (config config' : TrustConfiguration) : Prop where
  endorsementMode : config'.endorsementMode = config.endorsementMode
  keystore : ∃ ks ks' : KeyStoreConfig, SerdeValue.fromValue config.keystore = .ok ks ∧
    SerdeValue.fromValue config'.keystore = .ok ks' ∧ ks.keys.Perm ks'.keys ∧
      KeyStore.DistinctKeys ks.keys
  deltaFilter : ∃ df df' : DeltaFilterConfig, SerdeValue.fromValue config.deltaFilter = .ok df ∧
    SerdeValue.fromValue config'.deltaFilter = .ok df' ∧ df.whitelist.Perm df'.whitelist ∧
      df.blacklist.Perm df'.blacklist
  policy : ∃ policy policy' : PolicyEngineConfig,
    SerdeValue.fromValue config.policy = .ok policy ∧
      SerdeValue.fromValue config'.policy = .ok policy' ∧ policy.rules.Perm policy'.rules

/-! ## Relisted stores -/

variable {A B : Type} [Adapter A] [Adapter B]

/-- The stores hold the same objects, and list the same `.sig` names, in any
order and any number of times. -/
structure SameContent (store : A) (store' : B) : Prop where
  readObject : ∀ name data, Adapter.readObject store name 0 0 = .ok data ↔
    Adapter.readObject store' name 0 0 = .ok data
  listObjects : ∃ names names', Adapter.listObjects store ".sig" = .ok names ∧
    Adapter.listObjects store' ".sig" = .ok names' ∧ ∀ name, name ∈ names ↔ name ∈ names'

omit [Crates] in
theorem SameContent.mem_sigNames {store : A} {store' : B} (h : SameContent store store')
    (name : String) : name ∈ sigNames store ↔ name ∈ sigNames store' := by
  obtain ⟨names, names', hnames, hnames', hmem⟩ := h.listObjects
  rw [sigNames, sigNames, hnames, hnames']
  exact hmem name

omit [Crates] in
theorem SameContent.listObjects_ne_panic_iff {store : A} {store' : B}
    (h : SameContent store store') :
    Adapter.listObjects store ".sig" ≠ .panic ↔ Adapter.listObjects store' ".sig" ≠ .panic := by
  obtain ⟨names, names', hnames, hnames', -⟩ := h.listObjects
  rw [hnames, hnames']
  simp

variable [SerdeSlice EndorsementRecord]

/-- Both stores hold the same signatures. -/
theorem SameContent.holdsSignature {store : A} {store' : B} (h : SameContent store store')
    (name : String) (sig : Signature) :
    HoldsSignature store name sig ↔ HoldsSignature store' name sig :=
  holdsSignature_congr (h.readObject name) sig

/-- The scan is clean over both stores or over neither. -/
theorem SameContent.cleanScan {store : A} {store' : B} (h : SameContent store store')
    (deltaId : DeltaId) : CleanScan store deltaId ↔ CleanScan store' deltaId := by
  simp only [CleanScan, Passes, h.mem_sigNames, h.holdsSignature]

/-- Both stores have the same endorsers. -/
theorem SameContent.endorses {store : A} {store' : B} (h : SameContent store store')
    (deltaId : DeltaId) (vk : VerifyingKey) :
    Endorses store deltaId vk ↔ Endorses store' deltaId vk := by
  simp only [Endorses, h.mem_sigNames, h.holdsSignature]

/-! ## Alike nodes -/

namespace TrustAdapter

omit [SerdeSlice EndorsementRecord] in
/-- The nodes have the same configuration with their rules in any order, over
stores with the same content. -/
structure Alike (t : TrustAdapter A) (t' : TrustAdapter B) : Prop where
  inner : SameContent t.inner t'.inner
  keystore : t'.keystore = t.keystore
  deltaFilter : t'.deltaFilter = t.deltaFilter
  rules : t'.policy.rules.Perm t.policy.rules
  endorsementMode : t'.endorsementMode = t.endorsementMode

omit [SerdeSlice EndorsementRecord] in
theorem Alike.authorises_iff {t : TrustAdapter A} {t' : TrustAdapter B} (h : t.Alike t')
    (data : Bytes) (vk : VerifyingKey) : t.Authorises data vk ↔ t'.Authorises data vk := by
  simp only [Authorises, h.keystore, PolicyEngine.allows_of_perm h.rules]

theorem Alike.authorisedEndorsers_eq {t : TrustAdapter A} {t' : TrustAdapter B} (h : t.Alike t')
    (deltaId : DeltaId) (data : Bytes) :
    t'.authorisedEndorsers deltaId data = t.authorisedEndorsers deltaId data := by
  ext vk
  rw [mem_authorisedEndorsers, mem_authorisedEndorsers, h.keystore, h.inner.endorses,
    h.authorises_iff]

/-- Alike nodes admit the same deltas. -/
theorem Alike.admits_iff {t : TrustAdapter A} {t' : TrustAdapter B} (h : t.Alike t')
    (deltaId : DeltaId) (data : Bytes) : t.Admits deltaId data ↔ t'.Admits deltaId data := by
  simp only [Admits, Gated, h.deltaFilter, h.endorsementMode, h.keystore,
    h.authorisedEndorsers_eq, h.inner.cleanScan, h.inner.listObjects_ne_panic_iff]

/-- Alike nodes accept the same objects. -/
theorem Alike.readObject_iff {t : TrustAdapter A} {t' : TrustAdapter B} (h : t.Alike t')
    (key : String) (data : Bytes) :
    t.readObject key 0 0 = .ok data ↔ t'.readObject key 0 0 = .ok data := by
  by_cases hkey : endsWith key ".delta" = true
  · simp only [readObject_eq_ok_iff hkey, h.inner.readObject, h.admits_iff]
  · have hplain : ∀ {C : Type} [Adapter C] (t : TrustAdapter C),
        t.readObject key 0 0 = Adapter.readObject t.inner key 0 0 := by
      intro C _ t
      unfold readObject
      cases Adapter.readObject t.inner key 0 0 <;> simp [hkey]
    rw [hplain, hplain, h.inner.readObject]

variable [SerdeValue TrustConfiguration] [SerdeValue KeyStoreConfig]
  [SerdeValue DeltaFilterConfig] [SerdeValue PolicyEngineConfig]

omit [SerdeSlice EndorsementRecord] in
/-- A reordered configuration loads when the other one does, and the two nodes
are alike. -/
theorem exists_alike {inner : A} {inner' : B} (hcontent : SameContent inner inner')
    {json json' : Value} {config config' : TrustConfiguration}
    (hconfig : SerdeValue.fromValue json = .ok config)
    (hconfig' : SerdeValue.fromValue json' = .ok config') (hreordered : config.Reordered config')
    {t : TrustAdapter A} (ht : fromJson inner json = .ok t) :
    ∃ t' : TrustAdapter B, fromJson inner' json' = .ok t' ∧ t.Alike t' := by
  obtain ⟨ksConfig, ksConfig', hks, hks', hkeys, hdistinct⟩ := hreordered.keystore
  obtain ⟨dfConfig, dfConfig', hdf, hdf', hwhite, hblack⟩ := hreordered.deltaFilter
  obtain ⟨policyConfig, policyConfig', hpolicy, hpolicy', hrules⟩ := hreordered.policy
  obtain ⟨hksLoad, hdfLoad, hengine, rfl, hmode⟩ := (fromJson_eq_ok_iff hconfig).mp ht
  have hksLoad' := KeyStore.fromJson_of_perm hks hks' hkeys hdistinct hksLoad
  have hdfLoad' := DeltaFilter.fromJson_of_perm hdf hdf' hwhite hblack hdfLoad
  obtain ⟨engine', hengine', hperm⟩ :=
    PolicyEngine.fromJson_of_perm hpolicy hpolicy' hrules hengine
  exact ⟨⟨inner', t.keystore, t.deltaFilter, engine', config'.endorsementMode⟩,
    (fromJson_eq_ok_iff hconfig').mpr ⟨hksLoad', hdfLoad', hengine', rfl, rfl⟩,
    ⟨hcontent, rfl, rfl, hperm, hreordered.endorsementMode.trans hmode.symm⟩⟩

/-- A node accepts the same objects, with the same bytes, when its
configuration is reordered and its store lists the names in another order. -/
theorem readObject_reordered {inner : A} {inner' : B} (hcontent : SameContent inner inner')
    {json json' : Value} {config config' : TrustConfiguration}
    (hconfig : SerdeValue.fromValue json = .ok config)
    (hconfig' : SerdeValue.fromValue json' = .ok config') (hreordered : config.Reordered config')
    {t : TrustAdapter A} (ht : fromJson inner json = .ok t) :
    ∃ t' : TrustAdapter B, fromJson inner' json' = .ok t' ∧
      ∀ key data, t.readObject key 0 0 = .ok data ↔ t'.readObject key 0 0 = .ok data := by
  obtain ⟨t', ht', halike⟩ := exists_alike hcontent hconfig hconfig' hreordered ht
  exact ⟨t', ht', halike.readObject_iff⟩

end TrustAdapter

end

section

open Reference

/-- A store that lists its names twice, and backwards the first time. -/
structure EchoAdapter where
  store : MemoryMap

instance : Adapter EchoAdapter where
  readObject echo := echo.store.readObject
  writeObject echo name data :=
    ((echo.store.writeObject name data).1, ⟨(echo.store.writeObject name data).2⟩)
  listObjects echo suffix :=
    (fun names => names.reverse ++ names) <$> echo.store.listObjects suffix

theorem sameContent_echo (store : MemoryMap) : SameContent store (EchoAdapter.mk store) where
  readObject _ _ := Iff.rfl
  listObjects := ⟨_, _, rfl, rfl, by simp⟩

/-- The entries of two editors. -/
def editorKeys : List KeyEntry :=
  [⟨Crates.base64Encode (sampleKey 1).verifyingKey.toBytes, some "editor"⟩,
    ⟨Crates.base64Encode (sampleKey 2).verifyingKey.toBytes, some "editor"⟩]

def revokedDeltas : List String := [(sampleDelta 2).key, (sampleDelta 3).key]

/-- The editors may change everything but one object. -/
def editorRules : List PolicyRuleDef :=
  [⟨.deny, none, none, "y"⟩, ⟨.allow, none, some "editor", "*"⟩]

def configurationOf (keys : List KeyEntry) (blacklist : List String)
    (rules : List PolicyRuleDef) : TrustConfiguration :=
  ⟨.majority, keyStoreValue keys, deltaFilterValue [] blacklist, policyEngineValue rules⟩

def editorConfiguration : TrustConfiguration :=
  configurationOf editorKeys revokedDeltas editorRules

def reversedConfiguration : TrustConfiguration :=
  configurationOf editorKeys.reverse revokedDeltas.reverse editorRules.reverse

theorem distinctKeys_editorKeys : KeyStore.DistinctKeys editorKeys := by
  have hdecode : editorKeys.map (fun entry => Crates.base64Decode entry.pubkey)
      = [.ok (sampleKey 1).verifyingKey.toBytes, .ok (sampleKey 2).verifyingKey.toBytes] := by
    simp only [editorKeys, List.map_cons, List.map_nil, base64Law _]
  rw [KeyStore.DistinctKeys, hdecode]
  decide

theorem reordered_reversedConfiguration :
    editorConfiguration.Reordered reversedConfiguration where
  endorsementMode := rfl
  keystore := ⟨_, _, fromValue_keyStoreValue _, fromValue_keyStoreValue _,
    (List.reverse_perm _).symm, distinctKeys_editorKeys⟩
  deltaFilter := ⟨_, _, fromValue_deltaFilterValue _ _, fromValue_deltaFilterValue _ _, .refl _,
    (List.reverse_perm _).symm⟩
  policy := ⟨_, _, fromValue_policyEngineValue _, fromValue_policyEngineValue _,
    (List.reverse_perm _).symm⟩

/-- The store has the endorsements of one delta by both editors. -/
def editedStore : MemoryMap :=
  repository [((sampleDelta 1).key, sampleData)]
    [(sampleKey 1, sampleDelta 1), (sampleKey 2, sampleDelta 1)]

/-- The node that loads the first configuration. -/
def editorNode : TrustAdapter MemoryMap :=
  ⟨editedStore,
    [((sampleKey 1).verifyingKey, some "editor"),
      ((sampleKey 2).verifyingKey, some "editor")].foldl KeyStore.trust KeyStore.new,
    ⟨DeltaFilter.keySet [], DeltaFilter.keySet [sampleDelta 2, sampleDelta 3]⟩,
    ⟨[⟨none, none, [['y']], "y", .deny⟩, ⟨none, some "editor", [['*']], "*", .allow⟩], true⟩,
    .majority⟩

theorem fromJson_editorConfiguration :
    TrustAdapter.fromJson editedStore (configurationValue editorConfiguration)
      = .ok editorNode := by
  have hkeys : editorKeys.mapM KeyStore.decodeEntry
      = .ok [((sampleKey 1).verifyingKey, some "editor"),
          ((sampleKey 2).verifyingKey, some "editor")] := by
    simp only [editorKeys, List.mapM_cons, List.mapM_nil, KeyStore.decodeEntry_written base64Law]
    rfl
  have hblack : revokedDeltas.mapM DeltaId.fromStr
      = .ok [sampleDelta 2, sampleDelta 3] := by
    simp only [revokedDeltas, List.mapM_cons, List.mapM_nil, fromKeyLaw (sampleDelta 2),
      fromKeyLaw (sampleDelta 3)]
    rfl
  have hrules : List.Forall₂ PolicyRuleDef.Compiles editorRules editorNode.policy.rules :=
    .cons ⟨⟨_, rfl, rfl⟩, rfl, rfl, rfl, rfl⟩ (.cons ⟨⟨_, rfl, rfl⟩, rfl, rfl, rfl, rfl⟩ .nil)
  refine (TrustAdapter.fromJson_eq_ok_iff (fromValue_configurationValue editorConfiguration)).mpr
    ⟨?_, ?_, ?_, rfl, rfl⟩
  · exact (KeyStore.fromJson_eq_ok_iff (fromValue_keyStoreValue editorKeys)).mpr
      ⟨_, hkeys, rfl⟩
  · exact (DeltaFilter.fromJson_eq_ok_iff (fromValue_deltaFilterValue [] revokedDeltas)).mpr
      ⟨[], _, rfl, hblack, rfl⟩
  · exact (PolicyEngine.fromJson_eq_ok_iff (fromValue_policyEngineValue editorRules)).mpr
      ⟨_, hrules, rfl⟩

theorem readObject_editorNode :
    editorNode.readObject (sampleDelta 1).key 0 0 = .ok sampleData := by
  have hsigned : ∀ call ∈ [(sampleKey 1, sampleDelta 1), (sampleKey 2, sampleDelta 1)],
      IsLowerHex call.2.digest := by
    intro call hcall
    rcases List.mem_pair.mp hcall with rfl | rfl <;> exact isLowerHex_sampleDelta 1
  have hobject : MapAdapter.objects editedStore (sampleDelta 1).key = some sampleData := by
    rw [editedStore, repository, objects_storeOf]
    exact List.lookup_cons_self
  have hids : extractCreatedAndModifiedObjectIds sampleData = ["x"] := by decide +kernel
  refine (TrustAdapter.readObject_of_fromStr (endsWith_key _) (fromKeyLaw _)).mpr
    ⟨MapAdapter.readObject_some hobject, ?_⟩
  refine (endorsedExactly_repository (by decide) hsigned).admits_of_all_signed deltaIdLaws digitLaw
    signatureLaw base64Law serdeSliceLaw rfl (by decide) (by decide) fun vk hvk => ?_
  have hvk' : vk = (sampleKey 2).verifyingKey ∨ vk = (sampleKey 1).verifyingKey := by
    simpa [editorNode, KeyStore.trust, KeyStore.new] using hvk
  have hallows : ∀ vk ∈ editorNode.keystore.trustedKeys,
      editorNode.policy.allows editorNode.keystore vk.toBytes "x" = true := by decide +kernel
  refine ⟨?_, fun id hid => ?_⟩
  · rcases hvk' with rfl | rfl
    · exact ⟨sampleKey 2, by simp, rfl⟩
    · exact ⟨sampleKey 1, by simp, rfl⟩
  · rw [hids, List.mem_singleton] at hid
    rw [hid]
    exact hallows vk hvk

/-- The node with the reversed configuration over the echoing store reads the
delta as well. -/
theorem readObject_reordered_sample :
    ∃ t : TrustAdapter EchoAdapter,
      TrustAdapter.fromJson ⟨editedStore⟩ (configurationValue reversedConfiguration) = .ok t ∧
        t.readObject (sampleDelta 1).key 0 0 = .ok sampleData := by
  obtain ⟨t, ht, hread⟩ := TrustAdapter.readObject_reordered (sameContent_echo editedStore)
    (fromValue_configurationValue editorConfiguration)
    (fromValue_configurationValue reversedConfiguration) reordered_reversedConfiguration
    fromJson_editorConfiguration
  exact ⟨t, ht, (hread _ _).mp readObject_editorNode⟩

end

end MeldaSec
