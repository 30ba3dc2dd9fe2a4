import MeldaSec.Reference.Configuration

/-!
# Saving and loading a configuration

`Built` is a trust adapter whose configuration was put together by the public
methods, in any order, and whether they succeeded or not.  Three invariants
hold for every such configuration: there are roles for trusted keys only, the
lists of the filter have keys of deltas, and every matcher was compiled from
the pattern beside it.  They are what the serialized form leaves out, so with
them a saved configuration can be loaded again, and decides every read as
before (`reload`).
-/

namespace MeldaSec

open Rust

section

variable [Crates]

/-! ## The key store -/

namespace KeyStore

/-- One call of a method that changes a key store, with what it leaves behind. -/
inductive Change (ks : KeyStore) : KeyStore → Prop where
  | addTrustedPublicKey (bytes : Bytes) : Change ks (ks.addTrustedPublicKey bytes).2
  | addTrustedPublicKeyWithRole (bytes : Bytes) (role : String) :
    Change ks (ks.addTrustedPublicKeyWithRole bytes role).2
  | setEndorsementCredentials (privateKey : Bytes) (publicKey : Option Bytes) :
    Change ks (ks.setEndorsementCredentials privateKey publicKey).2
  | setEndorsementCredentialsWithRole (privateKey publicKey : Bytes) (role : String) :
    Change ks (ks.setEndorsementCredentialsWithRole privateKey publicKey role).2

/-- A key store that was put together by its methods. -/
inductive Built [SerdeValue KeyStoreConfig] : KeyStore → Prop where
  | new : Built new
  | fromJson {json : Value} {ks : KeyStore} : KeyStore.fromJson json = .ok ks → Built ks
  | change {ks ks' : KeyStore} : Built ks → ks.Change ks' → Built ks'

/-- There are roles for trusted keys only. -/
def RolesTrusted (ks : KeyStore) : Prop :=
  ∀ pubkey role, ks.getRole pubkey = some role → ∃ vk ∈ ks.trustedKeys, vk.toBytes = pubkey

/-- The second key store trusts some more keys, and may have another signing
key. -/
def Trusts (ks ks' : KeyStore) : Prop :=
  ∃ (entries : List (VerifyingKey × Option String)) (sk : Option SigningKey),
    ks' = { entries.foldl trust ks with endorsementKey := sk }

theorem Trusts.refl (ks : KeyStore) : ks.Trusts ks := ⟨[], ks.endorsementKey, rfl⟩

/-- How a call can end: with an error that changes nothing, or with some more
trusted keys. -/
inductive Settled (ks : KeyStore) : Result Unit × KeyStore → Prop where
  | rejected (e : Error) : Settled ks (.err e, ks)
  | accepted {ks' : KeyStore} : ks.Trusts ks' → Settled ks (.ok (), ks')

theorem Settled.trusts {ks : KeyStore} {call : Result Unit × KeyStore} (h : ks.Settled call) :
    ks.Trusts call.2 := by
  cases h with
  | rejected e => exact Trusts.refl ks
  | accepted h => exact h

theorem settled_addTrustedPublicKey (ks : KeyStore) (bytes : Bytes) :
    ks.Settled (ks.addTrustedPublicKey bytes) := by
  unfold addTrustedPublicKey
  cases tryInto 32 bytes with
  | none => exact .rejected _
  | some array =>
    simp only
    cases VerifyingKey.fromBytes array with
    | none => exact .rejected _
    | some vk => exact .accepted ⟨[(vk, none)], ks.endorsementKey, rfl⟩

theorem settled_addTrustedPublicKeyWithRole (ks : KeyStore) (bytes : Bytes) (role : String) :
    ks.Settled (ks.addTrustedPublicKeyWithRole bytes role) := by
  unfold addTrustedPublicKeyWithRole
  cases tryInto 32 bytes with
  | none => exact .rejected _
  | some array =>
    simp only
    cases VerifyingKey.fromBytes array with
    | none => exact .rejected _
    | some vk => exact .accepted ⟨[(vk, some role)], ks.endorsementKey, rfl⟩

theorem settled_setEndorsementCredentials (ks : KeyStore) (privateKey : Bytes)
    (publicKey : Option Bytes) :
    ks.Settled (ks.setEndorsementCredentials privateKey publicKey) := by
  cases publicKey with
  | none =>
    unfold setEndorsementCredentials
    cases tryInto 32 privateKey with
    | none => exact .rejected _
    | some sk => exact .accepted ⟨[], some sk, rfl⟩
  | some pubkey =>
    rcases ks.setEndorsementCredentials_cases privateKey pubkey with ⟨e, herr⟩ | ⟨sk, -, -, hok⟩
    · rw [herr]
      exact .rejected e
    · rw [hok]
      exact .accepted ⟨[(sk.verifyingKey, none)], some sk, rfl⟩

/-- The second half of this call gets the public key of the first half, so it
does not fail behind a first half that succeeded. -/
theorem settled_setEndorsementCredentialsWithRole (ks : KeyStore) (privateKey publicKey : Bytes)
    (role : String) :
    ks.Settled (ks.setEndorsementCredentialsWithRole privateKey publicKey role) := by
  unfold setEndorsementCredentialsWithRole
  rcases ks.setEndorsementCredentials_cases privateKey publicKey with
    ⟨e, herr⟩ | ⟨sk, -, hpub, hok⟩
  · rw [herr]
    exact .rejected e
  · rw [hok, Outcome.ok_andThen, hpub, addTrustedPublicKeyWithRole_toBytes]
    exact .accepted ⟨[(sk.verifyingKey, none), (sk.verifyingKey, some role)], some sk, rfl⟩

/-- A call trusts no, one or two keys. -/
theorem Change.trusts {ks ks' : KeyStore} (h : ks.Change ks') : ks.Trusts ks' := by
  cases h with
  | addTrustedPublicKey bytes => exact (ks.settled_addTrustedPublicKey bytes).trusts
  | addTrustedPublicKeyWithRole bytes role =>
    exact (ks.settled_addTrustedPublicKeyWithRole bytes role).trusts
  | setEndorsementCredentials privateKey publicKey =>
    exact (ks.settled_setEndorsementCredentials privateKey publicKey).trusts
  | setEndorsementCredentialsWithRole privateKey publicKey role =>
    exact (ks.settled_setEndorsementCredentialsWithRole privateKey publicKey role).trusts

/-- A loaded key store has trusted its entries. -/
theorem trusts_of_fromJson [SerdeValue KeyStoreConfig] {json : Value} {ks : KeyStore}
    (h : fromJson json = .ok ks) : new.Trusts ks := by
  obtain ⟨config, hconfig, -⟩ := Outcome.bind_eq_ok_iff.mp h
  obtain ⟨entries, -, rfl⟩ :=
    (fromJson_eq_ok_iff (Outcome.ofExcept_eq_ok_iff.mp hconfig)).mp h
  exact ⟨entries, _, rfl⟩

/-- A key that gets a role becomes trusted. -/
theorem RolesTrusted.trust {ks : KeyStore} (h : ks.RolesTrusted)
    (entry : VerifyingKey × Option String) : (ks.trust entry).RolesTrusted := by
  obtain ⟨vk, role⟩ := entry
  intro pubkey role' hrole
  rw [getRole_trust] at hrole
  split_ifs at hrole with hpk
  · exact ⟨vk, Finset.mem_insert_self _ _, hpk.symm⟩
  · obtain ⟨vk', htrusted, hvk'⟩ := h pubkey role' hrole
    exact ⟨vk', Finset.mem_insert_of_mem htrusted, hvk'⟩

theorem RolesTrusted.foldl {ks : KeyStore} (h : ks.RolesTrusted)
    (entries : List (VerifyingKey × Option String)) :
    (entries.foldl KeyStore.trust ks).RolesTrusted := by
  induction entries generalizing ks with
  | nil => exact h
  | cons entry entries ih => exact ih (h.trust entry)

theorem RolesTrusted.trusts {ks ks' : KeyStore} (h : ks.RolesTrusted) (htrusts : ks.Trusts ks') :
    ks'.RolesTrusted := by
  obtain ⟨entries, sk, rfl⟩ := htrusts
  exact h.foldl entries

theorem rolesTrusted_new : new.RolesTrusted := fun _ _ hrole => by
  cases hrole

/-- However a key store was put together, it has roles for trusted keys only. -/
theorem Built.rolesTrusted [SerdeValue KeyStoreConfig] {ks : KeyStore} (h : ks.Built) :
    ks.RolesTrusted := by
  induction h with
  | new => exact rolesTrusted_new
  | fromJson hload => exact rolesTrusted_new.trusts (trusts_of_fromJson hload)
  | change _ hchange ih => exact ih.trusts hchange.trusts

/-- Trusting keys with the roles that they have in `source` gives each of them
its role there. -/
theorem getRole_foldl_of_source {source ks : KeyStore}
    (h : ∀ pubkey role, ks.getRole pubkey = some role → source.getRole pubkey = some role)
    (keys : List VerifyingKey) (pubkey : Bytes) :
    ((keys.map fun vk => (vk, source.getRole vk.toBytes)).foldl trust ks).getRole pubkey
      = if ∃ vk ∈ keys, vk.toBytes = pubkey then source.getRole pubkey else ks.getRole pubkey := by
  induction keys generalizing ks with
  | nil => simp
  | cons vk keys ih =>
    have hrole : ∀ pubkey, (ks.trust (vk, source.getRole vk.toBytes)).getRole pubkey
        = if pubkey = vk.toBytes then source.getRole pubkey else ks.getRole pubkey := by
      intro pubkey
      rw [getRole_trust]
      split_ifs with hpk
      · rw [← hpk]
        cases hsource : source.getRole pubkey with
        | some role => rfl
        | none =>
          cases hks : ks.getRole pubkey with
          | none => rfl
          | some role => simp [h pubkey role hks] at hsource
      · rfl
    rw [List.map_cons, List.foldl_cons, ih, hrole]
    · by_cases hpk : pubkey = vk.toBytes
      · simp [hpk]
      · have hne : vk.toBytes ≠ pubkey := Ne.symm hpk
        simp only [List.exists_mem_cons_iff, hpk, hne, if_false, false_or]
    · intro pubkey role hsome
      rw [hrole] at hsome
      split_ifs at hsome with hpk
      · exact hsome
      · exact h pubkey role hsome

/-- A key store with roles for trusted keys only is saved and loaded without a
loss, but for its signing key. -/
theorem fromJson_toJson [SerdeValue KeyStoreConfig] (hbase64 : Base64Law)
    (hserde : SerdeValueLaw KeyStoreConfig) {ks : KeyStore} (h : ks.RolesTrusted)
    (iter : HashIter VerifyingKey) :
    ∃ json ks', ks.toJson iter = .ok json ∧ fromJson json = .ok ks' ∧
      ks'.trustedKeys = ks.trustedKeys ∧ ks'.roles = ks.roles := by
  obtain ⟨json, hjson, hconfig⟩ := hserde
    ⟨(iter.items ks.trustedKeys).map fun vk =>
      ⟨Crates.base64Encode vk.toBytes, ks.getRole vk.toBytes⟩⟩
  have hentries : ((iter.items ks.trustedKeys).map fun vk =>
        (⟨Crates.base64Encode vk.toBytes, ks.getRole vk.toBytes⟩ : KeyEntry)).mapM decodeEntry
      = .ok ((iter.items ks.trustedKeys).map fun vk => (vk, ks.getRole vk.toBytes)) := by
    rw [Outcome.mapM_eq_ok_iff, List.forall₂_map_left_iff, List.forall₂_map_right_iff,
      List.forall₂_same]
    exact fun vk _ => decodeEntry_written hbase64 vk _
  refine ⟨json, _, by rw [toJson, hjson, Outcome.ofExcept_ok],
    (fromJson_eq_ok_iff hconfig).mpr ⟨_, hentries, rfl⟩, ?_, ?_⟩
  · ext vk
    simp only [mem_trustedKeys_foldl, List.mem_map, iter.mem_items, new, Finset.notMem_empty,
      false_or, exists_exists_and_eq_and, exists_eq_right]
  · refine Finmap.ext_lookup fun pubkey => ?_
    have hnew : ∀ pubkey role, new.getRole pubkey = some role → ks.getRole pubkey = some role :=
      fun _ _ hrole => by cases hrole
    refine (getRole_foldl_of_source hnew (iter.items ks.trustedKeys) pubkey).trans ?_
    split_ifs with htrusted
    · rfl
    · cases hks : ks.getRole pubkey with
      | none => exact hks.symm
      | some role =>
        obtain ⟨vk, hvk, hpk⟩ := h pubkey role hks
        exact absurd ⟨vk, iter.mem_items.mpr hvk, hpk⟩ htrusted

end KeyStore

/-! ## The delta filter -/

namespace DeltaFilter

/-- One call of a method that changes a filter. -/
inductive Change (df : DeltaFilter) : DeltaFilter → Prop where
  | addToWhitelist (deltaId : DeltaId) : Change df (df.addToWhitelist deltaId).2
  | addToBlacklist (deltaId : DeltaId) : Change df (df.addToBlacklist deltaId).2

/-- A filter that was put together by its methods. -/
inductive Built [SerdeValue DeltaFilterConfig] : DeltaFilter → Prop where
  | new : Built new
  | fromJson {json : Value} {df : DeltaFilter} : DeltaFilter.fromJson json = .ok df → Built df
  | change {df df' : DeltaFilter} : Built df → df.Change df' → Built df'

/-- The key is on one of the two lists. -/
def Listed (df : DeltaFilter) (key : String) : Prop := key ∈ df.whitelist ∨ key ∈ df.blacklist

/-- The lists have keys of deltas only. -/
def HasKeys (df : DeltaFilter) : Prop :=
  ∀ key, df.Listed key → ∃ deltaId : DeltaId, deltaId.key = key

/-- Every listed key is read as some delta. -/
def Loads (df : DeltaFilter) : Prop :=
  ∀ key, df.Listed key → ∃ deltaId, DeltaId.fromStr key = .ok deltaId

/-- Every listed key is read as the delta that it is the key of. -/
def ReadsBack (df : DeltaFilter) : Prop :=
  ∀ key, df.Listed key → ∃ deltaId, DeltaId.fromStr key = .ok deltaId ∧ deltaId.key = key

theorem ReadsBack.loads {df : DeltaFilter} (h : df.ReadsBack) : df.Loads := fun key hkey => by
  obtain ⟨deltaId, hid, -⟩ := h key hkey
  exact ⟨deltaId, hid⟩

theorem HasKeys.readsBack (hkeys : FromKeyLaw) {df : DeltaFilter} (h : df.HasKeys) :
    df.ReadsBack := fun key hkey => by
  obtain ⟨deltaId, rfl⟩ := h key hkey
  exact ⟨deltaId, hkeys deltaId, rfl⟩

theorem readsBack_new : new.ReadsBack := fun key hkey => by
  simp [Listed, new] at hkey

theorem listed_addToWhitelist {df : DeltaFilter} {deltaId : DeltaId} {key : String} :
    (df.addToWhitelist deltaId).2.Listed key ↔ key = deltaId.key ∨ df.Listed key := by
  simp only [Listed, addToWhitelist, Finset.mem_insert, or_assoc]

theorem listed_addToBlacklist {df : DeltaFilter} {deltaId : DeltaId} {key : String} :
    (df.addToBlacklist deltaId).2.Listed key ↔ key = deltaId.key ∨ df.Listed key := by
  simp only [Listed, addToBlacklist, Finset.mem_insert, or_left_comm]

/-- A call lists one more key. -/
theorem Change.exists_listed {df df' : DeltaFilter} (h : df.Change df') :
    ∃ deltaId : DeltaId, ∀ key, df'.Listed key ↔ key = deltaId.key ∨ df.Listed key := by
  cases h with
  | addToWhitelist deltaId => exact ⟨deltaId, fun _ => listed_addToWhitelist⟩
  | addToBlacklist deltaId => exact ⟨deltaId, fun _ => listed_addToBlacklist⟩

/-- However a filter was put together, its lists have keys of deltas only. -/
theorem Built.hasKeys [SerdeValue DeltaFilterConfig] {df : DeltaFilter} (h : df.Built) :
    df.HasKeys := by
  induction h with
  | new =>
    intro key hkey
    simp [Listed, DeltaFilter.new] at hkey
  | fromJson hload =>
    obtain ⟨config, hconfig, -⟩ := Outcome.bind_eq_ok_iff.mp hload
    obtain ⟨white, black, -, -, rfl⟩ :=
      (fromJson_eq_ok_iff (Outcome.ofExcept_eq_ok_iff.mp hconfig)).mp hload
    intro key hkey
    rcases hkey with hkey | hkey
    · obtain ⟨deltaId, -, hdelta⟩ := mem_keySet.mp hkey
      exact ⟨deltaId, hdelta⟩
    · obtain ⟨deltaId, -, hdelta⟩ := mem_keySet.mp hkey
      exact ⟨deltaId, hdelta⟩
  | change _ hchange ih =>
    obtain ⟨deltaId, hlisted⟩ := hchange.exists_listed
    intro key hkey
    rcases (hlisted key).mp hkey with rfl | hkey
    · exact ⟨deltaId, rfl⟩
    · exact ih key hkey

/-- A list of keys that read back is parsed again, and has the same keys then. -/
theorem exists_mapM_fromStr {keys : Finset String}
    (h : ∀ key ∈ keys, ∃ deltaId, DeltaId.fromStr key = .ok deltaId ∧ deltaId.key = key)
    (iter : HashIter String) :
    ∃ deltaIds, (iter.items keys).mapM DeltaId.fromStr = .ok deltaIds ∧ keySet deltaIds = keys := by
  obtain ⟨deltaIds, hdeltaIds⟩ := Outcome.exists_mapM_eq_ok_iff.mpr fun key hkey => by
    obtain ⟨deltaId, hid, -⟩ := h key (iter.mem_items.mp hkey)
    exact ⟨deltaId, hid⟩
  refine ⟨deltaIds, hdeltaIds, ?_⟩
  ext key
  simp only [mem_keySet, Outcome.mem_of_mapM_eq_ok hdeltaIds, iter.mem_items]
  constructor
  · rintro ⟨deltaId, ⟨key', hkey', hdeltaId⟩, rfl⟩
    obtain ⟨deltaId', hid, rfl⟩ := h key' hkey'
    obtain rfl := Outcome.ok.inj (hid.symm.trans hdeltaId)
    exact hkey'
  · intro hkey
    obtain ⟨deltaId, hid, hkeyOf⟩ := h key hkey
    exact ⟨deltaId, ⟨key, hkey, hid⟩, hkeyOf⟩

/-- A filter is loaded when each entry of its two lists is read as a delta. -/
theorem exists_fromJson_iff [SerdeValue DeltaFilterConfig] {json : Value}
    {config : DeltaFilterConfig} (h : SerdeValue.fromValue json = .ok config) :
    (∃ df, fromJson json = .ok df) ↔
      ∀ entry, entry ∈ config.whitelist ∨ entry ∈ config.blacklist →
        ∃ deltaId, DeltaId.fromStr entry = .ok deltaId := by
  simp only [fromJson_eq_ok_iff h, or_imp, forall_and, ← Outcome.exists_mapM_eq_ok_iff]
  constructor
  · rintro ⟨_, white, black, hwhite, hblack, rfl⟩
    exact ⟨⟨white, hwhite⟩, black, hblack⟩
  · intro ⟨⟨white, hwhite⟩, black, hblack⟩
    exact ⟨_, white, black, hwhite, hblack, rfl⟩

/-- A saved filter is loaded when its keys are read as deltas, and without a
loss when they read back. -/
theorem fromJson_toJson [SerdeValue DeltaFilterConfig] (hserde : SerdeValueLaw DeltaFilterConfig)
    (df : DeltaFilter) (white black : HashIter String) :
    ∃ json, df.toJson white black = .ok json ∧ ((∃ df', fromJson json = .ok df') ↔ df.Loads) ∧
      (df.ReadsBack → fromJson json = .ok df) := by
  obtain ⟨json, hjson, hconfig⟩ := hserde ⟨white.items df.whitelist, black.items df.blacklist⟩
  refine ⟨json, by rw [toJson, hjson, Outcome.ofExcept_ok], ?_, fun hreads => ?_⟩
  · simp only [exists_fromJson_iff hconfig, HashIter.mem_items, Loads, Listed]
  · obtain ⟨whiteIds, hwhite, hwhiteSet⟩ :=
      exists_mapM_fromStr (fun key hkey => hreads key (Or.inl hkey)) white
    obtain ⟨blackIds, hblack, hblackSet⟩ :=
      exists_mapM_fromStr (fun key hkey => hreads key (Or.inr hkey)) black
    exact (fromJson_eq_ok_iff hconfig).mpr
      ⟨whiteIds, blackIds, hwhite, hblack, by rw [hwhiteSet, hblackSet]⟩

end DeltaFilter

/-! ## The policy -/

/-- The matcher of the rule was compiled from the pattern of the rule. -/
def Rule.Compiled (rule : Rule) : Prop :=
  ∃ glob, Crates.globNew rule.pattern = .ok glob ∧ Crates.globSetBuild [glob] = .ok rule.matcher

theorem PolicyRuleDef.Compiles.compiled {entry : PolicyRuleDef} {rule : Rule}
    (h : entry.Compiles rule) : rule.Compiled := by
  rw [Rule.Compiled, h.pattern]
  exact h.matcher

namespace PolicyEngine

variable [SerdeYaml PolicyFile] [SerdeValue PolicyEngineConfig]

/-- One call of a method that changes an engine, with what it leaves behind. -/
inductive Change (engine : PolicyEngine) : PolicyEngine → Prop where
  | addRule (pubkey : Option Bytes) (role : Option String) (pattern : String)
    (effect : RuleEffect) : Change engine (engine.addRule pubkey role pattern effect).2
  | parseYaml (yaml : String) : Change engine (engine.parseYaml yaml).2
  | setStrictWrite (enabled : Bool) : Change engine (engine.setStrictWrite enabled)

/-- An engine that was put together by its methods. -/
inductive Built : PolicyEngine → Prop where
  | new : Built new
  | fromYaml {yaml : String} {engine : PolicyEngine} :
    PolicyEngine.fromYaml yaml = .ok engine → Built engine
  | fromJson {json : Value} {engine : PolicyEngine} :
    PolicyEngine.fromJson json = .ok engine → Built engine
  | change {engine engine' : PolicyEngine} : Built engine → engine.Change engine' → Built engine'

omit [SerdeYaml PolicyFile] [SerdeValue PolicyEngineConfig] in
theorem compiled_of_forall₂ {entries : List PolicyRuleDef} {rules : List Rule}
    (h : List.Forall₂ PolicyRuleDef.Compiles entries rules) : ∀ rule ∈ rules, rule.Compiled := by
  induction h with
  | nil => simp
  | cons hrule _ ih => exact List.forall_mem_cons.mpr ⟨hrule.compiled, ih⟩

omit [SerdeValue PolicyEngineConfig] in
/-- A call adds some compiled rules behind the others. -/
theorem Change.exists_rules {engine engine' : PolicyEngine} (h : engine.Change engine') :
    ∃ rules : List Rule, (∀ rule ∈ rules, rule.Compiled) ∧
      engine'.rules = engine.rules ++ rules := by
  cases h with
  | addRule pubkey role pattern effect =>
    rcases engine.addRule_cases pubkey role pattern effect with
      ⟨e, herr⟩ | ⟨glob, matcher, hglob, hmatcher, hpush⟩
    · exact ⟨[], by simp, by rw [herr, List.append_nil]⟩
    · let rule : Rule := ⟨pubkey, role, matcher, pattern, effect⟩
      have hrule : rule.Compiled := ⟨glob, hglob, hmatcher⟩
      exact ⟨[rule], List.forall_mem_singleton.mpr hrule, by rw [hpush, push]⟩
  | parseYaml yaml =>
    cases hfile : SerdeYaml.fromStr (T := PolicyFile) yaml with
    | error e => exact ⟨[], by simp, by rw [PolicyEngine.parseYaml, hfile, List.append_nil]⟩
    | ok file =>
      rw [parseYaml_of_file hfile, forEach_addRawRule_eq]
      refine ⟨_, fun rule hrule => ?_, rfl⟩
      obtain ⟨d, -, hd⟩ := Outcome.exists_of_mem_decided hrule
      exact (compileRuleDef_eq_ok_iff.mp hd).compiled
  | setStrictWrite enabled => exact ⟨[], by simp, (List.append_nil _).symm⟩

/-- However an engine was put together, its matchers were compiled from its
patterns. -/
theorem Built.compiled {engine : PolicyEngine} (h : engine.Built) :
    ∀ rule ∈ engine.rules, rule.Compiled := by
  induction h with
  | new => simp [PolicyEngine.new]
  | fromYaml hload =>
    obtain ⟨file, hfile, -⟩ := Outcome.bind_eq_ok_iff.mp hload
    obtain ⟨rules, hrules, rfl⟩ :=
      (fromYaml_eq_ok_iff (Outcome.ofExcept_eq_ok_iff.mp hfile)).mp hload
    exact compiled_of_forall₂ hrules
  | fromJson hload =>
    obtain ⟨config, hconfig, -⟩ := Outcome.bind_eq_ok_iff.mp hload
    obtain ⟨rules, hrules, rfl⟩ :=
      (fromJson_eq_ok_iff (Outcome.ofExcept_eq_ok_iff.mp hconfig)).mp hload
    exact compiled_of_forall₂ hrules
  | change _ hchange ih =>
    obtain ⟨rules, hrules, happend⟩ := hchange.exists_rules
    rw [happend]
    exact List.forall_mem_append.mpr ⟨ih, hrules⟩

omit [SerdeYaml PolicyFile] in
/-- An engine with compiled rules is saved and loaded with the same rules. -/
theorem fromJson_toJson (hbase64 : Base64Law) (hserde : SerdeValueLaw PolicyEngineConfig)
    {engine : PolicyEngine} (h : ∀ rule ∈ engine.rules, rule.Compiled) :
    ∃ json, engine.toJson = .ok json ∧ fromJson json = .ok ⟨engine.rules, true⟩ := by
  obtain ⟨json, hjson, hconfig⟩ := hserde ⟨engine.rules.map fun rule =>
    ⟨rule.effect, rule.pubkey.map Crates.base64Encode, rule.role, rule.pattern⟩⟩
  refine ⟨json, by rw [toJson, hjson, Outcome.ofExcept_ok],
    (fromJson_eq_ok_iff hconfig).mpr ⟨engine.rules, ?_, rfl⟩⟩
  rw [List.forall₂_map_left_iff, List.forall₂_same]
  intro rule hrule
  refine ⟨h rule hrule, ?_, rfl, rfl, rfl⟩
  cases hpubkey : rule.pubkey with
  | none => simp [decodeKey]
  | some bytes => simp [decodeKey, hbase64 bytes]

end PolicyEngine

/-! ## The trust adapter -/

namespace TrustAdapter

variable [SerdeYaml PolicyFile] [SerdeValue TrustConfiguration] [SerdeValue KeyStoreConfig]
  [SerdeValue DeltaFilterConfig] [SerdeValue PolicyEngineConfig] {A : Type}

/-- An adapter whose configuration was put together by the public methods.
The last three constructors are calls through the `get_*_mut` methods. -/
inductive Built : TrustAdapter A → Prop where
  | newSingleFull {inner : A} {ks : KeyStore} {df : DeltaFilter} {policy : PolicyEngine} :
    ks.Built → df.Built → policy.Built → Built (newSingleFull inner ks df policy)
  | newMajorityFull {inner : A} {ks : KeyStore} {df : DeltaFilter} {policy : PolicyEngine} :
    ks.Built → df.Built → policy.Built → Built (newMajorityFull inner ks df policy)
  | newPermissiveFull {inner : A} {ks : KeyStore} {df : DeltaFilter} {policy : PolicyEngine} :
    ks.Built → df.Built → policy.Built → Built (newPermissiveFull inner ks df policy)
  | newUnanimousFull {inner : A} {ks : KeyStore} {df : DeltaFilter} {policy : PolicyEngine} :
    ks.Built → df.Built → policy.Built → Built (newUnanimousFull inner ks df policy)
  | newSingle (inner : A) : Built (newSingle inner)
  | newMajority (inner : A) : Built (newMajority inner)
  | newPermissive (inner : A) : Built (newPermissive inner)
  | newUnanimous (inner : A) : Built (newUnanimous inner)
  | fromJson {inner : A} {json : Value} {t : TrustAdapter A} :
    fromJson inner json = .ok t → Built t
  | setEndorsementMode {t : TrustAdapter A} (mode : EndorsementMode) :
    Built t → Built (t.setEndorsementMode mode)
  | setKeystore {t : TrustAdapter A} {ks : KeyStore} : Built t → ks.Built → Built (t.setKeystore ks)
  | setPolicy {t : TrustAdapter A} {policy : PolicyEngine} :
    Built t → policy.Built → Built (t.setPolicy policy)
  | addDeltaToWhitelist {t : TrustAdapter A} (deltaId : DeltaId) :
    Built t → Built (t.addDeltaToWhitelist deltaId).2
  | addDeltaToBlacklist {t : TrustAdapter A} (deltaId : DeltaId) :
    Built t → Built (t.addDeltaToBlacklist deltaId).2
  | getKeystoreMut {t : TrustAdapter A} {ks : KeyStore} :
    Built t → t.keystore.Change ks → Built (t.setKeystore ks)
  | getDeltaFilterMut {t : TrustAdapter A} {df : DeltaFilter} :
    Built t → t.deltaFilter.Change df → Built (t.setDeltaFilter df)
  | getPolicyMut {t : TrustAdapter A} {policy : PolicyEngine} :
    Built t → t.policy.Change policy → Built (t.setPolicy policy)

/-- The parts of an adapter were put together by their own methods. -/
structure PartsBuilt (t : TrustAdapter A) : Prop where
  keystore : t.keystore.Built
  deltaFilter : t.deltaFilter.Built
  policy : t.policy.Built

theorem Built.parts {t : TrustAdapter A} (h : t.Built) : t.PartsBuilt := by
  induction h with
  | newSingleFull hks hdf hpolicy => exact ⟨hks, hdf, hpolicy⟩
  | newMajorityFull hks hdf hpolicy => exact ⟨hks, hdf, hpolicy⟩
  | newPermissiveFull hks hdf hpolicy => exact ⟨hks, hdf, hpolicy⟩
  | newUnanimousFull hks hdf hpolicy => exact ⟨hks, hdf, hpolicy⟩
  | newSingle inner => exact ⟨.new, .new, .new⟩
  | newMajority inner => exact ⟨.new, .new, .new⟩
  | newPermissive inner => exact ⟨.new, .new, .new⟩
  | newUnanimous inner => exact ⟨.new, .new, .new⟩
  | fromJson hload =>
    obtain ⟨config, hconfig, -⟩ := Outcome.bind_eq_ok_iff.mp hload
    obtain ⟨hks, hdf, hpolicy, -, -⟩ :=
      (fromJson_eq_ok_iff (Outcome.ofExcept_eq_ok_iff.mp hconfig)).mp hload
    exact ⟨.fromJson hks, .fromJson hdf, .fromJson hpolicy⟩
  | setEndorsementMode mode _ ih => exact ⟨ih.keystore, ih.deltaFilter, ih.policy⟩
  | setKeystore _ hks ih => exact ⟨hks, ih.deltaFilter, ih.policy⟩
  | setPolicy _ hpolicy ih => exact ⟨ih.keystore, ih.deltaFilter, hpolicy⟩
  | addDeltaToWhitelist deltaId _ ih =>
    exact ⟨ih.keystore, ih.deltaFilter.change (.addToWhitelist deltaId), ih.policy⟩
  | addDeltaToBlacklist deltaId _ ih =>
    exact ⟨ih.keystore, ih.deltaFilter.change (.addToBlacklist deltaId), ih.policy⟩
  | getKeystoreMut _ hchange ih =>
    exact ⟨ih.keystore.change hchange, ih.deltaFilter, ih.policy⟩
  | getDeltaFilterMut _ hchange ih =>
    exact ⟨ih.keystore, ih.deltaFilter.change hchange, ih.policy⟩
  | getPolicyMut _ hchange ih => exact ⟨ih.keystore, ih.deltaFilter, ih.policy.change hchange⟩

section

variable (hbase64 : Base64Law) (hconfig : SerdeValueLaw TrustConfiguration)
  (hkeystore : SerdeValueLaw KeyStoreConfig) (hfilter : SerdeValueLaw DeltaFilterConfig)
  (hpolicy : SerdeValueLaw PolicyEngineConfig) {t : TrustAdapter A} (h : t.Built)
  (iter : HashIter VerifyingKey) (white black : HashIter String)
include hbase64 hconfig hkeystore hfilter hpolicy h

/-- A configuration can be saved, and it can be loaded over the same store when
the keys on its lists are read as deltas.  The loaded adapter has the same gate
but for its lists, and the same lists when their keys read back.  It checks
writes, and has no signing key, whatever the saved one did. -/
theorem exists_saved :
    ∃ json, t.toJson iter white black = .ok json ∧
      ((∃ t', TrustAdapter.fromJson t.inner json = .ok t') ↔ t.deltaFilter.Loads) ∧
      ∀ t', TrustAdapter.fromJson t.inner json = .ok t' →
        (t'.setDeltaFilter t.deltaFilter).SameGate t ∧ t'.policy.strictWrite = true ∧
          (t.deltaFilter.ReadsBack → t'.deltaFilter = t.deltaFilter) := by
  obtain ⟨ksJson, ks, hksJson, hks, htrusted, hroles⟩ :=
    KeyStore.fromJson_toJson hbase64 hkeystore h.parts.keystore.rolesTrusted iter
  obtain ⟨dfJson, hdfJson, hloads, hreads⟩ :=
    DeltaFilter.fromJson_toJson hfilter t.deltaFilter white black
  obtain ⟨policyJson, hpolicyJson, hengine⟩ :=
    PolicyEngine.fromJson_toJson hbase64 hpolicy h.parts.policy.compiled
  obtain ⟨json, hjson, hparse⟩ := hconfig ⟨t.endorsementMode, ksJson, dfJson, policyJson⟩
  refine ⟨json, ?_, ?_, fun t' hloaded => ?_⟩
  · simp only [toJson, hksJson, hdfJson, hpolicyJson, hjson, Outcome.ok_bind, Outcome.ofExcept_ok]
  · rw [← hloads]
    constructor
    · intro ⟨t', hloaded⟩
      exact ⟨t'.deltaFilter, ((fromJson_eq_ok_iff hparse).mp hloaded).2.1⟩
    · intro ⟨df, hdf⟩
      let t' : TrustAdapter A := ⟨t.inner, ks, df, ⟨t.policy.rules, true⟩, t.endorsementMode⟩
      exact ⟨t', (fromJson_eq_ok_iff hparse).mpr ⟨hks, hdf, hengine, rfl, rfl⟩⟩
  · obtain ⟨hks', hdf', hengine', hinner, hmode⟩ := (fromJson_eq_ok_iff hparse).mp hloaded
    obtain rfl := Outcome.ok.inj (hks.symm.trans hks')
    have hpolicy' := Outcome.ok.inj (hengine'.symm.trans hengine)
    have hrules : t'.policy.rules = t.policy.rules := by rw [hpolicy']
    refine ⟨⟨hinner, htrusted, hroles, rfl, hrules, hmode⟩, by rw [hpolicy'], fun hback => ?_⟩
    exact Outcome.ok.inj (hdf'.symm.trans (hreads hback))

/-- A saved configuration can be loaded over the same store, when the keys on
its lists read back. -/
theorem exists_reloaded (hlists : t.deltaFilter.ReadsBack) :
    ∃ json t', t.toJson iter white black = .ok json ∧
      TrustAdapter.fromJson t.inner json = .ok t' ∧ t'.SameGate t := by
  obtain ⟨json, hsaved, hloads, hsame⟩ :=
    exists_saved hbase64 hconfig hkeystore hfilter hpolicy h iter white black
  obtain ⟨t', hloaded⟩ := hloads.mpr hlists.loads
  obtain ⟨hgate, -, hfilterOf⟩ := hsame t' hloaded
  refine ⟨json, t', hsaved, hloaded, ?_⟩
  exact ⟨hgate.inner, hgate.trustedKeys, hgate.roles, hfilterOf hlists, hgate.rules,
    hgate.endorsementMode⟩

end

variable [Adapter A] [SerdeSlice EndorsementRecord]

/-- A saved configuration can be loaded over the same store, and the loaded
adapter reads and counts endorsements as the saved one. -/
theorem reload (hkeys : FromKeyLaw) (hbase64 : Base64Law)
    (hconfig : SerdeValueLaw TrustConfiguration) (hkeystore : SerdeValueLaw KeyStoreConfig)
    (hfilter : SerdeValueLaw DeltaFilterConfig) (hpolicy : SerdeValueLaw PolicyEngineConfig)
    {t : TrustAdapter A} (h : t.Built) (iter : HashIter VerifyingKey)
    (white black : HashIter String) :
    ∃ json t', t.toJson iter white black = .ok json ∧
      TrustAdapter.fromJson t.inner json = .ok t' ∧
      (∀ key offset length, t'.readObject key offset length = t.readObject key offset length) ∧
      ∀ deltaId, t'.fetchEndorsements deltaId = t.fetchEndorsements deltaId := by
  obtain ⟨json, t', hsaved, hloaded, hsame⟩ :=
    exists_reloaded hbase64 hconfig hkeystore hfilter hpolicy h iter white black
      (h.parts.deltaFilter.hasKeys.readsBack hkeys)
  exact ⟨json, t', hsaved, hloaded, hsame.readObject_eq, hsame.fetchEndorsements_eq⟩

end TrustAdapter

end

section

open Reference

/-- A key with a role, a revoked delta and a rule, each by a call of its own. -/
def sampleBuilt : TrustAdapter MemoryMap :=
  let t := TrustAdapter.newMajority sampleStore
  let t := t.setKeystore
    (t.keystore.addTrustedPublicKeyWithRole (sampleKey 1).verifyingKey.toBytes "editor").2
  let t := (t.addDeltaToBlacklist (sampleDelta 2)).2
  t.setPolicy (t.policy.addRule none (some "editor") "*" .allow).2

theorem built_sampleBuilt : sampleBuilt.Built :=
  .getPolicyMut (.addDeltaToBlacklist (sampleDelta 2)
    (.getKeystoreMut (.newMajority sampleStore) (.addTrustedPublicKeyWithRole _ "editor")))
    (.addRule none (some "editor") "*" .allow)

/-- The configuration is saved and loaded in the reference crates, and the
loaded adapter reads the same. -/
theorem reload_sample :
    ∃ json t', sampleBuilt.toJson (hashIter VerifyingKey) (hashIter String) (hashIter String)
        = .ok json ∧
      TrustAdapter.fromJson sampleStore json = .ok t' ∧
      ∀ key, t'.readObject key 0 0 = sampleBuilt.readObject key 0 0 := by
  obtain ⟨json, t', hsaved, hloaded, hread, -⟩ := TrustAdapter.reload fromKeyLaw base64Law
    serdeValueLaw_trustConfiguration serdeValueLaw_keyStoreConfig serdeValueLaw_deltaFilterConfig
    serdeValueLaw_policyEngineConfig built_sampleBuilt (hashIter VerifyingKey) (hashIter String)
    (hashIter String)
  exact ⟨json, t', hsaved, hloaded, fun key => hread key 0 0⟩

end

end MeldaSec
