import MeldaSec.Encryption
import MeldaSec.KeyStoreRuns

/-!
# Restarts

A node saves its configuration and is built again from it.  The signing key
and the switch for strict writes are not saved, and everything else is.
`restarts_invisible` says that this is no difference for its readers: a node
that restarts at any moments of its life, with its hash sets written in any
order, gives the same replies as a node that never does, while its
configuration and the shared store change under it.

The two nodes are related by `Twin`, and each event keeps that relation.  A
delta that is put on a list has to be read back from its key (`Listable`),
because a configuration with another key in it cannot be loaded.
-/

namespace MeldaSec

open Rust

section

variable [Crates]

/-! ## Calls on twins -/

namespace KeyStore

/-- Two key stores that differ in their signing keys at most. -/
structure SameKeys (ks ks' : KeyStore) : Prop where
  trustedKeys : ks.trustedKeys = ks'.trustedKeys
  roles : ks.roles = ks'.roles

/-- Two calls return the same and leave the same keys behind. -/
structure SameCall (x x' : Result Unit × KeyStore) : Prop where
  result : x.1 = x'.1
  keys : x.2.SameKeys x'.2

variable {ks ks' : KeyStore} (h : ks.SameKeys ks')
include h

theorem SameKeys.addTrustedPublicKey (bytes : Bytes) :
    SameCall (ks.addTrustedPublicKey bytes) (ks'.addTrustedPublicKey bytes) := by
  unfold KeyStore.addTrustedPublicKey
  cases tryInto 32 bytes with
  | none => exact ⟨rfl, h⟩
  | some array =>
    simp only
    cases VerifyingKey.fromBytes array with
    | none => exact ⟨rfl, h⟩
    | some vk => exact ⟨rfl, by rw [h.trustedKeys], h.roles⟩

theorem SameKeys.addTrustedPublicKeyWithRole (bytes : Bytes) (role : String) :
    SameCall (ks.addTrustedPublicKeyWithRole bytes role)
      (ks'.addTrustedPublicKeyWithRole bytes role) := by
  unfold KeyStore.addTrustedPublicKeyWithRole
  cases tryInto 32 bytes with
  | none => exact ⟨rfl, h⟩
  | some array =>
    simp only
    cases VerifyingKey.fromBytes array with
    | none => exact ⟨rfl, h⟩
    | some vk => exact ⟨rfl, by rw [h.trustedKeys], by rw [h.roles]⟩

/-- The old signing key is overwritten or ignored. -/
theorem SameKeys.setEndorsementCredentials (privateKey : Bytes) (publicKey : Option Bytes) :
    SameCall (ks.setEndorsementCredentials privateKey publicKey)
      (ks'.setEndorsementCredentials privateKey publicKey) := by
  unfold KeyStore.setEndorsementCredentials
  cases tryInto 32 privateKey with
  | none => exact ⟨rfl, h⟩
  | some sk =>
    cases publicKey with
    | none => exact ⟨rfl, h.trustedKeys, h.roles⟩
    | some pubkey =>
      simp only
      cases tryInto 32 pubkey with
      | none => exact ⟨rfl, h⟩
      | some expected =>
        simp only
        split_ifs with hmatch
        · exact ⟨rfl, h⟩
        · obtain ⟨hresult, hkeys⟩ := h.addTrustedPublicKey pubkey
          generalize ks.addTrustedPublicKey pubkey = x at hresult hkeys
          generalize ks'.addTrustedPublicKey pubkey = x' at hresult hkeys
          obtain ⟨result, ks⟩ := x
          obtain ⟨result', ks'⟩ := x'
          cases hresult
          cases result with
          | ok _ => exact ⟨rfl, hkeys.trustedKeys, hkeys.roles⟩
          | err e => exact ⟨rfl, hkeys⟩
          | panic => exact ⟨rfl, hkeys⟩

theorem SameKeys.run (call : Call) : SameCall (call.run ks) (call.run ks') := by
  cases call with
  | setEndorsementCredentials privateKey publicKey =>
    exact h.setEndorsementCredentials privateKey publicKey
  | setEndorsementCredentialsWithRole privateKey publicKey role =>
    have hcredentials := h.setEndorsementCredentials privateKey (some publicKey)
    obtain ⟨hresult, hkeys⟩ := hcredentials
    unfold Call.run KeyStore.setEndorsementCredentialsWithRole
    simp only
    generalize ks.setEndorsementCredentials privateKey (some publicKey) = x at hresult hkeys
    generalize ks'.setEndorsementCredentials privateKey (some publicKey) = x' at hresult hkeys
    obtain ⟨result, ks⟩ := x
    obtain ⟨result', ks'⟩ := x'
    cases hresult
    cases result with
    | ok _ => exact SameKeys.addTrustedPublicKeyWithRole hkeys publicKey role
    | err e => exact ⟨rfl, hkeys⟩
    | panic => exact ⟨rfl, hkeys⟩
  | addTrustedPublicKey bytes => exact h.addTrustedPublicKey bytes
  | addTrustedPublicKeyWithRole bytes role => exact h.addTrustedPublicKeyWithRole bytes role

omit h in
theorem Call.change (call : Call) (ks : KeyStore) : ks.Change (call.run ks).2 := by
  cases call with
  | setEndorsementCredentials privateKey publicKey =>
    exact .setEndorsementCredentials privateKey publicKey
  | setEndorsementCredentialsWithRole privateKey publicKey role =>
    exact .setEndorsementCredentialsWithRole privateKey publicKey role
  | addTrustedPublicKey bytes => exact .addTrustedPublicKey bytes
  | addTrustedPublicKeyWithRole bytes role => exact .addTrustedPublicKeyWithRole bytes role

end KeyStore

namespace PolicyEngine

/-- Two engines with the same rules add a rule alike. -/
theorem addRule_sameRules {engine engine' : PolicyEngine} (h : engine.rules = engine'.rules)
    (pubkey : Option Bytes) (role : Option String) (pattern : String) (effect : RuleEffect) :
    (engine.addRule pubkey role pattern effect).1
        = (engine'.addRule pubkey role pattern effect).1 ∧
      (engine.addRule pubkey role pattern effect).2.rules
        = (engine'.addRule pubkey role pattern effect).2.rules := by
  unfold addRule
  cases Crates.globNew pattern with
  | error e => exact ⟨rfl, h⟩
  | ok glob =>
    simp only
    cases Crates.globSetBuild [glob] with
    | error e => exact ⟨rfl, h⟩
    | ok matcher => exact ⟨rfl, by rw [h]⟩

/-- They read a document alike, also when its loading stops half way. -/
theorem parseYaml_sameRules [SerdeYaml PolicyFile] {engine engine' : PolicyEngine}
    (h : engine.rules = engine'.rules) (yaml : String) :
    (engine.parseYaml yaml).1 = (engine'.parseYaml yaml).1 ∧
      (engine.parseYaml yaml).2.rules = (engine'.parseYaml yaml).2.rules := by
  cases hfile : SerdeYaml.fromStr (T := PolicyFile) yaml with
  | error e =>
    unfold parseYaml
    rw [hfile]
    exact ⟨rfl, h⟩
  | ok file =>
    rw [parseYaml_of_file hfile, parseYaml_of_file hfile, forEach_addRawRule_eq,
      forEach_addRawRule_eq]
    exact ⟨rfl, by rw [h]⟩

end PolicyEngine

/-! ## The life of a node -/

/-- Something that happens to a node over a store of type `A`: a call of a
method that changes its configuration, a change of the store by others, a
read, or a restart with the orders in which the hash sets are written. -/
inductive Event (A : Type) where
  | setEndorsementMode (mode : EndorsementMode)
  | addDeltaToWhitelist (deltaId : DeltaId)
  | addDeltaToBlacklist (deltaId : DeltaId)
  | keystoreCall (call : KeyStore.Call)
  | addRule (pubkey : Option Bytes) (role : Option String) (pattern : String)
    (effect : RuleEffect)
  | parseYaml (yaml : String)
  | allowAll
  | strictWrite (enabled : Bool)
  | store (inner : A)
  | readObject (key : String) (offset length : UInt64)
  | fetchEndorsements (deltaId : DeltaId)
  | checkDelta (deltaId : DeltaId)
  | restart (iter : HashIter VerifyingKey) (white black : HashIter String)

/-- A delta that the event puts on a list is read back from its key. -/
def Event.Listable {A : Type} : Event A → Prop
  | .addDeltaToWhitelist deltaId => DeltaId.fromStr deltaId.key = .ok deltaId
  | .addDeltaToBlacklist deltaId => DeltaId.fromStr deltaId.key = .ok deltaId
  | _ => True

/-- One more listed delta that is read back. -/
theorem DeltaFilter.ReadsBack.insert {df df' : DeltaFilter} (h : df.ReadsBack) {deltaId : DeltaId}
    (hid : DeltaId.fromStr deltaId.key = .ok deltaId)
    (hlisted : ∀ key, df'.Listed key ↔ key = deltaId.key ∨ df.Listed key) : df'.ReadsBack := by
  intro key hkey
  rcases (hlisted key).mp hkey with rfl | hkey
  · exact ⟨deltaId, hid, rfl⟩
  · exact h key hkey

namespace TrustAdapter

variable [SerdeYaml PolicyFile] [SerdeValue TrustConfiguration] [SerdeValue KeyStoreConfig]
  [SerdeValue DeltaFilterConfig] [SerdeValue PolicyEngineConfig] {A : Type}

/-- `to_json` and then `from_json` over the same store. -/
def restart (t : TrustAdapter A) (iter : HashIter VerifyingKey) (white black : HashIter String) :
    Result (TrustAdapter A) := do
  let json ← t.toJson iter white black
  fromJson t.inner json

variable [Adapter A] [SerdeSlice EndorsementRecord]

/-- What a node replies, and what becomes of it.  A restart that fails leaves
the node as it is. -/
def handle (t : TrustAdapter A) : Event A → Reply × TrustAdapter A
  | .setEndorsementMode mode => (.unit (.ok ()), t.setEndorsementMode mode)
  | .addDeltaToWhitelist deltaId =>
    (.verdict (t.addDeltaToWhitelist deltaId).1, (t.addDeltaToWhitelist deltaId).2)
  | .addDeltaToBlacklist deltaId =>
    (.verdict (t.addDeltaToBlacklist deltaId).1, (t.addDeltaToBlacklist deltaId).2)
  | .keystoreCall call => (.unit (call.run t.keystore).1, t.setKeystore (call.run t.keystore).2)
  | .addRule pubkey role pattern effect =>
    (.unit (t.policy.addRule pubkey role pattern effect).1,
      t.setPolicy (t.policy.addRule pubkey role pattern effect).2)
  | .parseYaml yaml => (.unit (t.policy.parseYaml yaml).1, t.setPolicy (t.policy.parseYaml yaml).2)
  | .allowAll => (.unit t.policy.allowAll.1, t.setPolicy t.policy.allowAll.2)
  | .strictWrite enabled => (.unit (.ok ()), t.setPolicy (t.policy.setStrictWrite enabled))
  | .store inner => (.unit (.ok ()), t.withInner inner)
  | .readObject key offset length => (.bytes (t.readObject key offset length), t)
  | .fetchEndorsements deltaId => (.endorsements (t.fetchEndorsements deltaId), t)
  | .checkDelta deltaId => (.verdict (t.checkDelta deltaId), t)
  | .restart iter white black =>
    match t.restart iter white black with
    | .ok t' => (.unit (.ok ()), t')
    | .err e => (.unit (.err e), t)
    | .panic => (.unit .panic, t)

/-- The same node, which takes a restart for a call that does nothing. -/
def handleWithout (t : TrustAdapter A) : Event A → Reply × TrustAdapter A
  | .restart _ _ _ => (.unit (.ok ()), t)
  | event => t.handle event

/-- The node and its twin, which has not restarted. -/
structure Twin (t t' : TrustAdapter A) : Prop where
  built : t.Built
  readsBack : t.deltaFilter.ReadsBack
  same : t.SameGate t'

omit [Adapter A] [SerdeSlice EndorsementRecord] in
/-- The parts are all that counts. -/
theorem PartsBuilt.built {t : TrustAdapter A} (h : t.PartsBuilt) : t.Built := by
  obtain ⟨inner, ks, df, policy, mode⟩ := t
  cases mode with
  | permissive => exact .newPermissiveFull h.keystore h.deltaFilter h.policy
  | single => exact .newSingleFull h.keystore h.deltaFilter h.policy
  | majority => exact .newMajorityFull h.keystore h.deltaFilter h.policy
  | unanimous => exact .newUnanimousFull h.keystore h.deltaFilter h.policy

omit [Adapter A] [SerdeSlice EndorsementRecord] [SerdeYaml PolicyFile]
  [SerdeValue TrustConfiguration] [SerdeValue KeyStoreConfig] [SerdeValue DeltaFilterConfig]
  [SerdeValue PolicyEngineConfig] in
theorem SameGate.trans {t t' t'' : TrustAdapter A} (h : t.SameGate t') (h' : t'.SameGate t'') :
    t.SameGate t'' where
  inner := h.inner.trans h'.inner
  trustedKeys := h.trustedKeys.trans h'.trustedKeys
  roles := h.roles.trans h'.roles
  deltaFilter := h.deltaFilter.trans h'.deltaFilter
  rules := h.rules.trans h'.rules
  endorsementMode := h.endorsementMode.trans h'.endorsementMode

omit [Adapter A] [SerdeSlice EndorsementRecord] [SerdeYaml PolicyFile]
  [SerdeValue TrustConfiguration] [SerdeValue KeyStoreConfig] [SerdeValue DeltaFilterConfig]
  [SerdeValue PolicyEngineConfig] in
theorem SameGate.setPolicy {t t' : TrustAdapter A} (h : t.SameGate t')
    {policy policy' : PolicyEngine} (hrules : policy.rules = policy'.rules) :
    (t.setPolicy policy).SameGate (t'.setPolicy policy') :=
  ⟨h.inner, h.trustedKeys, h.roles, h.deltaFilter, hrules, h.endorsementMode⟩

section

variable (hbase64 : Base64Law) (hconfig : SerdeValueLaw TrustConfiguration)
  (hkeystore : SerdeValueLaw KeyStoreConfig) (hfilter : SerdeValueLaw DeltaFilterConfig)
  (hpolicy : SerdeValueLaw PolicyEngineConfig)
include hbase64 hconfig hkeystore hfilter hpolicy

omit [Adapter A] [SerdeSlice EndorsementRecord] in
/-- A restart succeeds, and the restarted node still has the same twin. -/
theorem Twin.restart {t t' : TrustAdapter A} (h : t.Twin t') (iter : HashIter VerifyingKey)
    (white black : HashIter String) :
    ∃ restarted, t.restart iter white black = .ok restarted ∧ restarted.Twin t' := by
  obtain ⟨json, restarted, hsaved, hloaded, hsame⟩ :=
    exists_reloaded hbase64 hconfig hkeystore hfilter hpolicy h.built iter white black h.readsBack
  refine ⟨restarted, ?_, .fromJson hloaded, hsame.deltaFilter ▸ h.readsBack, hsame.trans h.same⟩
  rw [TrustAdapter.restart, hsaved, Outcome.ok_bind, hloaded]

/-- Each event gets the same reply, and leaves twins behind. -/
theorem Twin.handle {t t' : TrustAdapter A} (h : t.Twin t') {event : Event A}
    (hevent : event.Listable) :
    (t.handle event).1 = (t'.handleWithout event).1 ∧
      (t.handle event).2.Twin (t'.handleWithout event).2 := by
  obtain ⟨hbuilt, hlists, hsame⟩ := h
  cases event with
  | setEndorsementMode mode =>
    exact ⟨rfl, hbuilt.setEndorsementMode mode, hlists, hsame.inner, hsame.trustedKeys, hsame.roles,
      hsame.deltaFilter, hsame.rules, rfl⟩
  | addDeltaToWhitelist deltaId =>
    have hadd : t.deltaFilter.addToWhitelist deltaId = t'.deltaFilter.addToWhitelist deltaId := by
      rw [hsame.deltaFilter]
    exact ⟨congrArg (fun added : Result Bool × DeltaFilter => Reply.verdict added.1) hadd,
      hbuilt.addDeltaToWhitelist deltaId,
      hlists.insert hevent fun _ => DeltaFilter.listed_addToWhitelist, hsame.inner,
      hsame.trustedKeys, hsame.roles, congrArg Prod.snd hadd, hsame.rules,
      hsame.endorsementMode⟩
  | addDeltaToBlacklist deltaId =>
    have hadd : t.deltaFilter.addToBlacklist deltaId = t'.deltaFilter.addToBlacklist deltaId := by
      rw [hsame.deltaFilter]
    exact ⟨congrArg (fun added : Result Bool × DeltaFilter => Reply.verdict added.1) hadd,
      hbuilt.addDeltaToBlacklist deltaId,
      hlists.insert hevent fun _ => DeltaFilter.listed_addToBlacklist, hsame.inner,
      hsame.trustedKeys, hsame.roles, congrArg Prod.snd hadd, hsame.rules,
      hsame.endorsementMode⟩
  | keystoreCall call =>
    have hkeys : t.keystore.SameKeys t'.keystore := ⟨hsame.trustedKeys, hsame.roles⟩
    obtain ⟨hresult, hafter⟩ := hkeys.run call
    exact ⟨congrArg Reply.unit hresult, hbuilt.getKeystoreMut (call.change t.keystore),
      hlists, hsame.inner, hafter.trustedKeys, hafter.roles, hsame.deltaFilter, hsame.rules,
      hsame.endorsementMode⟩
  | addRule pubkey role pattern effect =>
    obtain ⟨hresult, hrules⟩ :=
      PolicyEngine.addRule_sameRules hsame.rules pubkey role pattern effect
    exact ⟨congrArg Reply.unit hresult, hbuilt.getPolicyMut (.addRule pubkey role pattern effect),
      hlists, hsame.setPolicy hrules⟩
  | parseYaml yaml =>
    obtain ⟨hresult, hrules⟩ := PolicyEngine.parseYaml_sameRules hsame.rules yaml
    exact ⟨congrArg Reply.unit hresult, hbuilt.getPolicyMut (.parseYaml yaml), hlists,
      hsame.setPolicy hrules⟩
  | allowAll =>
    obtain ⟨hresult, hrules⟩ := PolicyEngine.parseYaml_sameRules hsame.rules
      "rules: [\x7b allow: \x7b objects: \x22*\x22 \x7d \x7d]"
    exact ⟨congrArg (fun result : Result Unit => Reply.unit result.unwrap) hresult,
      hbuilt.getPolicyMut (.parseYaml _), hlists, hsame.setPolicy hrules⟩
  | strictWrite enabled =>
    exact ⟨rfl, hbuilt.getPolicyMut (.setStrictWrite enabled), hlists,
      hsame.setPolicy hsame.rules⟩
  | store inner =>
    have hparts := hbuilt.parts
    exact ⟨rfl, PartsBuilt.built ⟨hparts.keystore, hparts.deltaFilter, hparts.policy⟩, hlists,
      rfl, hsame.trustedKeys, hsame.roles, hsame.deltaFilter, hsame.rules, hsame.endorsementMode⟩
  | readObject key offset length =>
    exact ⟨congrArg Reply.bytes (hsame.readObject_eq key offset length), hbuilt, hlists, hsame⟩
  | fetchEndorsements deltaId =>
    exact ⟨congrArg Reply.endorsements (hsame.fetchEndorsements_eq deltaId), hbuilt, hlists, hsame⟩
  | checkDelta deltaId =>
    refine ⟨congrArg Reply.verdict ?_, hbuilt, hlists, hsame⟩
    unfold TrustAdapter.checkDelta
    rw [hsame.readObject_eq]
  | restart iter white black =>
    obtain ⟨restarted, hrestart, htwin⟩ := Twin.restart hbase64 hconfig hkeystore hfilter
      hpolicy ⟨hbuilt, hlists, hsame⟩ iter white black
    have hhandle : t.handle (.restart iter white black) = (.unit (.ok ()), restarted) := by
      simp only [TrustAdapter.handle, hrestart]
    rw [hhandle]
    exact ⟨rfl, htwin⟩

end

/-- A node that was put together by the public methods gives the same replies
to every sequence of events as the node that takes no restart, as long as the
keys on its lists read back. -/
theorem restarts_invisible (hbase64 : Base64Law) (hconfig : SerdeValueLaw TrustConfiguration)
    (hkeystore : SerdeValueLaw KeyStoreConfig) (hfilter : SerdeValueLaw DeltaFilterConfig)
    (hpolicy : SerdeValueLaw PolicyEngineConfig) {t : TrustAdapter A} (h : t.Built)
    (hlists : t.deltaFilter.ReadsBack) (events : List (Event A))
    (hevents : ∀ event ∈ events, event.Listable) :
    replies handle t events = replies handleWithout t events := by
  have hself : t.Twin t := ⟨h, hlists, rfl, rfl, rfl, rfl, rfl, rfl⟩
  have hall := replies_forall₂ (S := Eq) (fun s s' event hmem hrelated =>
    Twin.handle hbase64 hconfig hkeystore hfilter hpolicy hrelated (hevents event hmem)) hself
  rw [List.forall₂_eq_eq_eq] at hall
  exact hall

end TrustAdapter

end

section

open Reference

/-- A key gets a role, the node restarts, a delta is revoked, the node
restarts again, and then it reads. -/
noncomputable def sampleEvents : List (Event MemoryMap) :=
  [.keystoreCall (.addTrustedPublicKeyWithRole (sampleKey 1).verifyingKey.toBytes "editor"),
    .restart (hashIter VerifyingKey) (hashIter String) (hashIter String),
    .addDeltaToBlacklist (sampleDelta 2),
    .restart (hashIter VerifyingKey) (hashIter String) (hashIter String),
    .readObject (sampleDelta 1).key 0 0]

theorem restarts_invisible_sample :
    replies TrustAdapter.handle sampleBuilt sampleEvents
      = replies TrustAdapter.handleWithout sampleBuilt sampleEvents := by
  refine TrustAdapter.restarts_invisible base64Law serdeValueLaw_trustConfiguration
    serdeValueLaw_keyStoreConfig serdeValueLaw_deltaFilterConfig serdeValueLaw_policyEngineConfig
    built_sampleBuilt (built_sampleBuilt.parts.deltaFilter.hasKeys.readsBack fromKeyLaw)
    sampleEvents ?_
  simp only [sampleEvents, List.forall_mem_cons, Event.Listable, true_and]
  exact ⟨fromKeyLaw _, by simp⟩

end

end MeldaSec
