import MeldaSec.Configuration
import MeldaSec.Reference

/-!
# Configurations in the reference crates

The JSON of a configuration reads back, for each of its parts and for the
whole.
-/

namespace MeldaSec.Reference

open Rust

/-- An iteration order, the same for every set with the same items. -/
noncomputable def hashIter (α : Type) : HashIter α where
  items := Finset.toList
  items_eq := Finset.coe_toList

/-! ## The parts of a configuration -/

/-- An entry of a key store, from its JSON. -/
def entryOfValue (item : Value) : Except Error KeyEntry := do
  let entry ← asEntries item
  let pubkey ← field entry "pubkey" >>= asString
  let role ← optField entry "role"
  .ok ⟨pubkey, role⟩

def entryValue (key : KeyEntry) : Value :=
  .object [("pubkey", .string key.pubkey), ("role", optValue key.role)]

theorem entryOfValue_entryValue (key : KeyEntry) : entryOfValue (entryValue key) = .ok key := by
  obtain ⟨pubkey, role⟩ := key
  cases role <;> rfl

def keyStoreValue (keys : List KeyEntry) : Value := .object [("keys", .array (keys.map entryValue))]

theorem fromValue_keyStoreValue (keys : List KeyEntry) :
    SerdeValue.fromValue (keyStoreValue keys) = .ok (⟨keys⟩ : KeyStoreConfig) := by
  have hkeys : asList entryOfValue (.array (keys.map entryValue)) = .ok keys :=
    mapM_map_eq_ok entryOfValue_entryValue keys
  have hread : SerdeValue.fromValue (T := KeyStoreConfig) (keyStoreValue keys) = (do
      let keys ← asList entryOfValue (.array (keys.map entryValue))
      .ok ⟨keys⟩) := rfl
  rw [hread, hkeys]
  rfl

theorem serdeValueLaw_keyStoreConfig : SerdeValueLaw KeyStoreConfig :=
  fun config => ⟨_, rfl, fromValue_keyStoreValue config.keys⟩

def deltaFilterValue (whitelist blacklist : List String) : Value :=
  .object [("whitelist", listValue whitelist), ("blacklist", listValue blacklist)]

theorem fromValue_deltaFilterValue (whitelist blacklist : List String) :
    SerdeValue.fromValue (deltaFilterValue whitelist blacklist)
      = .ok (⟨whitelist, blacklist⟩ : DeltaFilterConfig) := by
  have hitem : ∀ s : String, asString (.string s) = .ok s := fun _ => rfl
  have hlist : ∀ items : List String, asList asString (listValue items) = .ok items :=
    mapM_map_eq_ok hitem
  have hread : SerdeValue.fromValue (T := DeltaFilterConfig) (deltaFilterValue whitelist blacklist)
      = (do
        let whitelist ← asList asString (listValue whitelist)
        let blacklist ← asList asString (listValue blacklist)
        .ok ⟨whitelist, blacklist⟩) := rfl
  rw [hread, hlist, hlist]
  rfl

theorem serdeValueLaw_deltaFilterConfig : SerdeValueLaw DeltaFilterConfig :=
  fun config => ⟨_, rfl, fromValue_deltaFilterValue config.whitelist config.blacklist⟩

/-- A rule of a policy, from its JSON. -/
def policyRuleOfValue (item : Value) : Except Error PolicyRuleDef := do
  let entry ← asEntries item
  let effect ← field entry "effect" >>= asEffect
  let key ← optField entry "key"
  let role ← optField entry "role"
  let objects ← field entry "objects" >>= asString
  .ok ⟨effect, key, role, objects⟩

def policyRuleValue (rule : PolicyRuleDef) : Value :=
  .object [("effect", .string (effectName rule.effect)), ("key", optValue rule.key),
    ("role", optValue rule.role), ("objects", .string rule.objects)]

theorem policyRuleOfValue_policyRuleValue (rule : PolicyRuleDef) :
    policyRuleOfValue (policyRuleValue rule) = .ok rule := by
  obtain ⟨effect, key, role, objects⟩ := rule
  cases effect <;> cases key <;> cases role <;> rfl

def policyEngineValue (rules : List PolicyRuleDef) : Value :=
  .object [("rules", .array (rules.map policyRuleValue))]

theorem fromValue_policyEngineValue (rules : List PolicyRuleDef) :
    SerdeValue.fromValue (policyEngineValue rules) = .ok (⟨rules⟩ : PolicyEngineConfig) := by
  have hrules : asList policyRuleOfValue (.array (rules.map policyRuleValue)) = .ok rules :=
    mapM_map_eq_ok policyRuleOfValue_policyRuleValue rules
  have hread : SerdeValue.fromValue (T := PolicyEngineConfig) (policyEngineValue rules) = (do
      let rules ← asList policyRuleOfValue (.array (rules.map policyRuleValue))
      .ok ⟨rules⟩) := rfl
  rw [hread, hrules]
  rfl

theorem serdeValueLaw_policyEngineConfig : SerdeValueLaw PolicyEngineConfig :=
  fun config => ⟨_, rfl, fromValue_policyEngineValue config.rules⟩

/-! ## The whole configuration -/

theorem asMode_modeName (mode : EndorsementMode) : asMode (.string (modeName mode)) = .ok mode := by
  cases mode <;> rfl

def configurationValue (config : TrustConfiguration) : Value :=
  .object [("endorsement_mode", .string (modeName config.endorsementMode)),
    ("keystore", config.keystore), ("delta_filter", config.deltaFilter), ("policy", config.policy)]

theorem fromValue_configurationValue (config : TrustConfiguration) :
    SerdeValue.fromValue (configurationValue config) = .ok config := by
  have hread : SerdeValue.fromValue (T := TrustConfiguration) (configurationValue config) = (do
      let mode ← asMode (.string (modeName config.endorsementMode))
      .ok ⟨mode, config.keystore, config.deltaFilter, config.policy⟩) := rfl
  rw [hread, asMode_modeName]
  rfl

theorem serdeValueLaw_trustConfiguration : SerdeValueLaw TrustConfiguration :=
  fun config => ⟨_, rfl, fromValue_configurationValue config⟩

end MeldaSec.Reference
