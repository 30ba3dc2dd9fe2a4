import MeldaSec.KeyStore

/-!
# The policy engine

An ordered list of compiled rules.  A rule names the principals it is about,
by public key or by role or not at all, and the objects it is about, by a
glob.  A matching deny rule decides first, and then a matching allow rule;
what no rule matches is denied.
-/

namespace MeldaSec

open Rust

variable [Crates]

/-- The effect of a rule. -/
inductive RuleEffect where
  | allow
  | deny
  deriving DecidableEq

/-- A compiled rule. -/
structure Rule where
  pubkey : Option Bytes
  role : Option String
  matcher : Crates.GlobSet
  pattern : String
  effect : RuleEffect

/-- A serialized rule. -/
structure PolicyRuleDef where
  effect : RuleEffect
  key : Option String
  role : Option String
  objects : String
  deriving DecidableEq

/-- The serialized engine. -/
structure PolicyEngineConfig where
  rules : List PolicyRuleDef
  deriving DecidableEq

/-- The rules in the order in which they were added, and whether writes are
checked against them. -/
structure PolicyEngine where
  rules : List Rule
  strictWrite : Bool

namespace PolicyEngine

/-- An engine without rules, which checks writes. -/
def new : PolicyEngine := ⟨[], true⟩

/-- `strict_write`, which switches the check of writes on or off. -/
def setStrictWrite (engine : PolicyEngine) (enabled : Bool) : PolicyEngine :=
  { engine with strictWrite := enabled }

/-- `match_rule`: the key, the role and the glob all have to match. -/
def matchRule (rule : Rule) (ks : KeyStore) (pubkey : Bytes) (objectId : String) : Bool :=
  (match rule.pubkey with
    | some k => k == pubkey
    | none => true) &&
  (match rule.role with
    | some role =>
      match ks.getRole pubkey with
      | some r => r == role
      | none => false
    | none => true) &&
  Crates.globSetIsMatch rule.matcher objectId

/-- `allows`: the first loop looks for a deny rule, and the second loop for
an allow rule. -/
def allows (engine : PolicyEngine) (ks : KeyStore) (pubkey : Bytes) (objectId : String) :
    Bool :=
  if engine.rules.any fun r => r.effect == .deny && matchRule r ks pubkey objectId then
    false
  else
    engine.rules.any fun r => r.effect == .allow && matchRule r ks pubkey objectId

/-- `add_rule`. -/
def addRule (engine : PolicyEngine) (pubkey : Option Bytes) (role : Option String)
    (pattern : String) (effect : RuleEffect) : Result Unit × PolicyEngine :=
  match Crates.globNew pattern with
  | .error e => (.err e, engine)
  | .ok glob =>
    match Crates.globSetBuild [glob] with
    | .error e => (.err e, engine)
    | .ok matcher =>
      (.ok (), { engine with
        rules := engine.rules ++ [⟨pubkey, role, matcher, pattern, effect⟩] })

/-- `PolicyEngine::to_json`.  A rule is written with the pattern that its
matcher was compiled from. -/
def toJson [SerdeValue PolicyEngineConfig] (engine : PolicyEngine) : Result Value :=
  let rules := engine.rules.map fun rule =>
    (⟨rule.effect, rule.pubkey.map Crates.base64Encode, rule.role, rule.pattern⟩ : PolicyRuleDef)
  Outcome.ofExcept (SerdeValue.toValue (⟨rules⟩ : PolicyEngineConfig))

/-- One turn of the loop of `from_json`. -/
def addRuleDef (engine : PolicyEngine) (raw : PolicyRuleDef) : Result PolicyEngine := do
  let pubkey ← match raw.key with
    | some k => some <$> Outcome.ofExcept (Crates.base64Decode k)
    | none => .ok none
  let (result, engine) := engine.addRule pubkey raw.role raw.objects raw.effect
  (fun _ => engine) <$> result

/-- `PolicyEngine::from_json`. -/
def fromJson [SerdeValue PolicyEngineConfig] (json : Value) : Result PolicyEngine := do
  let config : PolicyEngineConfig ← Outcome.ofExcept (SerdeValue.fromValue json)
  config.rules.foldlM addRuleDef new

end PolicyEngine

end MeldaSec
