import MeldaSec.Lib.Loop
import MeldaSec.Policy.Engine

/-!
# The policy language

A policy is written as a YAML document with a list of entries, and each entry
may hold an allow rule, a deny rule or both.  `fromYaml` compiles a document
into a new engine, and `parseYaml` adds its rules to an engine that exists.
A rule compiles when its glob does and its key is base64 text, and the rules
are added one after the other, in the order of the document.
-/

namespace MeldaSec

open Rust

/-- `serde_yaml::from_str` at the type `T`. -/
class SerdeYaml (T : Type) where
  fromStr : String → Except Error T

/-- A rule of a document. -/
structure RuleDef where
  key : Option String
  role : Option String
  objects : String
  deriving DecidableEq

/-- An entry of a document. -/
structure RawRule where
  allow : Option RuleDef
  deny : Option RuleDef
  deriving DecidableEq

/-- A document. -/
structure PolicyFile where
  rules : List RawRule
  deriving DecidableEq

variable [Crates]

namespace PolicyEngine

/-- `self.rules.push(rule)`. -/
def push (engine : PolicyEngine) (rule : Rule) : PolicyEngine :=
  { engine with rules := engine.rules ++ [rule] }

/-- The public key of a rule, if it names one. -/
def decodeKey : Option String → Result (Option Bytes)
  | some k => some <$> Outcome.ofExcept (Crates.base64Decode k)
  | none => .ok none

/-- The rule that `add_rule_from_def` compiles: the glob first, and then the
key. -/
def compileRuleDef (ruleDef : RuleDef) (effect : RuleEffect) : Result Rule := do
  let glob ← Outcome.ofExcept (Crates.globNew ruleDef.objects)
  let matcher ← Outcome.ofExcept (Crates.globSetBuild [glob])
  let pubkey ← decodeKey ruleDef.key
  .ok ⟨pubkey, ruleDef.role, matcher, ruleDef.objects, effect⟩

/-- `add_rule_from_def`. -/
def addRuleFromDef (engine : PolicyEngine) (ruleDef : RuleDef) (effect : RuleEffect) :
    Result Unit × PolicyEngine :=
  Outcome.thenRecord (compileRuleDef ruleDef effect) push engine

/-- One turn of the loop over the entries: the allow rule, and then the deny
rule. -/
def addRawRule (engine : PolicyEngine) (r : RawRule) : Result Unit × PolicyEngine :=
  Outcome.andThen
    (match r.allow with
      | some ruleDef => engine.addRuleFromDef ruleDef .allow
      | none => (.ok (), engine))
    fun engine =>
      match r.deny with
      | some ruleDef => engine.addRuleFromDef ruleDef .deny
      | none => (.ok (), engine)

/-- `parse_yaml`. -/
def parseYaml [SerdeYaml PolicyFile] (engine : PolicyEngine) (yaml : String) :
    Result Unit × PolicyEngine :=
  match SerdeYaml.fromStr yaml with
  | .error e => (.err e, engine)
  | .ok (parsed : PolicyFile) => Outcome.forEach addRawRule engine parsed.rules

/-- `PolicyEngine::from_yaml`. -/
def fromYaml [SerdeYaml PolicyFile] (yaml : String) : Result PolicyEngine := do
  let parsed : PolicyFile ← Outcome.ofExcept (SerdeYaml.fromStr yaml)
  let (result, engine) := Outcome.forEach addRawRule new parsed.rules
  (fun _ => engine) <$> result

/-- `allow_all`: one allow rule for every object. -/
def allowAll [SerdeYaml PolicyFile] (engine : PolicyEngine) : Result Unit × PolicyEngine :=
  let (result, engine) := engine.parseYaml "rules: [\x7b allow: \x7b objects: \x22*\x22 \x7d \x7d]"
  (result.unwrap, engine)

end PolicyEngine

/-! ## The entries of a document -/

/-- The rules of an entry in the order in which they are added. -/
def RawRule.defs (r : RawRule) : List (RuleDef × RuleEffect) :=
  (r.allow.map fun ruleDef => (ruleDef, .allow)).toList
    ++ (r.deny.map fun ruleDef => (ruleDef, .deny)).toList

/-- The rule as the serialized engine has it. -/
def RuleDef.entry (ruleDef : RuleDef) (effect : RuleEffect) : PolicyRuleDef :=
  ⟨effect, ruleDef.key, ruleDef.role, ruleDef.objects⟩

/-- The rules of a document, one after the other. -/
def PolicyFile.entries (file : PolicyFile) : List PolicyRuleDef :=
  (file.rules.flatMap RawRule.defs).map fun d => d.1.entry d.2

/-- The compiled form of an entry: its glob compiles to the matcher, its key
decodes to the public key, and the rest is kept. -/
structure PolicyRuleDef.Compiles (entry : PolicyRuleDef) (rule : Rule) : Prop where
  matcher : ∃ glob, Crates.globNew entry.objects = .ok glob ∧
    Crates.globSetBuild [glob] = .ok rule.matcher
  pubkey : PolicyEngine.decodeKey entry.key = .ok rule.pubkey
  role : rule.role = entry.role
  pattern : rule.pattern = entry.objects
  effect : rule.effect = entry.effect

/-! ## The loops -/

namespace PolicyEngine

theorem compileRuleDef_eq_ok_iff {ruleDef : RuleDef} {effect : RuleEffect} {rule : Rule} :
    compileRuleDef ruleDef effect = .ok rule ↔ (ruleDef.entry effect).Compiles rule := by
  simp only [compileRuleDef, Outcome.bind_eq_ok_iff, Outcome.ofExcept_eq_ok_iff]
  constructor
  · intro ⟨glob, hglob, matcher, hmatcher, pubkey, hpubkey, h⟩
    obtain rfl := Outcome.ok.inj h
    exact ⟨⟨glob, hglob, hmatcher⟩, hpubkey, rfl, rfl, rfl⟩
  · intro ⟨⟨glob, hglob, hmatcher⟩, hpubkey, hrole, hpattern, heffect⟩
    refine ⟨glob, hglob, rule.matcher, hmatcher, rule.pubkey, hpubkey, ?_⟩
    obtain ⟨pubkey, role, matcher, pattern, effect'⟩ := rule
    rw [Outcome.ok.injEq, Rule.mk.injEq]
    exact ⟨rfl, hrole.symm, rfl, hpattern.symm, heffect.symm⟩

/-- The loop over the entries is the loop over their rules. -/
theorem forEach_addRawRule (engine : PolicyEngine) (rules : List RawRule) :
    Outcome.forEach addRawRule engine rules
      = Outcome.forEach (fun engine d => addRuleFromDef engine d.1 d.2) engine
          (rules.flatMap RawRule.defs) := by
  rw [← Outcome.forEach_flatMap]
  congr 1
  funext engine ⟨allow, deny⟩
  cases allow <;> cases deny <;>
    simp [addRawRule, RawRule.defs, Outcome.forEach]

end PolicyEngine

end MeldaSec
