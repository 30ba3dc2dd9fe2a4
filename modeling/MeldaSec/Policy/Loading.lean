import MeldaSec.Reference

/-!
# What a loaded policy means

There are four ways to fill an engine, and two compilers of rules behind
them.  `LoadedFrom` says that an engine was filled from a list of entries by
any of them, and its invariant is that the rules of the engine are the
compiled entries in order.

`Permits` is the meaning of a list of entries: some allow entry matches, and
no deny entry does.  It mentions neither the loaders nor the two passes of
`allows`, and `allows_iff_permits` says that every engine decides by it.
-/

namespace MeldaSec

open Rust

section

variable [Crates]

/-! ## The meaning of entries -/

/-- The pattern compiles, and the matcher matches the identifier. -/
def PatternMatches (pattern objectId : String) : Prop :=
  ∃ glob matcher, Crates.globNew pattern = .ok glob ∧ Crates.globSetBuild [glob] = .ok matcher ∧
    Crates.globSetIsMatch matcher objectId = true

/-- The entry is about this public key and this object. -/
def PolicyRuleDef.Matches (entry : PolicyRuleDef) (ks : KeyStore) (pubkey : Bytes)
    (objectId : String) : Prop :=
  (∀ k ∈ entry.key, Crates.base64Decode k = .ok pubkey) ∧
    (∀ role ∈ entry.role, ks.getRole pubkey = some role) ∧ PatternMatches entry.objects objectId

/-- Some allow entry matches, and no deny entry does. -/
def Permits (entries : List PolicyRuleDef) (ks : KeyStore) (pubkey : Bytes)
    (objectId : String) : Prop :=
  (∃ entry ∈ entries, entry.effect = .allow ∧ entry.Matches ks pubkey objectId) ∧
    ¬ ∃ entry ∈ entries, entry.effect = .deny ∧ entry.Matches ks pubkey objectId

/-- Order and repetitions have no meaning. -/
theorem permits_congr {entries entries' : List PolicyRuleDef}
    (h : ∀ entry, entry ∈ entries ↔ entry ∈ entries') (ks : KeyStore) (pubkey : Bytes)
    (objectId : String) :
    Permits entries ks pubkey objectId ↔ Permits entries' ks pubkey objectId := by
  simp only [Permits, h]

/-! ## Compiled entries -/

namespace PolicyEngine

/-- A rule has a key to match exactly when its entry has one. -/
theorem decodeKey_matches_iff {key : Option String} {pubkey : Option Bytes}
    (h : decodeKey key = .ok pubkey) (pk : Bytes) :
    (∀ k ∈ key, Crates.base64Decode k = .ok pk) ↔ ∀ k ∈ pubkey, k = pk := by
  cases key with
  | none =>
    obtain rfl := Outcome.ok.inj h
    simp
  | some k =>
    obtain ⟨bytes, hbytes, rfl⟩ := Outcome.map_eq_ok_iff.mp h
    simp [Outcome.ofExcept_eq_ok_iff.mp hbytes]

/-- The three tests of `match_rule`. -/
theorem matchRule_iff {rule : Rule} {ks : KeyStore} {pubkey : Bytes} {objectId : String} :
    matchRule rule ks pubkey objectId = true ↔
      (∀ k ∈ rule.pubkey, k = pubkey) ∧ (∀ role ∈ rule.role, ks.getRole pubkey = some role) ∧
        Crates.globSetIsMatch rule.matcher objectId = true := by
  rw [matchRule, Bool.and_eq_true, Bool.and_eq_true, and_assoc]
  refine and_congr ?_ (and_congr_left' ?_)
  · cases rule.pubkey <;> simp
  · cases rule.role with
    | none => simp
    | some role => cases ks.getRole pubkey <;> simp

/-- A compiled rule matches what its entry matches. -/
theorem matchRule_iff_matches {entry : PolicyRuleDef} {rule : Rule} (h : entry.Compiles rule)
    {ks : KeyStore} {pubkey : Bytes} {objectId : String} :
    matchRule rule ks pubkey objectId = true ↔ entry.Matches ks pubkey objectId := by
  obtain ⟨glob, hglob, hmatcher⟩ := h.matcher
  rw [matchRule_iff, PolicyRuleDef.Matches, decodeKey_matches_iff h.pubkey, h.role]
  refine and_congr_right fun _ => and_congr_right fun _ => ?_
  constructor
  · intro hmatch
    exact ⟨glob, rule.matcher, hglob, hmatcher, hmatch⟩
  · intro ⟨glob', matcher', hglob', hmatcher', hmatch⟩
    obtain rfl := Except.ok.inj (hglob.symm.trans hglob')
    obtain rfl := Except.ok.inj (hmatcher.symm.trans hmatcher')
    exact hmatch

/-- The two passes of `allows`. -/
theorem allows_iff {engine : PolicyEngine} {ks : KeyStore} {pubkey : Bytes} {objectId : String} :
    engine.allows ks pubkey objectId = true ↔
      (∃ r ∈ engine.rules, r.effect = .allow ∧ matchRule r ks pubkey objectId = true) ∧
        ¬ ∃ r ∈ engine.rules, r.effect = .deny ∧ matchRule r ks pubkey objectId = true := by
  unfold allows
  split_ifs with hdeny
  · simp only [List.any_eq_true, Bool.and_eq_true, beq_iff_eq] at hdeny
    simp [hdeny]
  · simp only [List.any_eq_true, Bool.and_eq_true, beq_iff_eq] at hdeny ⊢
    exact ⟨fun hallow => ⟨hallow, hdeny⟩, fun h => h.1⟩

/-- The decision depends on the rules and on the role of the key. -/
theorem allows_congr {engine engine' : PolicyEngine} {ks ks' : KeyStore} {pubkey : Bytes}
    (hrules : engine.rules = engine'.rules) (hrole : ks.getRole pubkey = ks'.getRole pubkey)
    (objectId : String) :
    engine.allows ks pubkey objectId = engine'.allows ks' pubkey objectId := by
  rw [Bool.eq_iff_iff, allows_iff, allows_iff]
  simp only [matchRule_iff, hrules, hrole]

/-- Compiled entries decide by their meaning. -/
theorem allows_iff_permits {engine : PolicyEngine} {entries : List PolicyRuleDef}
    (h : List.Forall₂ PolicyRuleDef.Compiles entries engine.rules) (ks : KeyStore)
    (pubkey : Bytes) (objectId : String) :
    engine.allows ks pubkey objectId = true ↔ Permits entries ks pubkey objectId := by
  have hsome : ∀ effect,
      (∃ r ∈ engine.rules, r.effect = effect ∧ matchRule r ks pubkey objectId = true) ↔
        ∃ entry ∈ entries, entry.effect = effect ∧ entry.Matches ks pubkey objectId := by
    intro effect
    generalize engine.rules = rules at h
    induction h with
    | nil => simp
    | cons hrule _ ih =>
      simp only [List.exists_mem_cons_iff, ih, matchRule_iff_matches hrule, hrule.effect]
  rw [allows_iff, hsome, hsome, Permits]

/-! ## The loaders -/

/-- The rules that were pushed one by one stand behind the others. -/
theorem foldl_push (engine : PolicyEngine) (rules : List Rule) :
    rules.foldl push engine = { engine with rules := engine.rules ++ rules } := by
  induction rules generalizing engine with
  | nil => simp
  | cons rule rules ih => simp [ih, push]

/-- The entries compile, one by one. -/
theorem mapM_compileRuleDef_eq_ok_iff {file : PolicyFile} {rules : List Rule} :
    (file.rules.flatMap RawRule.defs).mapM (fun d => compileRuleDef d.1 d.2) = .ok rules ↔
      List.Forall₂ PolicyRuleDef.Compiles file.entries rules := by
  rw [Outcome.mapM_eq_ok_iff, PolicyFile.entries, List.forall₂_map_left_iff]
  simp only [compileRuleDef_eq_ok_iff]

/-- What the loop over a document returns and leaves behind. -/
theorem forEach_addRawRule_eq (engine : PolicyEngine) (file : PolicyFile) :
    Outcome.forEach addRawRule engine file.rules
      = ((fun _ => ()) <$>
          (file.rules.flatMap RawRule.defs).mapM (fun d => compileRuleDef d.1 d.2),
        { engine with
          rules := engine.rules ++ Outcome.decided (fun d => compileRuleDef d.1 d.2)
            (file.rules.flatMap RawRule.defs) }) := by
  rw [forEach_addRawRule, ← foldl_push, ← Outcome.forEach_record]
  rfl

section

variable [SerdeYaml PolicyFile]

theorem parseYaml_of_file {engine : PolicyEngine} {yaml : String} {file : PolicyFile}
    (h : SerdeYaml.fromStr yaml = .ok file) :
    engine.parseYaml yaml = Outcome.forEach addRawRule engine file.rules := by
  rw [parseYaml, h]

/-- A document that loads adds its compiled entries. -/
theorem parseYaml_eq_ok_iff {engine engine' : PolicyEngine} {yaml : String} {file : PolicyFile}
    (h : SerdeYaml.fromStr yaml = .ok file) :
    engine.parseYaml yaml = (.ok (), engine') ↔
      ∃ rules, List.Forall₂ PolicyRuleDef.Compiles file.entries rules ∧
        engine' = { engine with rules := engine.rules ++ rules } := by
  rw [parseYaml_of_file h, forEach_addRawRule_eq, Prod.mk.injEq, Outcome.map_eq_ok_iff]
  constructor
  · rintro ⟨⟨rules, hrules, -⟩, rfl⟩
    exact ⟨rules, mapM_compileRuleDef_eq_ok_iff.mp hrules,
      by rw [Outcome.mapM_eq_ok_decided hrules]⟩
  · rintro ⟨rules, hrules, rfl⟩
    have hmapM := mapM_compileRuleDef_eq_ok_iff.mpr hrules
    exact ⟨⟨rules, hmapM, rfl⟩, by rw [Outcome.mapM_eq_ok_decided hmapM]⟩

theorem parseYaml_fst_eq_ok_iff {engine : PolicyEngine} {yaml : String} {file : PolicyFile}
    (h : SerdeYaml.fromStr yaml = .ok file) :
    (engine.parseYaml yaml).1 = .ok () ↔
      ∃ rules, List.Forall₂ PolicyRuleDef.Compiles file.entries rules := by
  rw [parseYaml_of_file h, forEach_addRawRule_eq, Outcome.map_eq_ok_iff]
  simp only [mapM_compileRuleDef_eq_ok_iff, and_true]

theorem fromYaml_eq_ok_iff {engine : PolicyEngine} {yaml : String} {file : PolicyFile}
    (h : SerdeYaml.fromStr yaml = .ok file) :
    fromYaml yaml = .ok engine ↔
      ∃ rules, List.Forall₂ PolicyRuleDef.Compiles file.entries rules ∧ engine = ⟨rules, true⟩ := by
  have hyaml : fromYaml yaml = (fun _ => (new.parseYaml yaml).2) <$> (new.parseYaml yaml).1 := by
    rw [fromYaml, h, Outcome.ofExcept_ok, Outcome.ok_bind, parseYaml_of_file h]
  rw [hyaml, Outcome.map_eq_ok_iff]
  constructor
  · rintro ⟨⟨⟩, hok, rfl⟩
    obtain ⟨rules, hrules, hengine⟩ := (parseYaml_eq_ok_iff h).mp (Prod.ext hok rfl)
    exact ⟨rules, hrules, hengine⟩
  · rintro ⟨rules, hrules, rfl⟩
    have hok : new.parseYaml yaml = (.ok (), ⟨rules, true⟩) :=
      (parseYaml_eq_ok_iff h).mpr ⟨rules, hrules, rfl⟩
    rw [hok]
    exact ⟨(), rfl, rfl⟩

end

/-- `add_rule` ends in an error that changes nothing, or the pattern compiles
and the rule stands behind the others. -/
theorem addRule_cases (engine : PolicyEngine) (pubkey : Option Bytes) (role : Option String)
    (pattern : String) (effect : RuleEffect) :
    (∃ e, engine.addRule pubkey role pattern effect = (.err e, engine)) ∨
      ∃ glob matcher, Crates.globNew pattern = .ok glob ∧
        Crates.globSetBuild [glob] = .ok matcher ∧
        engine.addRule pubkey role pattern effect
          = (.ok (), engine.push ⟨pubkey, role, matcher, pattern, effect⟩) := by
  unfold addRule
  cases hglob : Crates.globNew pattern with
  | error e => exact Or.inl ⟨e, rfl⟩
  | ok glob =>
    cases hmatcher : Crates.globSetBuild [glob] with
    | error e => exact Or.inl ⟨e, by simp only [hmatcher]⟩
    | ok matcher => exact Or.inr ⟨glob, matcher, rfl, hmatcher, by simp only [hmatcher, push]⟩

/-- `add_rule` compiles the pattern and takes the rest as it is. -/
theorem addRule_eq_ok_iff {engine engine' : PolicyEngine} {entry : PolicyRuleDef}
    {pubkey : Option Bytes} (hkey : decodeKey entry.key = .ok pubkey) :
    engine.addRule pubkey entry.role entry.objects entry.effect = (.ok (), engine') ↔
      ∃ rule, entry.Compiles rule ∧ engine' = engine.push rule := by
  constructor
  · intro h
    rcases engine.addRule_cases pubkey entry.role entry.objects entry.effect with
      ⟨e, herr⟩ | ⟨glob, matcher, hglob, hmatcher, hpush⟩
    · rw [herr] at h
      cases h
    · rw [hpush, Prod.mk.injEq] at h
      exact ⟨_, ⟨⟨glob, hglob, hmatcher⟩, hkey, rfl, rfl, rfl⟩, h.2.symm⟩
  · rintro ⟨⟨rulePubkey, role, matcher, pattern, effect⟩, h, rfl⟩
    obtain ⟨⟨glob, hglob, hmatcher⟩, hpubkey, hrole, hpattern, heffect⟩ := h
    obtain rfl := Outcome.ok.inj (hkey.symm.trans hpubkey)
    obtain ⟨rfl, rfl, rfl⟩ : role = _ ∧ pattern = _ ∧ effect = _ := ⟨hrole, hpattern, heffect⟩
    simp only [addRule, hglob, hmatcher, push]

/-- One turn of the loop of `from_json` pushes the compiled entry. -/
theorem addRuleDef_eq_ok_iff {engine engine' : PolicyEngine} {raw : PolicyRuleDef} :
    addRuleDef engine raw = .ok engine' ↔
      ∃ rule, raw.Compiles rule ∧ engine' = engine.push rule := by
  have hturn : addRuleDef engine raw = (do
      let pubkey ← decodeKey raw.key
      (fun _ => (engine.addRule pubkey raw.role raw.objects raw.effect).2) <$>
        (engine.addRule pubkey raw.role raw.objects raw.effect).1) := by
    unfold addRuleDef
    cases raw.key <;> rfl
  rw [hturn, Outcome.bind_eq_ok_iff]
  constructor
  · intro ⟨pubkey, hkey, h⟩
    obtain ⟨⟨⟩, hok, rfl⟩ := Outcome.map_eq_ok_iff.mp h
    exact (addRule_eq_ok_iff hkey).mp (Prod.ext hok rfl)
  · rintro ⟨rule, hrule, rfl⟩
    have hadd : engine.addRule rule.pubkey raw.role raw.objects raw.effect
        = (.ok (), engine.push rule) :=
      (addRule_eq_ok_iff hrule.pubkey).mpr ⟨rule, hrule, rfl⟩
    exact ⟨rule.pubkey, hrule.pubkey, by rw [hadd]; rfl⟩

theorem foldlM_addRuleDef_eq_ok_iff {engine engine' : PolicyEngine} {entries : List PolicyRuleDef} :
    entries.foldlM addRuleDef engine = .ok engine' ↔
      ∃ rules, List.Forall₂ PolicyRuleDef.Compiles entries rules ∧
        engine' = { engine with rules := engine.rules ++ rules } := by
  induction entries generalizing engine with
  | nil => simp [eq_comm]
  | cons entry entries ih =>
    rw [List.foldlM_cons, Outcome.bind_eq_ok_iff]
    simp only [addRuleDef_eq_ok_iff, ih, List.forall₂_cons_left_iff]
    constructor
    · rintro ⟨_, ⟨rule, hrule, rfl⟩, rules, hrules, rfl⟩
      exact ⟨rule :: rules, ⟨rule, rules, hrule, hrules, rfl⟩, by simp [push]⟩
    · rintro ⟨_, ⟨rule, rules, hrule, hrules, rfl⟩, rfl⟩
      exact ⟨_, ⟨rule, hrule, rfl⟩, rules, hrules, by simp [push]⟩

theorem fromJson_eq_ok_iff [SerdeValue PolicyEngineConfig] {engine : PolicyEngine} {json : Value}
    {config : PolicyEngineConfig} (h : SerdeValue.fromValue json = .ok config) :
    fromJson json = .ok engine ↔
      ∃ rules, List.Forall₂ PolicyRuleDef.Compiles config.rules rules ∧ engine = ⟨rules, true⟩ := by
  rw [fromJson, h, Outcome.ofExcept_ok, Outcome.ok_bind, foldlM_addRuleDef_eq_ok_iff]
  rfl

/-! ## A document that fails -/

section

theorem compileRuleDef_ne_panic (ruleDef : RuleDef) (effect : RuleEffect) :
    compileRuleDef ruleDef effect ≠ .panic := by
  have hkey : decodeKey ruleDef.key ≠ .panic := by
    cases ruleDef.key with
    | none => simp [decodeKey]
    | some k => simp [decodeKey, Outcome.map_eq_panic_iff, Outcome.ofExcept_ne_panic]
  simp [compileRuleDef, Outcome.bind_eq_panic_iff, Outcome.ofExcept_ne_panic, hkey]

/-- The loop over a document fails when some entry does not compile. -/
theorem exists_mapM_compileRuleDef_iff (file : PolicyFile) :
    (∃ e, (file.rules.flatMap RawRule.defs).mapM (fun d => compileRuleDef d.1 d.2) = .err e) ↔
      ¬ ∀ entry ∈ file.entries, ∃ rule, entry.Compiles rule := by
  have hall : (∀ entry ∈ file.entries, ∃ rule, entry.Compiles rule) ↔
      ∃ rules, (file.rules.flatMap RawRule.defs).mapM (fun d => compileRuleDef d.1 d.2)
        = .ok rules := by
    rw [Outcome.exists_mapM_eq_ok_iff, PolicyFile.entries, List.forall_mem_map]
    simp only [compileRuleDef_eq_ok_iff]
  rw [hall]
  cases hmapM : (file.rules.flatMap RawRule.defs).mapM fun d => compileRuleDef d.1 d.2 with
  | ok rules => simp
  | err e => simp
  | panic =>
    obtain ⟨-, d, -, -, -, hpanic⟩ := Outcome.mapM_eq_panic_iff.mp hmapM
    exact absurd hpanic (compileRuleDef_ne_panic d.1 d.2)

/-- Nothing was added before the failure exactly when the first rule of the
document failed. -/
theorem decided_compileRuleDef_eq_nil_iff (file : PolicyFile) :
    Outcome.decided (fun d => compileRuleDef d.1 d.2) (file.rules.flatMap RawRule.defs) = [] ↔
      ∀ entry ∈ file.entries.head?, ∀ rule, ¬ entry.Compiles rule := by
  rw [Outcome.decided_eq_nil_iff, PolicyFile.entries, List.head?_map]
  cases (file.rules.flatMap RawRule.defs).head? with
  | none => simp
  | some d => simp [compileRuleDef_eq_ok_iff]

variable [SerdeYaml PolicyFile]

/-- A document that fails leaves the rules and the decisions as they were. -/
def LoadsAtomically (engine : PolicyEngine) (yaml : String) : Prop :=
  ∀ e, (engine.parseYaml yaml).1 = .err e →
    (engine.parseYaml yaml).2.rules = engine.rules ∧
      ∀ (ks : KeyStore) (pubkey : Bytes) (objectId : String),
        (engine.parseYaml yaml).2.allows ks pubkey objectId = engine.allows ks pubkey objectId

/-- A document is loaded as a whole or not at all exactly when it does not
parse, or all of its rules compile, or the first one does not. -/
theorem loadsAtomically_iff (engine : PolicyEngine) (yaml : String) :
    engine.LoadsAtomically yaml ↔
      ∀ file : PolicyFile, SerdeYaml.fromStr yaml = .ok file →
        (∀ entry ∈ file.entries, ∃ rule, entry.Compiles rule) ∨
          ∀ entry ∈ file.entries.head?, ∀ rule, ¬ entry.Compiles rule := by
  unfold LoadsAtomically
  cases hfile : SerdeYaml.fromStr (T := PolicyFile) yaml with
  | error e => simp [parseYaml, hfile]
  | ok file =>
    rw [parseYaml_of_file hfile, forEach_addRawRule_eq]
    simp only [Except.ok.injEq, forall_eq', ← decided_compileRuleDef_eq_nil_iff]
    constructor
    · intro hatomic
      by_cases hall : ∀ entry ∈ file.entries, ∃ rule, entry.Compiles rule
      · exact Or.inl hall
      · obtain ⟨e, he⟩ := (exists_mapM_compileRuleDef_iff file).mpr hall
        have hsame := (hatomic e (by rw [he]; rfl)).1
        exact Or.inr (List.append_right_eq_self.mp hsame)
    · intro hcond e he
      rcases hcond with hall | hnone
      · have hfail : ∃ e, (file.rules.flatMap RawRule.defs).mapM
            (fun d => compileRuleDef d.1 d.2) = .err e := by
          cases hmapM : (file.rules.flatMap RawRule.defs).mapM
              fun d => compileRuleDef d.1 d.2 with
          | ok rules => simp [hmapM] at he
          | err e => exact ⟨e, rfl⟩
          | panic => simp [hmapM] at he
        exact absurd hall ((exists_mapM_compileRuleDef_iff file).mp hfail)
      · rw [hnone, List.append_nil]
        exact ⟨rfl, fun _ _ _ => rfl⟩

end

end PolicyEngine

end

section

open Reference

/-- An allow rule for everything, and a deny rule with a key that is not
base64 text. -/
def tornYaml : String :=
  "\x7b\x22rules\x22:[\x7b\x22allow\x22:\x7b\x22objects\x22:\x22*\x22\x7d\x7d,"
    ++ "\x7b\x22deny\x22:\x7b\x22key\x22:\x22!\x22,\x22objects\x22:\x22*\x22\x7d\x7d]\x7d"

/-- The failed document has opened an engine that denied everything. -/
theorem tornYaml_not_loadsAtomically :
    ¬ PolicyEngine.new.LoadsAtomically tornYaml ∧
      (PolicyEngine.new.parseYaml tornYaml).2.allows KeyStore.new [] "x" = true ∧
      PolicyEngine.new.allows KeyStore.new [] "x" = false := by
  have hfailed : (PolicyEngine.new.parseYaml tornYaml).1 = .err "Invalid symbol" := by
    decide +kernel
  have hopen : (PolicyEngine.new.parseYaml tornYaml).2.allows KeyStore.new [] "x" = true := by
    decide +kernel
  have hclosed : PolicyEngine.new.allows KeyStore.new [] "x" = false := rfl
  refine ⟨fun hatomic => ?_, hopen, hclosed⟩
  have hsame := (hatomic _ hfailed).2 KeyStore.new [] "x"
  rw [hopen, hclosed] at hsame
  cases hsame

end

/-! ## Every way of loading -/

section

variable [Crates]

namespace PolicyEngine

variable [SerdeYaml PolicyFile] [SerdeValue PolicyEngineConfig]

/-- The engine was filled from these entries, in any of the four ways. -/
inductive LoadedFrom : PolicyEngine → List PolicyRuleDef → Prop where
  | new : LoadedFrom new []
  | fromYaml {yaml : String} {file : PolicyFile} {engine : PolicyEngine} :
    SerdeYaml.fromStr yaml = .ok file → PolicyEngine.fromYaml yaml = .ok engine →
    LoadedFrom engine file.entries
  | parseYaml {yaml : String} {file : PolicyFile} {engine engine' : PolicyEngine}
    {entries : List PolicyRuleDef} :
    LoadedFrom engine entries → SerdeYaml.fromStr yaml = .ok file →
    engine.parseYaml yaml = (.ok (), engine') → LoadedFrom engine' (entries ++ file.entries)
  | addRule {entry : PolicyRuleDef} {pubkey : Option Bytes} {engine engine' : PolicyEngine}
    {entries : List PolicyRuleDef} :
    LoadedFrom engine entries → decodeKey entry.key = .ok pubkey →
    engine.addRule pubkey entry.role entry.objects entry.effect = (.ok (), engine') →
    LoadedFrom engine' (entries ++ [entry])
  | fromJson {json : Value} {config : PolicyEngineConfig} {engine : PolicyEngine} :
    SerdeValue.fromValue json = .ok config → PolicyEngine.fromJson json = .ok engine →
    LoadedFrom engine config.rules

/-- The rules of an engine are its compiled entries, in order. -/
theorem LoadedFrom.compiles {engine : PolicyEngine} {entries : List PolicyRuleDef}
    (h : LoadedFrom engine entries) :
    List.Forall₂ PolicyRuleDef.Compiles entries engine.rules := by
  induction h with
  | new => exact List.Forall₂.nil
  | fromYaml hfile hok =>
    obtain ⟨rules, hrules, rfl⟩ := (fromYaml_eq_ok_iff hfile).mp hok
    exact hrules
  | parseYaml _ hfile hok ih =>
    obtain ⟨rules, hrules, rfl⟩ := (parseYaml_eq_ok_iff hfile).mp hok
    exact List.rel_append ih hrules
  | addRule _ hkey hok ih =>
    obtain ⟨rule, hrule, rfl⟩ := (addRule_eq_ok_iff hkey).mp hok
    exact List.rel_append ih (List.Forall₂.cons hrule List.Forall₂.nil)
  | fromJson hconfig hok =>
    obtain ⟨rules, hrules, rfl⟩ := (fromJson_eq_ok_iff hconfig).mp hok
    exact hrules

/-- However the entries were loaded, the engine decides by their meaning; and
a document succeeds in a new engine exactly when its entries do as JSON. -/
theorem allows_loaded_iff :
    (∀ (engine : PolicyEngine) (loaded entries : List PolicyRuleDef), LoadedFrom engine loaded →
      (∀ entry, entry ∈ loaded ↔ entry ∈ entries) →
      ∀ (ks : KeyStore) (pubkey : Bytes) (objectId : String),
        engine.allows ks pubkey objectId = true ↔ Permits entries ks pubkey objectId) ∧
    ∀ (yaml : String) (file : PolicyFile) (json : Value) (config : PolicyEngineConfig),
      SerdeYaml.fromStr yaml = .ok file → SerdeValue.fromValue json = .ok config →
      file.entries = config.rules →
      ((∃ engine, PolicyEngine.fromYaml yaml = .ok engine) ↔
          (PolicyEngine.new.parseYaml yaml).1 = .ok ()) ∧
        ((∃ engine, PolicyEngine.fromYaml yaml = .ok engine) ↔
          ∃ engine, PolicyEngine.fromJson json = .ok engine) := by
  constructor
  · intro engine loaded entries hloaded hsame ks pubkey objectId
    rw [allows_iff_permits hloaded.compiles, permits_congr hsame]
  · intro yaml file json config hfile hconfig hentries
    have hengine : ∀ entries : List PolicyRuleDef,
        (∃ engine : PolicyEngine, ∃ rules,
          List.Forall₂ PolicyRuleDef.Compiles entries rules ∧ engine = ⟨rules, true⟩) ↔
        ∃ rules, List.Forall₂ PolicyRuleDef.Compiles entries rules := by
      intro entries
      rw [exists_comm]
      simp only [exists_and_left, exists_eq, and_true]
    simp only [fromYaml_eq_ok_iff hfile, fromJson_eq_ok_iff hconfig, hengine]
    exact ⟨(parseYaml_fst_eq_ok_iff hfile).symm, by rw [hentries]⟩

end PolicyEngine

end

section

open Reference

/-- An allow rule for the objects that start with `x`, and a deny rule for one
of them. -/
def sampleEntries : List PolicyRuleDef :=
  [⟨.allow, none, none, "x*"⟩, ⟨.deny, none, none, "xy"⟩]

/-- Those entries in one entry of a document. -/
def sampleYaml : String :=
  "\x7b\x22rules\x22:[\x7b\x22deny\x22:\x7b\x22objects\x22:\x22xy\x22\x7d,"
    ++ "\x22allow\x22:\x7b\x22objects\x22:\x22x*\x22\x7d\x7d]\x7d"

def sampleFile : PolicyFile :=
  ⟨[⟨some ⟨none, none, "x*"⟩, some ⟨none, none, "xy"⟩⟩]⟩

theorem fromStr_sampleYaml : SerdeYaml.fromStr sampleYaml = .ok sampleFile := by
  decide +kernel

/-- The same entries as JSON. -/
def sampleJson : Value :=
  .object [("rules", .array
    [.object [("effect", .string "Allow"), ("objects", .string "x*")],
      .object [("effect", .string "Deny"), ("objects", .string "xy")]])]

/-- The document loads, twice in a row and as JSON, and the entries decide in
any order. -/
theorem allows_loaded_iff_sample :
    ∃ engine, (PolicyEngine.new.parseYaml sampleYaml).2.parseYaml sampleYaml = (.ok (), engine) ∧
      (∀ ks pubkey objectId, engine.allows ks pubkey objectId = true ↔
        Permits sampleEntries.reverse ks pubkey objectId) ∧
      ∃ engine', PolicyEngine.fromJson sampleJson = .ok engine' := by
  have hfile : SerdeYaml.fromStr sampleYaml = .ok sampleFile := fromStr_sampleYaml
  have hentries : sampleFile.entries = sampleEntries := rfl
  obtain ⟨engine₁, hfirst⟩ : ∃ engine,
      PolicyEngine.new.parseYaml sampleYaml = (.ok (), engine) := by
    rw [PolicyEngine.parseYaml_of_file hfile]
    exact ⟨_, rfl⟩
  obtain ⟨engine₂, hsecond⟩ : ∃ engine, engine₁.parseYaml sampleYaml = (.ok (), engine) := by
    rw [PolicyEngine.parseYaml_of_file hfile]
    exact ⟨_, rfl⟩
  have hloaded := (PolicyEngine.LoadedFrom.new.parseYaml hfile hfirst).parseYaml hfile hsecond
  obtain ⟨hmeaning, hsame⟩ := PolicyEngine.allows_loaded_iff
  refine ⟨engine₂, by rw [hfirst, hsecond], hmeaning engine₂ _ _ hloaded ?_, ?_⟩
  · intro entry
    simp [hentries]
  · obtain ⟨hparse, hjson⟩ := hsame sampleYaml sampleFile sampleJson ⟨sampleEntries⟩ hfile rfl rfl
    exact hjson.mp (hparse.mpr (by rw [hfirst]))

end

end MeldaSec
