import MeldaSec.Authorisation

/-!
# One rule more

What a further rule does to the decisions of an adapter.  One engine is
within another one when everything that it allows is allowed there too, and
this depends on the two sets of rules: more allow rules and fewer deny rules
allow more.  An adapter with the larger engine has more authorised endorsers
for every delta, and the voting rules are monotone, so it reads and writes at
least as much (`widens_of_within`).  `addRule_monotone` puts this together
for the two effects of `add_rule`.
-/

namespace MeldaSec

open Rust

variable [Crates]

/-! ## What the engine allows -/

namespace PolicyEngine

/-- Everything that the first engine allows, the second one allows. -/
def Within (ks : KeyStore) (engine engine' : PolicyEngine) : Prop :=
  ∀ pubkey objectId, engine.allows ks pubkey objectId = true →
    engine'.allows ks pubkey objectId = true

/-- Further allow rules and dropped deny rules never take a permission away,
wherever they stand among the others. -/
theorem within_of_rules {ks : KeyStore} {engine engine' : PolicyEngine}
    (hallow : ∀ r ∈ engine.rules, r.effect = .allow → r ∈ engine'.rules)
    (hdeny : ∀ r ∈ engine'.rules, r.effect = .deny → r ∈ engine.rules) :
    Within ks engine engine' := by
  intro pubkey objectId h
  rw [allows_iff] at h ⊢
  obtain ⟨⟨r, hr, heffect, hmatch⟩, hnone⟩ := h
  constructor
  · exact ⟨r, hallow r hr heffect, heffect, hmatch⟩
  · intro ⟨d, hd, heffect, hmatch⟩
    exact hnone ⟨d, hdeny d hd heffect, heffect, hmatch⟩

/-- `add_rule` appends a rule with the given effect, or changes nothing. -/
theorem addRule_rules (engine : PolicyEngine) (pubkey : Option Bytes) (role : Option String)
    (pattern : String) (effect : RuleEffect) :
    ∃ rules : List Rule, (∀ r ∈ rules, r.effect = effect) ∧
      (engine.addRule pubkey role pattern effect).2
        = { engine with rules := engine.rules ++ rules } := by
  rcases engine.addRule_cases pubkey role pattern effect with
    ⟨e, herr⟩ | ⟨glob, matcher, -, -, hpush⟩
  · rw [herr]
    exact ⟨[], by simp, by simp⟩
  · rw [hpush]
    exact ⟨[⟨pubkey, role, matcher, pattern, effect⟩], by simp, rfl⟩

/-- An allow rule denies nothing. -/
theorem within_addRule_allow (ks : KeyStore) (engine : PolicyEngine) (pubkey : Option Bytes)
    (role : Option String) (pattern : String) :
    Within ks engine (engine.addRule pubkey role pattern .allow).2 := by
  obtain ⟨rules, heffect, hadd⟩ := engine.addRule_rules pubkey role pattern .allow
  rw [hadd]
  apply within_of_rules
  · intro r hr _
    exact List.mem_append_left _ hr
  · intro r hr hdeny
    rcases List.mem_append.mp hr with hr | hr
    · exact hr
    · simp [heffect r hr] at hdeny

/-- A deny rule allows nothing. -/
theorem within_addRule_deny (ks : KeyStore) (engine : PolicyEngine) (pubkey : Option Bytes)
    (role : Option String) (pattern : String) :
    Within ks (engine.addRule pubkey role pattern .deny).2 engine := by
  obtain ⟨rules, heffect, hadd⟩ := engine.addRule_rules pubkey role pattern .deny
  rw [hadd]
  apply within_of_rules
  · intro r hr hallow
    rcases List.mem_append.mp hr with hr | hr
    · exact hr
    · simp [heffect r hr] at hallow
  · intro r hr _
    exact List.mem_append_left _ hr

end PolicyEngine

/-! ## What the adapter accepts -/

namespace TrustAdapter

variable {A : Type} [Adapter A] [SerdeSlice EndorsementRecord]

/-- The second adapter returns every delta that the first one returns, and
takes every write that the first one takes. -/
structure Widens (t t' : TrustAdapter A) : Prop where
  read : ∀ key data, t.readObject key 0 0 = .ok data → t'.readObject key 0 0 = .ok data
  write : ∀ key data, (t.writeObject key data).1 = .ok () → (t'.writeObject key data).1 = .ok ()

section

variable {t : TrustAdapter A} {policy : PolicyEngine}
  (h : PolicyEngine.Within t.keystore t.policy policy)
include h

omit [Adapter A] [SerdeSlice EndorsementRecord] in
theorem Authorises.mono {data : Bytes} {vk : VerifyingKey} (hauth : t.Authorises data vk) :
    (t.setPolicy policy).Authorises data vk := by
  intro id hid
  exact h _ _ (hauth id hid)

theorem authorisedEndorsers_subset_setPolicy (deltaId : DeltaId) (data : Bytes) :
    t.authorisedEndorsers deltaId data ⊆ (t.setPolicy policy).authorisedEndorsers deltaId data := by
  intro vk hvk
  rw [mem_authorisedEndorsers] at hvk ⊢
  exact ⟨hvk.1, hvk.2.1, hvk.2.2.mono h⟩

/-- The count of endorsers grows, and stays below the number of trusted keys,
so that also the equality of the unanimous mode is kept. -/
theorem Admits.setPolicy {deltaId : DeltaId} {data : Bytes} (hadmits : t.Admits deltaId data) :
    (t.setPolicy policy).Admits deltaId data := by
  refine ⟨hadmits.1, fun hgated => ?_⟩
  obtain ⟨hlist, hclean, hquorum⟩ := hadmits.2 hgated
  refine ⟨hlist, hclean, ?_⟩
  have hcard := Finset.card_le_card (authorisedEndorsers_subset_setPolicy h deltaId data)
  exact t.endorsementMode.rule_monotone hcard (card_authorisedEndorsers_le _ _ _) hquorum

theorem readObject_setPolicy {key : String} {data : Bytes}
    (hread : t.readObject key 0 0 = .ok data) :
    (t.setPolicy policy).readObject key 0 0 = .ok data := by
  by_cases hkey : endsWith key ".delta" = true
  · rw [readObject_eq_ok_iff hkey] at hread ⊢
    obtain ⟨hdata, deltaId, hid, hadmits⟩ := hread
    exact ⟨hdata, deltaId, hid, hadmits.setPolicy h⟩
  · -- Other objects do not get to the policy.
    rw [Bool.not_eq_true] at hkey
    have hsame : (t.setPolicy policy).readObject key 0 0 = t.readObject key 0 0 := by
      simp only [readObject, hkey, Bool.not_false, Bool.true_or, if_true]
      rfl
    rw [hsame, hread]

omit [SerdeSlice EndorsementRecord] in
theorem writeObject_setPolicy (hstrict : policy.strictWrite = t.policy.strictWrite)
    {key : String} {data : Bytes} (hwrite : (t.writeObject key data).1 = .ok ()) :
    ((t.setPolicy policy).writeObject key data).1 = .ok () := by
  rw [writeObject_eq_ok_iff, checkWrite_iff] at hwrite ⊢
  obtain ⟨hcheck, hinner⟩ := hwrite
  refine ⟨fun hon hkey => ?_, hinner⟩
  obtain ⟨sk, hsk, hauth⟩ := hcheck (hstrict.symm.trans hon) hkey
  exact ⟨sk, hsk, hauth.mono h⟩

/-- An engine that allows more makes an adapter that accepts more. -/
theorem widens_of_within (hstrict : policy.strictWrite = t.policy.strictWrite) :
    t.Widens (t.setPolicy policy) where
  read _ _ := readObject_setPolicy h
  write _ _ := writeObject_setPolicy h hstrict

end

/-- An allow rule keeps every delta readable and every write accepted that
was so before, and a deny rule makes no delta readable and no write accepted
that was not so before. -/
theorem addRule_monotone (t : TrustAdapter A) (pubkey : Option Bytes) (role : Option String)
    (pattern : String) :
    t.Widens (t.setPolicy (t.policy.addRule pubkey role pattern .allow).2) ∧
      (t.setPolicy (t.policy.addRule pubkey role pattern .deny).2).Widens t := by
  have hstrict : ∀ effect, (t.policy.addRule pubkey role pattern effect).2.strictWrite
      = t.policy.strictWrite := by
    intro effect
    obtain ⟨rules, -, hadd⟩ := t.policy.addRule_rules pubkey role pattern effect
    rw [hadd]
  constructor
  · apply widens_of_within _ (hstrict .allow)
    exact PolicyEngine.within_addRule_allow t.keystore t.policy pubkey role pattern
  · have hdeny := PolicyEngine.within_addRule_deny t.keystore t.policy pubkey role pattern
    exact widens_of_within (t := t.setPolicy (t.policy.addRule pubkey role pattern .deny).2)
      hdeny (hstrict .deny).symm

end TrustAdapter

end MeldaSec
