import MeldaSec.Lib.Atomicity
import Mathlib.Data.Set.Lattice
import Mathlib.Order.CompletePartialOrder

/-!
# Calls among other changes of the store

In `MeldaSec.Lib.Atomicity` only calls use the store.  Here an environment that
makes no calls changes it as well, between any two accesses of any calls.

What a call can rely on is an invariant `R` of the store and of a value that
only grows.  `Guarantees R Q p` says that the program keeps the invariant and
returns only what `Q` allows, whatever the store becomes between two accesses
while the invariant holds.  In a run the growing value is the set of the calls
that have started, so the environment may do more and more, and
`upholds_of_openRun` is the rule for whole runs.
-/

namespace Atomicity

variable {σ α α' τ ι : Type*}

/-! ## One call -/

section

variable [Preorder τ]

/-- The program keeps `R`, and what it returns satisfies `Q`. -/
def Guarantees (R : σ → τ → Prop) (Q : α → τ → Prop) : Program σ α → τ → Prop
  | .done a, t => Q a t
  | .access next effect, t =>
    ∀ t' s, t ≤ t' → R s t' → R (effect s) t' ∧ Guarantees R Q (next s) t'

variable {R : σ → τ → Prop} {P : α' → τ → Prop} {Q : α → τ → Prop}

theorem Guarantees.mono (hQ : ∀ a t t', t ≤ t' → Q a t → Q a t') {p : Program σ α} {t t' : τ}
    (h : Guarantees R Q p t) (ht : t ≤ t') : Guarantees R Q p t' := by
  cases p with
  | done a => exact hQ a t t' ht h
  | access next effect => exact fun t'' s ht' => h t'' s (ht.trans ht')

theorem Guarantees.imp {Q Q' : α → τ → Prop} (hQ : ∀ a t, Q a t → Q' a t) {p : Program σ α}
    {t : τ} (h : Guarantees R Q p t) : Guarantees R Q' p t := by
  induction p generalizing t with
  | done a => exact hQ a t h
  | access next effect ih =>
    intro t' s ht hs
    obtain ⟨hkept, hnext⟩ := h t' s ht hs
    exact ⟨hkept, ih s hnext⟩

/-- The second part starts from what the first one guarantees. -/
theorem Guarantees.andThen {p : Program σ α'} {t : τ} (h : Guarantees R P p t)
    {f : α' → Program σ α} (hf : ∀ a t', t ≤ t' → P a t' → Guarantees R Q (f a) t') :
    Guarantees R Q (p.andThen f) t := by
  induction p generalizing t with
  | done a => exact hf a t le_rfl h
  | access next effect ih =>
    intro t' s ht hs
    obtain ⟨hkept, hnext⟩ := h t' s ht hs
    exact ⟨hkept, ih s hnext fun a t'' ht' => hf a t'' (ht.trans ht')⟩

end

/-! ## Runs -/

/-- The calls that have started. -/
def State.started (s : State ι σ α) : Set ι := {i | s.thread i ≠ .waiting}

section

variable [DecidableEq ι]

/-- A step of a call, or a change of the store by the environment, which knows
which calls have started. -/
inductive OpenStep (program : ι → Program σ α) (env : Set ι → σ → σ → Prop) :
    State ι σ α → State ι σ α → Prop where
  | call {s s' : State ι σ α} : Step program s s' → OpenStep program env s s'
  | change {s : State ι σ α} (store : σ) : env s.started s.store store →
    OpenStep program env s ⟨store, s.thread⟩

/-- Any number of such steps in any order. -/
abbrev OpenRun (program : ι → Program σ α) (env : Set ι → σ → σ → Prop) :
    State ι σ α → State ι σ α → Prop :=
  Relation.ReflTransGen (OpenStep program env)

/-- A run of calls is a run in an environment that does nothing. -/
theorem Run.openRun {program : ι → Program σ α} (env : Set ι → σ → σ → Prop)
    {s s' : State ι σ α} (hrun : Run program s s') : OpenRun program env s s' :=
  Relation.ReflTransGen.mono (fun _ _ => OpenStep.call) s s' hrun

/-- A call makes its first access, the environment changes the store, and the
rest of the call is not interrupted any more. -/
theorem openRun_of_change {program : ι → Program σ α} {env : Set ι → σ → σ → Prop}
    {s : State ι σ α} {i : ι} (hi : s.thread i = .waiting) {next : σ → Program σ α}
    {effect : σ → σ} (hprogram : program i = .access next effect) {store : σ}
    (henv : ∀ started, env started (effect s.store) store) :
    OpenRun program env s ⟨((next s.store).eval store).2,
      Function.update s.thread i (.running (.done ((next s.store).eval store).1))⟩ := by
  have hstart : Step program s _ := .start i hi
  have hfirst : (State.mk s.store (Function.update s.thread i (.running (program i)))).thread i
      = .running (.access next effect) := by
    rw [← hprogram]
    exact Function.update_self i _ s.thread
  have haccess : Step program _ _ := .access i hfirst
  have hnext : (State.mk store
      (Function.update s.thread i (.running (next s.store)))).thread i
        = .running (next s.store) := Function.update_self i _ s.thread
  have hrest := (run_alone program hnext).openRun env
  simp only [Function.update_idem] at haccess hrest
  have hrun : OpenRun program env s _ := (Relation.ReflTransGen.single (.call hstart)).tail
    (.call haccess)
  exact (hrun.tail (.change store (henv _))).trans hrest

/-- A call that goes on has started, and the others are as before. -/
theorem started_subset_update (s : State ι σ α) (store : σ) (i : ι) (p : Program σ α) :
    s.started ⊆ State.started ⟨store, Function.update s.thread i (.running p)⟩ := by
  intro j hj hwaiting
  simp only at hwaiting
  by_cases hij : j = i
  · rw [hij, Function.update_self] at hwaiting
    cases hwaiting
  · rw [Function.update_of_ne hij] at hwaiting
    exact hj hwaiting

/-- The invariant holds, and the running calls guarantee what they return. -/
structure Upholds (R : σ → Set ι → Prop) (Q : ι → α → Set ι → Prop) (s : State ι σ α) :
    Prop where
  store : R s.store s.started
  thread : ∀ i p, s.thread i = .running p → Guarantees R (Q i) p s.started

variable {R : σ → Set ι → Prop} {Q : ι → α → Set ι → Prop} {program : ι → Program σ α}
  {env : Set ι → σ → σ → Prop}

omit [DecidableEq ι] in
theorem upholds_start {store : σ} (h : R store ∅) : Upholds R Q (State.start store) := by
  constructor
  · have hnone : State.started (State.start store : State ι σ α) = ∅ := by
      apply Set.eq_empty_of_forall_notMem
      intro i hi
      exact hi rfl
    rw [hnone]
    exact h
  · intro i p hi
    cases hi

omit [DecidableEq ι] in
/-- What a call has returned satisfies its guarantee. -/
theorem Upholds.returned {s : State ι σ α} (h : Upholds R Q s) {i : ι} {a : α}
    (hi : s.thread i = .running (.done a)) : Q i a s.started :=
  h.thread i (.done a) hi

variable (hQ : ∀ i a t t', t ⊆ t' → Q i a t → Q i a t')
include hQ

/-- One call goes on, and the others see that more calls have started. -/
theorem Upholds.update {s : State ι σ α} (h : Upholds R Q s) {store : σ} {i : ι}
    {p : Program σ α}
    (hstore : R store (State.started ⟨store, Function.update s.thread i (.running p)⟩))
    (hp : Guarantees R (Q i) p
      (State.started ⟨store, Function.update s.thread i (.running p)⟩)) :
    Upholds R Q ⟨store, Function.update s.thread i (.running p)⟩ := by
  refine ⟨hstore, fun j q hj => ?_⟩
  simp only at hj
  by_cases hij : j = i
  · subst hij
    rw [Function.update_self] at hj
    rw [← Thread.running.inj hj]
    exact hp
  · rw [Function.update_of_ne hij] at hj
    exact (h.thread j q hj).mono (hQ j) (started_subset_update s store i p)

variable (hR : ∀ s t t', t ⊆ t' → R s t → R s t')
  (hcall : ∀ i t, i ∈ t → Guarantees R (Q i) (program i) t)
  (henv : ∀ t s s', R s t → env t s s' → R s' t)
include hR hcall henv

theorem Upholds.step {s s' : State ι σ α} (h : Upholds R Q s)
    (hstep : OpenStep program env s s') : Upholds R Q s' := by
  cases hstep with
  | change store henv' =>
    exact ⟨henv s.started s.store store h.store henv', h.thread⟩
  | call hstep =>
    cases hstep with
    | start i hi =>
      apply h.update hQ
      · exact hR _ _ _ (started_subset_update s _ i _) h.store
      · apply hcall
        intro hwaiting
        simp only [Function.update_self] at hwaiting
        cases hwaiting
    | access i hi =>
      have hthread := h.thread i _ hi
      obtain ⟨hkept, hnext⟩ := hthread s.started s.store le_rfl h.store
      apply h.update hQ
      · exact hR _ _ _ (started_subset_update s _ i _) hkept
      · exact hnext.mono (hQ i) (started_subset_update s _ i _)

/-- When every call guarantees its answers once it has started, and the
environment keeps the invariant, so does every run. -/
theorem upholds_of_openRun {s s' : State ι σ α} (h : Upholds R Q s)
    (hrun : OpenRun program env s s') : Upholds R Q s' := by
  induction hrun with
  | refl => exact h
  | tail _ hstep ih => exact ih.step hQ hR hcall henv hstep

end

end Atomicity
