import Mathlib.Logic.Relation
import Mathlib.Logic.Function.Basic
import Mathlib.Data.Set.Insert

/-!
# Interleaved calls that check and then write

Calls run over one shared store.  Each of them takes two steps: it checks the
store, and, unless the check says that there is nothing to do, it writes.
Other calls can take steps in between, so a write does not see what its check
saw.

`invariant_of_run` is the proof rule.  Its invariant relates the store to the
set of the finished calls, and the two premises are about the two steps of
one call: a check finds nothing to do only when the call may count as
finished, and a write finishes it, whatever the store has become since the
check.  A run then keeps the invariant, and no call in it fails.
-/

namespace Interleave

/-- A call over a store: the check fails, or says whether there is nothing
to do; the write says whether it succeeded, and leaves a store behind. -/
structure Routine (σ : Type*) where
  check : σ → Option Bool
  write : σ → Bool × σ

/-- How far a call has come. -/
inductive Phase where
  | ready
  | checked
  | done
  | failed
  deriving DecidableEq

/-- The store and the phase of every call. -/
structure State (ι σ : Type*) where
  store : σ
  phase : ι → Phase

variable {ι σ : Type*}

/-- The phase behind a check. -/
def Phase.afterCheck : Option Bool → Phase
  | none => .failed
  | some true => .done
  | some false => .checked

/-- The phase behind a write. -/
def Phase.afterWrite : Bool → Phase
  | true => .done
  | false => .failed

/-- A call has returned when it has written. -/
theorem Phase.afterWrite_returned (ok : Bool) :
    afterWrite ok ≠ .ready ∧ afterWrite ok ≠ .checked := by
  cases ok <;> simp [afterWrite]

/-- A call on its own: the check, and then the write on the same store. -/
def Routine.run (routine : Routine σ) (store : σ) : Bool × σ :=
  match routine.check store with
  | none => (false, store)
  | some true => (true, store)
  | some false => routine.write store

/-- No call has started. -/
def State.start (store : σ) : State ι σ := ⟨store, fun _ => .ready⟩

section

variable [DecidableEq ι]

/-- Call `i` checks the store. -/
def State.check (s : State ι σ) (routine : ι → Routine σ) (i : ι) : State ι σ :=
  ⟨s.store, Function.update s.phase i (.afterCheck ((routine i).check s.store))⟩

/-- Call `i` writes. -/
def State.write (s : State ι σ) (routine : ι → Routine σ) (i : ι) : State ι σ :=
  ⟨((routine i).write s.store).2,
    Function.update s.phase i (.afterWrite ((routine i).write s.store).1)⟩

/-- One step of any call that has not finished. -/
inductive Step (routine : ι → Routine σ) : State ι σ → State ι σ → Prop where
  | check {s : State ι σ} (i : ι) : s.phase i = .ready → Step routine s (s.check routine i)
  | write {s : State ι σ} (i : ι) : s.phase i = .checked → Step routine s (s.write routine i)

/-- A run: any number of steps in any order. -/
abbrev Run (routine : ι → Routine σ) : State ι σ → State ι σ → Prop :=
  Relation.ReflTransGen (Step routine)

/-- The invariant of the finished calls and the store, and no failed call. -/
structure Keeps (inv : Set ι → σ → Prop) (s : State ι σ) : Prop where
  inv : inv {i | s.phase i = .done} s.store
  not_failed : ∀ i, s.phase i ≠ .failed

/-- When call `i` finishes, it joins the finished ones. -/
theorem setOf_done_update (phase : ι → Phase) (i : ι) :
    {j | Function.update phase i .done j = .done} = insert i {j | phase j = .done} := by
  ext j
  by_cases hj : j = i
  · simp [hj]
  · simp [hj]

/-- When call `i` goes on, the finished calls are as before. -/
theorem setOf_done_update_checked {phase : ι → Phase} {i : ι} (hi : phase i = .ready) :
    {j | Function.update phase i .checked j = .done} = {j | phase j = .done} := by
  ext j
  by_cases hj : j = i
  · simp [hj, hi]
  · simp [hj]

theorem not_failed_update {phase : ι → Phase} (h : ∀ j, phase j ≠ .failed) (i : ι)
    {next : Phase} (hnext : next ≠ .failed) :
    ∀ j, Function.update phase i next j ≠ .failed := by
  intro j
  by_cases hj : j = i
  · simpa [hj] using hnext
  · simpa [hj] using h j

variable {routine : ι → Routine σ} {inv : Set ι → σ → Prop}
  (hcheck : ∀ finished store i, inv finished store →
    ∃ answer, (routine i).check store = some answer ∧
      (answer = true → inv (insert i finished) store))
  (hwrite : ∀ finished store i, inv finished store →
    ((routine i).write store).1 = true ∧ inv (insert i finished) ((routine i).write store).2)
include hcheck hwrite

/-- One step keeps the invariant. -/
theorem Keeps.step {s s' : State ι σ} (h : Keeps inv s) (hstep : Step routine s s') :
    Keeps inv s' := by
  cases hstep with
  | check i hi =>
    obtain ⟨answer, hanswer, hdone⟩ := hcheck _ _ i h.inv
    cases answer with
    | true =>
      refine ⟨?_, ?_⟩ <;> simp only [State.check, hanswer, Phase.afterCheck]
      · rw [setOf_done_update]
        exact hdone rfl
      · exact not_failed_update h.not_failed i (by simp)
    | false =>
      refine ⟨?_, ?_⟩ <;> simp only [State.check, hanswer, Phase.afterCheck]
      · rw [setOf_done_update_checked hi]
        exact h.inv
      · exact not_failed_update h.not_failed i (by simp)
  | write i hi =>
    obtain ⟨hok, hinv⟩ := hwrite _ _ i h.inv
    refine ⟨?_, ?_⟩ <;> simp only [State.write, hok, Phase.afterWrite]
    · rw [setOf_done_update]
      exact hinv
    · exact not_failed_update h.not_failed i (by simp)

/-- Every run from a start that has the invariant keeps it. -/
theorem invariant_of_run {store : σ} (hstart : inv ∅ store) {s : State ι σ}
    (hrun : Run routine (State.start store) s) : Keeps inv s := by
  induction hrun with
  | refl => exact ⟨by simpa [State.start] using hstart, by simp [State.start]⟩
  | tail _ hstep ih => exact ih.step hcheck hwrite hstep

end

end Interleave
