import Mathlib.Data.List.Induction
import Mathlib.Data.List.Nodup
import Mathlib.Logic.Relation
import Mathlib.Logic.Function.Basic
import Mathlib.Order.Basic
import Mathlib.Tactic.Choose

/-!
# Calls of several accesses that look like one

A call over a shared store is a `Program`: it accesses the store one access at
a time, and other calls run between two of its accesses.  Such calls look
atomic when every run of them has an explanation, which is a run where each
call happens at one moment between its start and its return.

The explanation is about an abstract value and not about the store.  `R`
relates the two, `S` compares the returned values, and the abstract value only
grows.  The premises are about one call at a time: before its moment it is
`Pending`, and behind it is `Committed` to what it will return, whatever the
other calls do.  `exists_atomicRun` is the rule for a run from one state to
another, and `exists_order` the one for all the states of a run: the calls have
one order, which grows along the run and explains every state of it.
-/

namespace Atomicity

universe u v

/-- A call that has returned, or its next access to the store, with the rest
of the call and the effect of the access. -/
inductive Program (σ : Type u) (α : Type v) where
  | done (a : α)
  | access (next : σ → Program σ α) (effect : σ → σ)

variable {σ α α' β β' τ ι : Type*}

namespace Program

/-- The call on its own: each access sees what the one before it left. -/
def eval : Program σ α → σ → α × σ
  | .done a, s => (a, s)
  | .access next effect, s => (next s).eval (effect s)

/-- One program after the other. -/
def andThen : Program σ α → (α → Program σ α') → Program σ α'
  | .done a, f => f a
  | .access next effect, f => .access (fun s => (next s).andThen f) effect

@[simp] theorem eval_done (a : α) (s : σ) : (done a).eval s = (a, s) := rfl

theorem eval_access (next : σ → Program σ α) (effect : σ → σ) (s : σ) :
    (access next effect).eval s = (next s).eval (effect s) := rfl

theorem andThen_assoc (p : Program σ α) (f : α → Program σ α') (g : α' → Program σ β) :
    (p.andThen f).andThen g = p.andThen fun a => (f a).andThen g := by
  induction p with
  | done a => rfl
  | access next effect ih =>
    simp only [andThen]
    exact congrArg (access · effect) (funext ih)

theorem eval_andThen (p : Program σ α) (f : α → Program σ α') (s : σ) :
    (p.andThen f).eval s = (f (p.eval s).1).eval (p.eval s).2 := by
  induction p generalizing s with
  | done a => rfl
  | access next effect ih => exact ih s (effect s)

end Program

/-! ## One call -/

section

variable [Preorder τ]

/-- The call returns what matches `b`, whatever the abstract value grows to
in the meantime. -/
def Committed (R : σ → τ → Prop) (S : α → β → Prop) : Program σ α → β → τ → Prop
  | .done a, b, _ => S a b
  | .access next effect, b, t =>
    ∀ t' s, t ≤ t' → R s t' → R (effect s) t' ∧ Committed R S (next s) b t'

/-- The call has not happened yet.  At its next access it still has not, or it
happens: the abstract value changes as `spec` says, and the call is committed
to the answer of `spec`. -/
def Pending (R : σ → τ → Prop) (S : α → β → Prop) (spec : τ → β × τ) : Program σ α → τ → Prop
  | .done _, _ => False
  | .access next effect, t =>
    ∀ t' s, t ≤ t' → R s t' →
      (R (effect s) t' ∧ Pending R S spec (next s) t') ∨
        (R (effect s) (spec t').2 ∧ Committed R S (next s) (spec t').1 (spec t').2)

variable {R : σ → τ → Prop} {S : α → β → Prop} {spec : τ → β × τ}

theorem Committed.mono {p : Program σ α} {b : β} {t t' : τ} (h : Committed R S p b t)
    (ht : t ≤ t') : Committed R S p b t' := by
  cases p with
  | done a => exact h
  | access next effect => exact fun t'' s ht' => h t'' s (ht.trans ht')

theorem Pending.mono {p : Program σ α} {t t' : τ} (h : Pending R S spec p t) (ht : t ≤ t') :
    Pending R S spec p t' := by
  cases p with
  | done a => exact h
  | access next effect => exact fun t'' s ht' => h t'' s (ht.trans ht')

/-- A committed call that nobody interrupts returns what it is committed to. -/
theorem Committed.eval {p : Program σ α} {b : β} {t : τ} {s : σ} (h : Committed R S p b t)
    (hs : R s t) : S (p.eval s).1 b := by
  induction p generalizing s t with
  | done a => exact h
  | access next effect ih =>
    obtain ⟨hrel, hnext⟩ := h t s le_rfl hs
    exact ih s hnext hrel

/-- A first part that is committed to `a` goes on with the second part for `a`. -/
theorem Committed.andThen {p : Program σ α'} {a : α'} {t : τ}
    (h : Committed R (· = ·) p a t) {f : α' → Program σ α} {b : β}
    (hf : ∀ t', t ≤ t' → Committed R S (f a) b t') : Committed R S (p.andThen f) b t := by
  induction p generalizing t with
  | done a' =>
    obtain rfl : a' = a := h
    exact hf t le_rfl
  | access next effect ih =>
    intro t' s ht hs
    obtain ⟨hrel, hnext⟩ := h t' s ht hs
    exact ⟨hrel, ih s hnext fun t'' ht' => hf t'' (ht.trans ht')⟩

end

/-! ## Runs -/

/-- A call that has not started, or what is left of it. -/
inductive Thread (σ : Type u) (α : Type v) where
  | waiting
  | running (p : Program σ α)

/-- The shared store and the calls. -/
structure State (ι σ α : Type*) where
  store : σ
  thread : ι → Thread σ α

/-- The abstract value, and the answers of the calls that have happened. -/
structure History (ι τ β : Type*) where
  value : τ
  answer : ι → Option β

/-- No call has started. -/
def State.start (store : σ) : State ι σ α := ⟨store, fun _ => .waiting⟩

/-- No call has happened. -/
def History.start (value : τ) : History ι τ β := ⟨value, fun _ => none⟩

section

variable [DecidableEq ι]

/-- A call starts, or it makes its next access. -/
inductive Step (program : ι → Program σ α) : State ι σ α → State ι σ α → Prop where
  | start {s : State ι σ α} (i : ι) : s.thread i = .waiting →
    Step program s ⟨s.store, Function.update s.thread i (.running (program i))⟩
  | access {s : State ι σ α} (i : ι) {next : σ → Program σ α} {effect : σ → σ} :
    s.thread i = .running (.access next effect) →
    Step program s ⟨effect s.store, Function.update s.thread i (.running (next s.store))⟩

/-- Any number of steps of any calls in any order. -/
abbrev Run (program : ι → Program σ α) : State ι σ α → State ι σ α → Prop :=
  Relation.ReflTransGen (Step program)

/-- A call that nobody interrupts any more returns what it evaluates to. -/
theorem run_alone (program : ι → Program σ α) {i : ι} {p : Program σ α} {s : State ι σ α}
    (hi : s.thread i = .running p) :
    Run program s ⟨(p.eval s.store).2,
      Function.update s.thread i (.running (.done (p.eval s.store).1))⟩ := by
  induction p generalizing s with
  | done a =>
    have hsame : Function.update s.thread i (.running (.done a)) = s.thread := by
      rw [← hi, Function.update_eq_self]
    rw [Program.eval_done, hsame]
  | access next effect ih =>
    have hnext : (State.mk (effect s.store)
        (Function.update s.thread i (.running (next s.store)))).thread i
          = .running (next s.store) := Function.update_self i _ s.thread
    have hrun := ih s.store hnext
    simp only [Function.update_idem] at hrun
    exact .head (.access i hi) hrun

/-- The state behind a call that is not interrupted. -/
def State.afterCall (program : ι → Program σ α) (s : State ι σ α) (i : ι) : State ι σ α :=
  ⟨((program i).eval s.store).2,
    Function.update s.thread i (.running (.done ((program i).eval s.store).1))⟩

theorem State.afterCall_self (program : ι → Program σ α) (s : State ι σ α) (i : ι) :
    (s.afterCall program i).thread i = .running (.done ((program i).eval s.store).1) :=
  Function.update_self i _ s.thread

theorem State.afterCall_of_ne (program : ι → Program σ α) (s : State ι σ α) {i j : ι}
    (h : j ≠ i) : (s.afterCall program i).thread j = s.thread j :=
  Function.update_of_ne h _ _

theorem run_afterCall (program : ι → Program σ α) {i : ι} {s : State ι σ α}
    (hi : s.thread i = .waiting) : Run program s (s.afterCall program i) := by
  have hnext : (State.mk s.store (Function.update s.thread i (.running (program i)))).thread i
      = .running (program i) := Function.update_self i _ s.thread
  have hrun := run_alone program hnext
  simp only [Function.update_idem] at hrun
  exact .head (.start i hi) hrun

/-- In every state, every call can return. -/
theorem exists_run_returned (program : ι → Program σ α) (s : State ι σ α) (i : ι) :
    ∃ s' a, Run program s s' ∧ s'.thread i = .running (.done a) := by
  cases hi : s.thread i with
  | waiting => exact ⟨_, _, run_afterCall program hi, s.afterCall_self program i⟩
  | running p => exact ⟨_, _, run_alone program hi, Function.update_self i _ s.thread⟩

/-- The call happens. -/
def History.perform (spec : ι → τ → β × τ) (h : History ι τ β) (i : ι) : History ι τ β :=
  ⟨(spec i h.value).2, Function.update h.answer i (some (spec i h.value).1)⟩

theorem History.answer_perform (spec : ι → τ → β × τ) (h : History ι τ β) (i j : ι) :
    (h.perform spec j).answer i = if i = j then some (spec j h.value).1 else h.answer i :=
  Function.update_apply _ _ _ _

/-- A call happens at one moment. -/
inductive AtomicStep (spec : ι → τ → β × τ) : History ι τ β → History ι τ β → Prop where
  | call {h : History ι τ β} (i : ι) : h.answer i = none → AtomicStep spec h (h.perform spec i)

/-- One call after the other, each of them at most once. -/
abbrev AtomicRun (spec : ι → τ → β × τ) : History ι τ β → History ι τ β → Prop :=
  Relation.ReflTransGen (AtomicStep spec)

/-- The calls happen in this order. -/
def History.ofOrder (spec : ι → τ → β × τ) (value : τ) (order : List ι) : History ι τ β :=
  order.foldl (History.perform spec) (History.start value)

theorem History.ofOrder_concat (spec : ι → τ → β × τ) (value : τ) (order : List ι) (i : ι) :
    History.ofOrder spec value (order ++ [i])
      = (History.ofOrder spec value order).perform spec i :=
  List.foldl_concat _ _ _ _

/-- The calls of the order are those that have happened. -/
theorem History.answer_ofOrder_eq_none_iff (spec : ι → τ → β × τ) (value : τ) (order : List ι)
    (i : ι) : (History.ofOrder spec value order).answer i = none ↔ i ∉ order := by
  induction order using List.reverseRecOn with
  | nil => simp [History.ofOrder, History.start]
  | append_singleton order j ih =>
    rw [History.ofOrder_concat, History.answer_perform]
    by_cases hij : i = j
    · simp [hij]
    · simp [ih, hij]

/-- The calls of a run come behind those that have happened. -/
theorem AtomicRun.exists_order {spec : ι → τ → β × τ} {value : τ} {order : List ι}
    (hnodup : order.Nodup) {h : History ι τ β}
    (hrun : AtomicRun spec (History.ofOrder spec value order) h) :
    ∃ order' : List ι, order <+: order' ∧ order'.Nodup ∧
      h = History.ofOrder spec value order' := by
  induction hrun with
  | refl => exact ⟨order, List.prefix_refl _, hnodup, rfl⟩
  | tail _ hstep ih =>
    obtain ⟨order', hprefix, hnodup', rfl⟩ := ih
    obtain ⟨i, hi⟩ := hstep
    rw [History.answer_ofOrder_eq_none_iff] at hi
    refine ⟨order' ++ [i], hprefix.trans (List.prefix_append _ _), ?_, ?_⟩
    · rw [← List.concat_eq_append]
      exact hnodup'.concat hi
    · rw [History.ofOrder_concat]

/-- The states of a run that may go on for ever: each of them is followed by a
step, or by itself. -/
def IsTrace (program : ι → Program σ α) (trace : ℕ → State ι σ α) : Prop :=
  ∀ k, trace (k + 1) = trace k ∨ Step program (trace k) (trace (k + 1))

/-- The call takes its next step, if it has not returned. -/
def State.advance (program : ι → Program σ α) (s : State ι σ α) (i : ι) : State ι σ α :=
  match s.thread i with
  | .waiting => ⟨s.store, Function.update s.thread i (.running (program i))⟩
  | .running (.done _) => s
  | .running (.access next effect) =>
    ⟨effect s.store, Function.update s.thread i (.running (next s.store))⟩

/-- The states of a schedule, which names the call that takes the next step. -/
def State.follow (program : ι → Program σ α) (s : State ι σ α) (schedule : ℕ → ι) :
    ℕ → State ι σ α
  | 0 => s
  | k + 1 => (s.follow program schedule k).advance program (schedule k)

theorem isTrace_follow (program : ι → Program σ α) (s : State ι σ α) (schedule : ℕ → ι) :
    IsTrace program (s.follow program schedule) := by
  intro k
  rw [State.follow, State.advance]
  split
  · rename_i hi
    exact Or.inr (.start _ hi)
  · exact Or.inl rfl
  · rename_i hi
    exact Or.inr (.access _ hi)

end

/-! ## Explanations -/

section

variable [Preorder τ]

/-- A call that has not started has not happened, and a running call is
pending or committed. -/
def Accounts (R : σ → τ → Prop) (S : α → β → Prop) (spec : τ → β × τ) :
    Thread σ α → Option β → τ → Prop
  | .waiting, none, _ => True
  | .waiting, some _, _ => False
  | .running p, none, t => Pending R S spec p t
  | .running p, some b, t => Committed R S p b t

/-- The state is explained by the history. -/
structure Explains (R : σ → τ → Prop) (S : α → β → Prop) (spec : ι → τ → β × τ)
    (s : State ι σ α) (h : History ι τ β) : Prop where
  store : R s.store h.value
  thread : ∀ i, Accounts R S (spec i) (s.thread i) (h.answer i) h.value

variable {R : σ → τ → Prop} {S : α → β → Prop} {spec : ι → τ → β × τ}

theorem Accounts.mono {i : ι} {thread : Thread σ α} {answer : Option β} {t t' : τ}
    (h : Accounts R S (spec i) thread answer t) (ht : t ≤ t') :
    Accounts R S (spec i) thread answer t' := by
  cases thread with
  | waiting => cases answer <;> exact h
  | running p =>
    cases answer with
    | none => exact Pending.mono h ht
    | some b => exact Committed.mono h ht

theorem explains_start {store : σ} {value : τ} (h : R store value) :
    Explains R S spec (State.start store) (History.start value) :=
  ⟨h, fun _ => trivial⟩

/-- A call that has returned has happened, and its answer matches. -/
theorem Explains.exists_answer {s : State ι σ α} {h : History ι τ β}
    (hexpl : Explains R S spec s h) {i : ι} {a : α} (hi : s.thread i = .running (.done a)) :
    ∃ b, h.answer i = some b ∧ S a b := by
  have hthread := hexpl.thread i
  rw [hi] at hthread
  cases hanswer : h.answer i with
  | none =>
    rw [hanswer] at hthread
    exact hthread.elim
  | some b =>
    rw [hanswer] at hthread
    exact ⟨b, rfl, hthread⟩

/-- A call that has not started has not happened. -/
theorem Explains.answer_of_waiting {s : State ι σ α} {h : History ι τ β}
    (hexpl : Explains R S spec s h) {i : ι} (hi : s.thread i = .waiting) :
    h.answer i = none := by
  have hthread := hexpl.thread i
  rw [hi] at hthread
  cases hanswer : h.answer i with
  | none => rfl
  | some b =>
    rw [hanswer] at hthread
    exact hthread.elim

variable [DecidableEq ι]

/-- One call goes on, and the others see the abstract value grow. -/
theorem Explains.update {s : State ι σ α} {h : History ι τ β} (hexpl : Explains R S spec s h)
    {store : σ} {value : τ} (hstore : R store value) (hgrows : h.value ≤ value) {i : ι}
    {thread : Thread σ α} {answer : Option β} (hi : Accounts R S (spec i) thread answer value) :
    Explains R S spec ⟨store, Function.update s.thread i thread⟩
      ⟨value, Function.update h.answer i answer⟩ := by
  refine ⟨hstore, fun j => ?_⟩
  by_cases hj : j = i
  · subst hj
    simpa using hi
  · simpa [Function.update_of_ne hj] using (hexpl.thread j).mono hgrows

/-- The same for a call whose answer is the one that it had. -/
theorem Explains.update_thread {s : State ι σ α} {h : History ι τ β}
    (hexpl : Explains R S spec s h) {store : σ} (hstore : R store h.value) {i : ι}
    {thread : Thread σ α} (hi : Accounts R S (spec i) thread (h.answer i) h.value) :
    Explains R S spec ⟨store, Function.update s.thread i thread⟩ h := by
  have hupdate := hexpl.update hstore le_rfl hi
  rw [Function.update_eq_self] at hupdate
  exact hupdate

variable {program : ι → Program σ α} (hgrows : ∀ i t, t ≤ (spec i t).2)
  (hpending : ∀ i t, Pending R S (spec i) (program i) t)
include hgrows hpending

/-- A step is explained by a call that happens, or by none. -/
theorem Explains.step {s s' : State ι σ α} {h : History ι τ β} (hexpl : Explains R S spec s h)
    (hstep : Step program s s') : ∃ h', AtomicRun spec h h' ∧ Explains R S spec s' h' := by
  cases hstep with
  | start i hi =>
    refine ⟨h, .refl, hexpl.update_thread hexpl.store ?_⟩
    rw [hexpl.answer_of_waiting hi]
    exact hpending i h.value
  | access i hi =>
    have hthread := hexpl.thread i
    rw [hi] at hthread
    cases hanswer : h.answer i with
    | some b =>
      -- The call has happened: it keeps to its answer.
      rw [hanswer] at hthread
      obtain ⟨hrel, hnext⟩ := hthread h.value s.store le_rfl hexpl.store
      refine ⟨h, .refl, hexpl.update_thread hrel ?_⟩
      rw [hanswer]
      exact hnext
    | none =>
      rw [hanswer] at hthread
      rcases hthread h.value s.store le_rfl hexpl.store with ⟨hrel, hnext⟩ | ⟨hrel, hnext⟩
      · refine ⟨h, .refl, hexpl.update_thread hrel ?_⟩
        rw [hanswer]
        exact hnext
      · -- The call happens at this access.
        exact ⟨_, .single (.call i hanswer), hexpl.update hrel (hgrows i h.value) hnext⟩

/-- Every run is explained by calls that happen one after the other. -/
theorem exists_atomicRun {s s' : State ι σ α} {h : History ι τ β}
    (hexpl : Explains R S spec s h) (hrun : Run program s s') :
    ∃ h', AtomicRun spec h h' ∧ Explains R S spec s' h' := by
  induction hrun with
  | refl => exact ⟨h, .refl, hexpl⟩
  | tail _ hstep ih =>
    obtain ⟨h', hatomic, hexpl'⟩ := ih
    obtain ⟨h'', hatomic', hexpl''⟩ := hexpl'.step hgrows hpending hstep
    exact ⟨h'', hatomic.trans hatomic', hexpl''⟩

/-- One order of the calls explains every state of a run.  It grows along the
run, and so a call that has returned stands before those that start later. -/
theorem exists_order {trace : ℕ → State ι σ α} {value : τ}
    (hexpl : Explains R S spec (trace 0) (History.start value)) (htrace : IsTrace program trace) :
    ∃ order : ℕ → List ι, (∀ k, order k <+: order (k + 1)) ∧ (∀ k, (order k).Nodup) ∧
      ∀ k, Explains R S spec (trace k) (History.ofOrder spec value (order k)) := by
  have hnext : ∀ (k : ℕ) (order : List ι), order.Nodup ∧
      Explains R S spec (trace k) (History.ofOrder spec value order) →
      ∃ order' : List ι, order <+: order' ∧ order'.Nodup ∧
        Explains R S spec (trace (k + 1)) (History.ofOrder spec value order') := by
    intro k order ⟨hnodup, hexpl⟩
    rcases htrace k with hsame | hstep
    · rw [hsame]
      exact ⟨order, List.prefix_refl _, hnodup, hexpl⟩
    · obtain ⟨h, hatomic, hexpl'⟩ := hexpl.step hgrows hpending hstep
      obtain ⟨order', hprefix, hnodup', rfl⟩ := AtomicRun.exists_order hnodup hatomic
      exact ⟨order', hprefix, hnodup', hexpl'⟩
  choose! next hprefix hnodup hexplains using hnext
  -- The orders of the states, each one made from the one before it.
  let order : ℕ → List ι := fun k => Nat.rec [] next k
  have hgood : ∀ k, (order k).Nodup ∧
      Explains R S spec (trace k) (History.ofOrder spec value (order k)) := by
    intro k
    induction k with
    | zero => exact ⟨List.nodup_nil, hexpl⟩
    | succ k ih => exact ⟨hnodup k _ ih, hexplains k _ ih⟩
  exact ⟨order, fun k => hprefix k _ (hgood k), fun k => (hgood k).1, fun k => (hgood k).2⟩

end

/-! ## What a history says -/

section

variable [DecidableEq ι] {spec : ι → τ → β × τ}

variable [Preorder τ] (hgrows : ∀ i t, t ≤ (spec i t).2)
include hgrows

theorem AtomicRun.grows {h h' : History ι τ β} (hrun : AtomicRun spec h h') :
    h.value ≤ h'.value := by
  induction hrun with
  | refl => exact le_rfl
  | tail _ hstep ih =>
    obtain ⟨j, hj⟩ := hstep
    exact ih.trans (hgrows j _)

/-- A call that happens in a run happens at a moment of that run. -/
theorem AtomicRun.exists_moment {h h' : History ι τ β} (hrun : AtomicRun spec h h') {i : ι}
    {b : β} (hnone : h.answer i = none) (hsome : h'.answer i = some b) :
    ∃ t, h.value ≤ t ∧ b = (spec i t).1 ∧ (spec i t).2 ≤ h'.value := by
  induction hrun with
  | refl => simp [hnone] at hsome
  | @tail h₁ _ hatomic hstep ih =>
    obtain ⟨j, hj⟩ := hstep
    by_cases hij : i = j
    · subst hij
      simp only [History.answer_perform, if_true, Option.some.injEq] at hsome
      exact ⟨h₁.value, AtomicRun.grows hgrows hatomic, hsome.symm, le_rfl⟩
    · simp only [History.answer_perform, if_neg hij] at hsome
      obtain ⟨t, ht, hb, ht'⟩ := ih hsome
      exact ⟨t, ht, hb, ht'.trans (hgrows j _)⟩

end

end Atomicity
