import Mathlib.Data.List.Forall2

/-!
# What a Rust call comes back with

A call of safe Rust returns a value, returns an error that its caller can
handle, or panics.  `Outcome` keeps the three apart.  `Result` with the `?`
operator is the monad of `Outcome`, and `unwrap` is the one operation here
that turns an error into a panic.

The second half is about loops.  A Rust `for` loop whose body uses `?` is
`List.foldlM` over `Outcome`.  Most such loops decide about an item without
the accumulator and then record the decision.  `foldlM_record` separates the
two, and the `mapM` lemmas say when the loop finishes, and when it panics.
-/

namespace Rust

/-- The result of a call: a value, an error, or a panic. -/
inductive Outcome (ε α : Type) where
  | ok (value : α)
  | err (error : ε)
  | panic
  deriving DecidableEq

namespace Outcome

variable {ε α β γ : Type}

/-- The `?` operator: continue with the value, and pass an error or a panic
to the caller. -/
def bind : Outcome ε α → (α → Outcome ε β) → Outcome ε β
  | .ok a, f => f a
  | .err e, _ => .err e
  | .panic, _ => .panic

instance : Monad (Outcome ε) where
  pure := .ok
  bind := bind

@[simp] theorem pure_eq (a : α) : (pure a : Outcome ε α) = .ok a := rfl

@[simp] theorem ok_bind (a : α) (f : α → Outcome ε β) :
    (Outcome.ok a >>= f) = f a := rfl

@[simp] theorem err_bind (e : ε) (f : α → Outcome ε β) :
    ((Outcome.err e : Outcome ε α) >>= f) = .err e := rfl

@[simp] theorem panic_bind (f : α → Outcome ε β) :
    ((Outcome.panic : Outcome ε α) >>= f) = .panic := rfl

theorem bind_assoc (x : Outcome ε α) (f : α → Outcome ε β) (g : β → Outcome ε γ) :
    x >>= f >>= g = x >>= fun a => f a >>= g := by
  cases x <;> rfl

instance : LawfulMonad (Outcome ε) :=
  LawfulMonad.mk' _ (by rintro _ (_ | _ | _) <;> rfl) (fun _ _ => rfl) bind_assoc

@[simp] theorem map_ok (f : α → β) (a : α) :
    f <$> (Outcome.ok a : Outcome ε α) = .ok (f a) := rfl

@[simp] theorem map_err (f : α → β) (e : ε) :
    f <$> (Outcome.err e : Outcome ε α) = .err e := rfl

@[simp] theorem map_panic (f : α → β) :
    f <$> (Outcome.panic : Outcome ε α) = .panic := rfl

theorem bind_eq_ok_iff {x : Outcome ε α} {f : α → Outcome ε β} {b : β} :
    (x >>= f) = .ok b ↔ ∃ a, x = .ok a ∧ f a = .ok b := by
  cases x <;> simp

theorem bind_eq_panic_iff {x : Outcome ε α} {f : α → Outcome ε β} :
    (x >>= f) = .panic ↔ x = .panic ∨ ∃ a, x = .ok a ∧ f a = .panic := by
  cases x <;> simp

theorem map_eq_ok_iff {x : Outcome ε α} {f : α → β} {b : β} :
    f <$> x = .ok b ↔ ∃ a, x = .ok a ∧ f a = b := by
  cases x <;> simp

theorem map_eq_panic_iff {x : Outcome ε α} {f : α → β} :
    f <$> x = .panic ↔ x = .panic := by
  cases x <;> simp

/-- What neither panics nor returns a value is an error. -/
theorem exists_eq_err_iff {x : Outcome ε α} :
    (∃ e, x = .err e) ↔ x ≠ .panic ∧ ∀ a, x ≠ .ok a := by
  cases x <;> simp

/-- `Result::unwrap`, which panics on an error. -/
def unwrap : Outcome ε α → Outcome ε α
  | .ok a => .ok a
  | .err _ => .panic
  | .panic => .panic

/-- `Option::unwrap`, which panics on a missing value. -/
def unwrapSome : Option α → Outcome ε α
  | some a => .ok a
  | none => .panic

@[simp] theorem unwrapSome_some (a : α) : (unwrapSome (some a) : Outcome ε α) = .ok a := rfl

@[simp] theorem unwrapSome_none : (unwrapSome none : Outcome ε α) = .panic := rfl

theorem unwrapSome_eq_ok_iff {x : Option α} {a : α} :
    (unwrapSome x : Outcome ε α) = .ok a ↔ x = some a := by
  cases x <;> simp

/-- `Option::ok_or`: the error `e` stands for a missing value. -/
def okOr (e : ε) : Option α → Outcome ε α
  | some a => .ok a
  | none => .err e

@[simp] theorem okOr_some (e : ε) (a : α) : okOr e (some a) = .ok a := rfl

@[simp] theorem okOr_none (e : ε) : (okOr e none : Outcome ε α) = .err e := rfl

theorem okOr_eq_ok_iff {e : ε} {x : Option α} {a : α} :
    okOr e x = .ok a ↔ x = some a := by
  cases x <;> simp

theorem okOr_ne_panic (e : ε) (x : Option α) : okOr e x ≠ .panic := by
  cases x <;> simp

/-- A call that cannot panic, seen as one that could. -/
def ofExcept : Except ε α → Outcome ε α
  | .ok a => .ok a
  | .error e => .err e

@[simp] theorem ofExcept_ok (a : α) : ofExcept (.ok a : Except ε α) = .ok a := rfl

@[simp] theorem ofExcept_error (e : ε) :
    (ofExcept (.error e) : Outcome ε α) = .err e := rfl

theorem ofExcept_eq_ok_iff {x : Except ε α} {a : α} :
    ofExcept x = .ok a ↔ x = .ok a := by
  cases x <;> simp

theorem ofExcept_ne_panic (x : Except ε α) : ofExcept x ≠ .panic := by
  cases x <;> simp

/-! ## Loops that use `?` -/

/-- A loop that only checks its items finishes when every item passes. -/
theorem forM_eq_ok_iff {f : α → Outcome ε PUnit} {xs : List α} :
    forM xs f = .ok ⟨⟩ ↔ ∀ x ∈ xs, f x = .ok ⟨⟩ := by
  induction xs with
  | nil => simp
  | cons x xs ih =>
    rw [List.forM_cons, bind_eq_ok_iff, List.forall_mem_cons, ih]
    exact ⟨fun ⟨_, hx, hxs⟩ => ⟨hx, hxs⟩, fun ⟨hx, hxs⟩ => ⟨_, hx, hxs⟩⟩

theorem forM_ne_panic {f : α → Outcome ε PUnit} {xs : List α} (h : ∀ x ∈ xs, f x ≠ .panic) :
    forM xs f ≠ .panic := by
  induction xs with
  | nil => simp
  | cons x xs ih =>
    rw [List.forall_mem_cons] at h
    rw [List.forM_cons, ne_eq, bind_eq_panic_iff, not_or]
    exact ⟨h.1, fun ⟨_, _, hxs⟩ => ih h.2 hxs⟩

/-- A loop body that decides about the item alone, and then records the
decision, is the loop over the decisions followed by the recording. -/
theorem foldlM_record (decide : α → Outcome ε γ) (record : β → γ → β) (b : β)
    (xs : List α) :
    xs.foldlM (fun acc x => record acc <$> decide x) b
      = (fun cs => cs.foldl record b) <$> xs.mapM decide := by
  induction xs generalizing b with
  | nil => rfl
  | cons x xs ih =>
    rw [List.foldlM_cons, List.mapM_cons]
    cases decide x with
    | ok c =>
      simp only [map_ok, ok_bind, ih]
      cases xs.mapM decide <;> rfl
    | err e => rfl
    | panic => rfl

/-- The loop finishes exactly when every item has a decision, and then it
has the decisions in order. -/
theorem mapM_eq_ok_iff {f : α → Outcome ε β} {xs : List α} {ys : List β} :
    xs.mapM f = .ok ys ↔ List.Forall₂ (fun x y => f x = .ok y) xs ys := by
  induction xs generalizing ys with
  | nil => simp [eq_comm]
  | cons x xs ih =>
    rw [List.mapM_cons]
    simp only [bind_eq_ok_iff, ih, pure_eq, ok.injEq, List.forall₂_cons_left_iff]
    constructor
    · rintro ⟨y, hy, ys', hys', rfl⟩
      exact ⟨y, ys', hy, hys', rfl⟩
    · rintro ⟨y, ys', hy, hys', rfl⟩
      exact ⟨y, hy, ys', hys', rfl⟩

theorem exists_mapM_eq_ok_iff {f : α → Outcome ε β} {xs : List α} :
    (∃ ys, xs.mapM f = .ok ys) ↔ ∀ x ∈ xs, ∃ y, f x = .ok y := by
  induction xs with
  | nil => simp
  | cons x xs ih =>
    simp only [List.mapM_cons, bind_eq_ok_iff, pure_eq, ok.injEq, List.forall_mem_cons,
      ← ih]
    constructor
    · rintro ⟨_, y, hy, ys, hys, -⟩
      exact ⟨⟨y, hy⟩, ys, hys⟩
    · intro ⟨⟨y, hy⟩, ys, hys⟩
      exact ⟨y :: ys, y, hy, ys, hys, rfl⟩

/-- The decisions of a finished loop are the decisions about its items. -/
theorem mem_of_mapM_eq_ok {f : α → Outcome ε β} {xs : List α} {ys : List β}
    (h : xs.mapM f = .ok ys) (y : β) : y ∈ ys ↔ ∃ x ∈ xs, f x = .ok y := by
  rw [mapM_eq_ok_iff] at h
  induction h with
  | nil => simp
  | @cons x z xs zs hz _ ih =>
    simp only [List.mem_cons, ih, exists_eq_or_imp, hz, ok.injEq, @eq_comm _ z y]

/-- The loop panics exactly when the first item without a decision is one
that panics. -/
theorem mapM_eq_panic_iff {f : α → Outcome ε β} {xs : List α} :
    xs.mapM f = .panic ↔
      ∃ before x after, xs = before ++ x :: after ∧
        (∀ w ∈ before, ∃ y, f w = .ok y) ∧ f x = .panic := by
  induction xs with
  | nil => simp
  | cons x xs ih =>
    rw [List.mapM_cons]
    cases hx : f x with
    | panic =>
      simp only [panic_bind, true_iff]
      exact ⟨[], x, xs, rfl, by simp, hx⟩
    | err e =>
      simp only [err_bind, reduceCtorEq, false_iff]
      intro ⟨before, w, after, heq, hbefore, hw⟩
      cases before with
      | nil =>
        obtain ⟨rfl, -⟩ := List.cons.inj heq
        simp [hx] at hw
      | cons v before =>
        obtain ⟨rfl, -⟩ := List.cons.inj heq
        obtain ⟨y, hy⟩ := hbefore x (by simp)
        simp [hx] at hy
    | ok y =>
      have hrest : (xs.mapM f >>= fun ys => (pure (y :: ys) : Outcome ε (List β)))
          = .panic ↔ xs.mapM f = .panic := by
        cases xs.mapM f <;> simp
      rw [ok_bind, hrest, ih]
      constructor
      · rintro ⟨before, w, after, rfl, hbefore, hw⟩
        refine ⟨x :: before, w, after, rfl, ?_, hw⟩
        simpa [hx] using hbefore
      · intro ⟨before, w, after, heq, hbefore, hw⟩
        cases before with
        | nil =>
          obtain ⟨rfl, -⟩ := List.cons.inj heq
          simp [hx] at hw
        | cons v before =>
          obtain ⟨rfl, rfl⟩ := List.cons.inj heq
          exact ⟨before, w, after, rfl, fun u hu => hbefore u (by simp [hu]), hw⟩

end Outcome

end Rust
