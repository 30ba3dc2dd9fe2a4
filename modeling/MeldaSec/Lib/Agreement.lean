import MeldaSec.Lib.Outcome

/-!
# Calls that agree

Two systems that store the same things in different forms return the same
values, but not the same error texts.  `Agree` compares two outcomes up to the
error: both return the same value, or both fail, or both panic.  It is kept
by everything a Rust function does with an outcome.

The second part is about systems that answer requests: a request changes the
state and returns a reply.  Two systems answer alike when their states can be
related so that related states give replies that agree and stay related.
`replies_forall₂` is the run lemma of that simulation.
-/

namespace Rust

namespace Outcome

variable {ε α β : Type}

/-- The same value, or an error each, or a panic each. -/
inductive Agree : Outcome ε α → Outcome ε α → Prop where
  | ok (a : α) : Agree (.ok a) (.ok a)
  | err (e e' : ε) : Agree (.err e) (.err e')
  | panic : Agree .panic .panic

namespace Agree

theorem refl (x : Outcome ε α) : Agree x x := by
  cases x with
  | ok a => exact .ok a
  | err e => exact .err e e
  | panic => exact .panic

theorem of_eq {x y : Outcome ε α} (h : x = y) : Agree x y := h ▸ refl x

theorem trans {x y z : Outcome ε α} (h : Agree x y) (h' : Agree y z) : Agree x z := by
  cases h with
  | ok a => exact h'
  | err e e' =>
    cases h' with
    | err e' e'' => exact .err e e''
  | panic => exact h'

theorem eq_ok {x y : Outcome ε α} (h : Agree x y) {a : α} (hx : x = .ok a) : y = .ok a := by
  cases h with
  | ok b => exact hx
  | err e e' => cases hx
  | panic => cases hx

/-- Two calls agree when both or none panic, and both or none return a value. -/
theorem of_iff {x y : Outcome ε α} (hpanic : x = .panic ↔ y = .panic)
    (hok : ∀ a, x = .ok a ↔ y = .ok a) : Agree x y := by
  cases x with
  | panic => exact of_eq (hpanic.mp rfl).symm
  | ok a => exact of_eq ((hok a).mp rfl).symm
  | err e =>
    cases y with
    | panic => exact of_eq (hpanic.mpr rfl)
    | ok a => exact of_eq ((hok a).mpr rfl)
    | err e' => exact .err e e'

/-- Calls that agree can be followed by calls that agree on every value. -/
theorem bind {x y : Outcome ε α} (h : Agree x y) {f g : α → Outcome ε β}
    (hfg : ∀ a, Agree (f a) (g a)) : Agree (x >>= f) (y >>= g) := by
  cases h with
  | ok a => exact hfg a
  | err e e' => exact .err e e'
  | panic => exact .panic

theorem map {x y : Outcome ε α} (h : Agree x y) (f : α → β) : Agree (f <$> x) (f <$> y) := by
  cases h with
  | ok a => exact .ok (f a)
  | err e e' => exact .err e e'
  | panic => exact .panic

/-- Two calls behind the same test agree when their branches do. -/
theorem ite {c : Prop} [Decidable c] {x x' y y' : Outcome ε α} (h : Agree x y)
    (h' : Agree x' y') : Agree (if c then x else x') (if c then y else y') := by
  split
  · exact h
  · exact h'

/-- Two loops over the same items agree when their bodies do. -/
theorem foldlM {f g : β → α → Outcome ε β} (hfg : ∀ b a, Agree (f b a) (g b a)) (b : β)
    (xs : List α) : Agree (xs.foldlM f b) (xs.foldlM g b) := by
  induction xs generalizing b with
  | nil => exact .ok b
  | cons x xs ih =>
    rw [List.foldlM_cons, List.foldlM_cons]
    exact (hfg b x).bind ih

end Agree

end Outcome

/-! ## Systems that answer requests -/

section

variable {σ σ' ι ο ο' : Type*}

/-- What a sequence of requests gets back. -/
def replies (step : σ → ι → ο × σ) : σ → List ι → List ο
  | _, [] => []
  | s, i :: is => (step s i).1 :: replies step (step s i).2 is

/-- Two systems whose related states give replies that agree, and stay
related, on each request of a sequence, answer the sequence alike. -/
theorem replies_forall₂ {step : σ → ι → ο × σ} {step' : σ' → ι → ο' × σ'} {R : σ → σ' → Prop}
    {S : ο → ο' → Prop} {is : List ι}
    (hstep : ∀ s s', ∀ i ∈ is, R s s' →
      S (step s i).1 (step' s' i).1 ∧ R (step s i).2 (step' s' i).2)
    {s : σ} {s' : σ'} (h : R s s') :
    List.Forall₂ S (replies step s is) (replies step' s' is) := by
  induction is generalizing s s' with
  | nil => exact List.Forall₂.nil
  | cons i is ih =>
    obtain ⟨hreply, hnext⟩ := hstep s s' i List.mem_cons_self h
    exact List.Forall₂.cons hreply
      (ih (fun s s' j hj => hstep s s' j (List.mem_cons_of_mem i hj)) hnext)

end

end Rust
