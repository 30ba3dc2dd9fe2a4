import MeldaSec.Lib.Outcome
import Mathlib.Data.List.Perm.Basic

/-!
# Loops over a mutable state

A Rust method with `&mut self` that returns a `Result` leaves a state behind
whether it fails or not.  It is a function to a pair of an outcome and a
state, and `andThen` is `?` between two such calls.

`forEach` is the loop that runs such a method on every item.  The result of
the loop is described without the loop where the body decides about the item
alone and then records the decision: `decided` is the list of the decisions
before the first item without one.

A loop whose items overwrite a field of the state is described by the last
item that does (`foldl_lastSome`).
-/

namespace Rust

namespace Outcome

variable {ε α β γ σ : Type}

/-! ## Calls on a mutable state -/

/-- `self.f()?; self.g()`: the second call runs on the state that the first
one left behind, unless that one failed. -/
def andThen (x : Outcome ε Unit × σ) (f : σ → Outcome ε Unit × σ) : Outcome ε Unit × σ :=
  match x with
  | (.ok (), s) => f s
  | (.err e, s) => (.err e, s)
  | (.panic, s) => (.panic, s)

/-- `let c = x?; self.record(c); Ok(())`: only a success touches the state. -/
def thenRecord (x : Outcome ε γ) (record : σ → γ → σ) (s : σ) : Outcome ε Unit × σ :=
  match x with
  | .ok c => (.ok (), record s c)
  | .err e => (.err e, s)
  | .panic => (.panic, s)

/-- `for x in xs { self.step(x)?; }` -/
def forEach (step : σ → α → Outcome ε Unit × σ) : σ → List α → Outcome ε Unit × σ
  | s, [] => (.ok (), s)
  | s, x :: xs => andThen (step s x) fun s => forEach step s xs

@[simp] theorem ok_andThen (s : σ) (f : σ → Outcome ε Unit × σ) :
    andThen (.ok (), s) f = f s := rfl

@[simp] theorem andThen_ok (x : Outcome ε Unit × σ) : andThen x (fun s => (.ok (), s)) = x := by
  obtain ⟨_ | _ | _, s⟩ := x <;> rfl

theorem andThen_assoc (x : Outcome ε Unit × σ) (f g : σ → Outcome ε Unit × σ) :
    andThen (andThen x f) g = andThen x fun s => andThen (f s) g := by
  obtain ⟨_ | _ | _, s⟩ := x <;> rfl

theorem forEach_append (step : σ → α → Outcome ε Unit × σ) (s : σ) (xs ys : List α) :
    forEach step s (xs ++ ys) = andThen (forEach step s xs) fun s => forEach step s ys := by
  induction xs generalizing s with
  | nil => rfl
  | cons x xs ih =>
    rw [List.cons_append, forEach, forEach, andThen_assoc]
    simp only [ih]

/-- A loop whose body is itself a loop. -/
theorem forEach_flatMap (step : σ → α → Outcome ε Unit × σ) (items : β → List α) (s : σ)
    (ys : List β) :
    forEach (fun s y => forEach step s (items y)) s ys = forEach step s (ys.flatMap items) := by
  induction ys generalizing s with
  | nil => rfl
  | cons y ys ih =>
    rw [List.flatMap_cons, forEach_append, forEach]
    simp only [ih]

/-- The decisions before the first item without one. -/
def decided (decide : α → Outcome ε γ) : List α → List γ
  | [] => []
  | x :: xs =>
    match decide x with
    | .ok c => c :: decided decide xs
    | _ => []

/-- A body that decides about the item alone and then records the decision:
the loop fails as the decisions do, and the state that it leaves behind has
the decisions before the failure. -/
theorem forEach_record (decide : α → Outcome ε γ) (record : σ → γ → σ) (s : σ) (xs : List α) :
    forEach (fun s x => thenRecord (decide x) record s) s xs
      = ((fun _ => ()) <$> xs.mapM decide, (decided decide xs).foldl record s) := by
  induction xs generalizing s with
  | nil => rfl
  | cons x xs ih =>
    rw [forEach, List.mapM_cons, decided]
    cases decide x with
    | ok c =>
      have hrecord : thenRecord (.ok c : Outcome ε γ) record s = (.ok (), record s c) := rfl
      rw [hrecord, ok_andThen, ih]
      cases xs.mapM decide <;> rfl
    | err e => rfl
    | panic => rfl

/-- A loop that finishes has a decision for every item. -/
theorem mapM_eq_ok_decided {decide : α → Outcome ε γ} {xs : List α} {cs : List γ}
    (h : xs.mapM decide = .ok cs) : decided decide xs = cs := by
  induction xs generalizing cs with
  | nil =>
    rw [List.mapM_nil, pure_eq, ok.injEq] at h
    exact h
  | cons x xs ih =>
    rw [List.mapM_cons, bind_eq_ok_iff] at h
    obtain ⟨c, hc, h⟩ := h
    obtain ⟨cs, hcs, rfl⟩ := map_eq_ok_iff.mp h
    simp only [decided, hc, ih hcs]

/-- Every decision is the decision about an item. -/
theorem exists_of_mem_decided {decide : α → Outcome ε γ} {xs : List α} {c : γ}
    (h : c ∈ decided decide xs) : ∃ x ∈ xs, decide x = .ok c := by
  induction xs with
  | nil => cases h
  | cons x xs ih =>
    rw [decided] at h
    cases hx : decide x with
    | ok c' =>
      simp only [hx, List.mem_cons] at h
      rcases h with rfl | h
      · exact ⟨x, List.mem_cons_self, hx⟩
      · obtain ⟨y, hy, hc⟩ := ih h
        exact ⟨y, List.mem_cons_of_mem x hy, hc⟩
    | err e => simp [hx] at h
    | panic => simp [hx] at h

theorem decided_eq_nil_iff {decide : α → Outcome ε γ} {xs : List α} :
    decided decide xs = [] ↔ ∀ x ∈ xs.head?, ∀ c, decide x ≠ .ok c := by
  cases xs with
  | nil => simp [decided]
  | cons x xs => cases h : decide x <;> simp [decided, h]

/-! ## The order of the items -/

/-- A different order of the items only changes the order of the decisions. -/
theorem mapM_perm {f : α → Outcome ε β} {xs xs' : List α} {ys : List β} (hperm : xs.Perm xs')
    (h : xs.mapM f = .ok ys) : ∃ ys', xs'.mapM f = .ok ys' ∧ ys.Perm ys' := by
  obtain ⟨ys', hys', hperm'⟩ := List.perm_comp_forall₂ hperm.symm (mapM_eq_ok_iff.mp h)
  exact ⟨ys', mapM_eq_ok_iff.mpr hys', hperm'.symm⟩

end Outcome

/-! ## The last writer -/

section

variable {α β σ : Type*}

/-- What the last item says that says something. -/
def lastSome (f : α → Option β) (xs : List α) : Option β := xs.reverse.findSome? f

theorem lastSome_cons (f : α → Option β) (x : α) (xs : List α) :
    lastSome f (x :: xs) = (lastSome f xs).or (f x) := by
  unfold lastSome
  rw [List.reverse_cons, List.findSome?_append]
  cases h : f x <;> simp [h]

theorem lastSome_map {γ : Type*} (f : α → Option β) (g : β → γ) (xs : List α) :
    lastSome (fun x => (f x).map g) xs = (lastSome f xs).map g := by
  unfold lastSome
  rw [List.map_findSome?]
  rfl

/-- A field that each item overwrites or leaves alone holds what the last one
of them wrote, or its old value. -/
theorem foldl_lastSome (get : σ → Option β) {step : σ → α → σ} {f : α → Option β}
    (hstep : ∀ s x, get (step s x) = (f x).or (get s)) (s : σ) (xs : List α) :
    get (xs.foldl step s) = (lastSome f xs).or (get s) := by
  induction xs generalizing s with
  | nil => rfl
  | cons x xs ih =>
    rw [List.foldl_cons, ih, hstep, lastSome_cons, Option.or_assoc]

end

end Rust
