import Mathlib.Data.Finset.Card

/-!
# Voting rules

A rule says how many voters of a finite electorate are enough.  The four
rules here ask for nothing, for one vote, for more than half of the votes
and for all of them.  Each is monotone in the set of voters.  On a nonempty
electorate each rule implies the one before it, and two majorities of one
electorate share a voter.
-/

namespace Quorum

/-- Whether `votes` voters are enough in an electorate of `size`. -/
abbrev Rule := Nat → Nat → Prop

/-- No vote is needed. -/
def always : Rule := fun _ _ => True

/-- One vote is needed. -/
def atLeastOne : Rule := fun votes _ => 1 ≤ votes

/-- More than half of a nonempty electorate is needed. -/
def majority : Rule := fun votes size => 0 < size ∧ size < 2 * votes

/-- The whole electorate is needed, and an empty one has no one to ask. -/
def unanimity : Rule := fun votes size => votes = size

/-- A further voter of the electorate never makes the votes too few. -/
def Rule.Monotone (rule : Rule) : Prop :=
  ∀ ⦃votes votes' size : Nat⦄, votes ≤ votes' → votes' ≤ size →
    rule votes size → rule votes' size

theorem always_monotone : always.Monotone := fun _ _ _ _ _ _ => trivial

theorem atLeastOne_monotone : atLeastOne.Monotone :=
  fun _ _ _ hle _ h => Nat.le_trans h hle

theorem majority_monotone : majority.Monotone := by
  intro votes votes' size hle _ h
  exact ⟨h.1, by have := h.2; omega⟩

theorem unanimity_monotone : unanimity.Monotone := by
  intro votes votes' size hle hle' h
  rw [unanimity] at h ⊢
  omega

/-- Unanimity is a majority, except in the empty electorate. -/
theorem majority_of_unanimity {votes size : Nat} (h : unanimity votes size)
    (hsize : 0 < size) : majority votes size := by
  rw [unanimity] at h
  exact ⟨hsize, by omega⟩

theorem atLeastOne_of_majority {votes size : Nat} (h : majority votes size) :
    atLeastOne votes size := by
  have := h.2
  unfold atLeastOne
  omega

/-- An empty electorate has no majority. -/
theorem not_majority_zero (votes : Nat) : ¬ majority votes 0 := fun h => absurd h.1 (by omega)

/-- Two majorities of one electorate have a voter in common. -/
theorem inter_nonempty_of_majority {α : Type*} [DecidableEq α] {electorate s t : Finset α}
    (hs : s ⊆ electorate) (ht : t ⊆ electorate) (hsmaj : majority s.card electorate.card)
    (htmaj : majority t.card electorate.card) : (s ∩ t).Nonempty := by
  have hscard := hsmaj.2
  have htcard := htmaj.2
  exact Finset.inter_nonempty_of_card_lt_card_add_card hs ht (by omega)

/-- Voters that fall into two disjoint parts of the electorate are no more
than the two parts. -/
theorem Rule.Monotone.card_add_card {rule : Rule} (hrule : rule.Monotone) {α : Type*}
    [DecidableEq α] {electorate voters s t : Finset α} (hs : s ⊆ electorate)
    (ht : t ⊆ electorate) (hdisjoint : Disjoint s t) (hvoters : voters ⊆ s ∪ t)
    (h : rule voters.card electorate.card) : rule (s.card + t.card) electorate.card := by
  have hunion := Finset.card_union_of_disjoint hdisjoint
  have hle := Finset.card_le_card hvoters
  have hle' := Finset.card_le_card (Finset.union_subset hs ht)
  apply hrule _ _ h
  · omega
  · omega

/-! ## A larger electorate -/

/-- Newcomers who vote keep the votes enough. -/
def Rule.KeptByVoters (rule : Rule) : Prop :=
  ∀ ⦃votes size : Nat⦄ (newcomers : Nat), rule votes size →
    rule (votes + newcomers) (size + newcomers)

/-- Newcomers who abstain do not make the votes enough. -/
def Rule.UnmovedByAbstainers (rule : Rule) : Prop :=
  ∀ ⦃votes size : Nat⦄ (newcomers : Nat), votes ≤ size → rule votes (size + newcomers) →
    rule votes size

theorem always_keptByVoters : always.KeptByVoters := fun _ _ _ _ => trivial

theorem atLeastOne_keptByVoters : atLeastOne.KeptByVoters := by
  intro votes size newcomers h
  unfold atLeastOne at h ⊢
  omega

theorem majority_keptByVoters : majority.KeptByVoters := by
  intro votes size newcomers h
  unfold majority at h ⊢
  omega

theorem unanimity_keptByVoters : unanimity.KeptByVoters := by
  intro votes size newcomers h
  unfold unanimity at h ⊢
  omega

theorem always_unmovedByAbstainers : always.UnmovedByAbstainers := fun _ _ _ _ _ => trivial

theorem atLeastOne_unmovedByAbstainers : atLeastOne.UnmovedByAbstainers := by
  intro votes size newcomers _ h
  exact h

theorem majority_unmovedByAbstainers : majority.UnmovedByAbstainers := by
  intro votes size newcomers hle h
  unfold majority at h ⊢
  omega

theorem unanimity_unmovedByAbstainers : unanimity.UnmovedByAbstainers := by
  intro votes size newcomers hle h
  unfold unanimity at h ⊢
  omega

end Quorum
