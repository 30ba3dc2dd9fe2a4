import Mathlib.Data.List.Infix
import Mathlib.Tactic.SplitIfs

/-!
# Regular expressions with leftmost, greedy matching

A backtracking matcher tries its choices in a fixed order and returns the
first complete match.  `Pattern.matches` is that order as a list: every way
to match a prefix of the text, the preferred one first.  Greedy repetition
prefers the longer run, and a greedy option prefers to take its operand.
`Pattern.find` then takes the first match at the leftmost position that has
one.

Each constructor has two lemmas.  The `mem_` lemma says what the matches
are, and the `head_` lemma says which one comes first.
-/

namespace Regex

/-- The part of the text that a match took, the part that it left, and the
named groups that it captured. -/
structure Match where
  taken : List Char
  rest : List Char
  groups : List (String × List Char)
  deriving DecidableEq

/-- Literal text, a greedy run of one or more characters of a class, a
sequence, a greedy option, and a named group. -/
inductive Pattern where
  | lit (text : List Char)
  | many1 (inClass : Char → Bool)
  | seq (first second : Pattern)
  | opt (operand : Pattern)
  | group (name : String) (operand : Pattern)

/-- The nonempty runs of `inClass` characters at the head of the text, the
longest first, each with the text behind it. -/
def runs (inClass : Char → Bool) : List Char → List (List Char × List Char)
  | [] => []
  | c :: text =>
    if inClass c then
      (runs inClass text).map (fun run => (c :: run.1, run.2)) ++ [([c], text)]
    else []

/-- Every match of the pattern at the head of the text, the preferred one
first. -/
def Pattern.matches : Pattern → List Char → List Match
  | .lit word, text =>
    if word <+: text then [⟨word, text.drop word.length, []⟩] else []
  | .many1 inClass, text => (runs inClass text).map fun run => ⟨run.1, run.2, []⟩
  | .seq first second, text =>
    (first.matches text).flatMap fun m =>
      (second.matches m.rest).map fun n =>
        ⟨m.taken ++ n.taken, n.rest, m.groups ++ n.groups⟩
  | .opt operand, text => operand.matches text ++ [⟨[], text, []⟩]
  | .group name operand, text =>
    (operand.matches text).map fun m =>
      ⟨m.taken, m.rest, (name, m.taken) :: m.groups⟩

/-- The preferred match at the leftmost position that has one. -/
def Pattern.find (r : Pattern) : List Char → Option Match
  | [] => (r.matches []).head?
  | c :: text =>
    match (r.matches (c :: text)).head? with
    | some m => some m
    | none => r.find text

/-- The groups of the leftmost match, if there is one. -/
def Pattern.captures (r : Pattern) (s : String) : Option (List (String × List Char)) :=
  (r.find s.toList).map Match.groups

/-- The text that the group `name` captured. -/
def groupText (groups : List (String × List Char)) (name : String) : Option String :=
  (groups.lookup name).map String.ofList

/-! ## What the matches are -/

theorem mem_runs {inClass : Char → Bool} {text : List Char} {run : List Char × List Char} :
    run ∈ runs inClass text ↔
      run.1 ≠ [] ∧ (∀ c ∈ run.1, inClass c = true) ∧ text = run.1 ++ run.2 := by
  induction text generalizing run with
  | nil =>
    simp only [runs, List.not_mem_nil, false_iff]
    rintro ⟨hne, -, htext⟩
    exact hne (List.append_eq_nil_iff.mp htext.symm).1
  | cons c text ih =>
    obtain ⟨taken, rest⟩ := run
    by_cases hc : inClass c = true
    · simp only [runs, hc, if_true, List.mem_append, List.mem_map, List.mem_singleton,
        Prod.mk.injEq, ih]
      constructor
      · rintro (⟨⟨t, r⟩, ⟨-, hall, rfl⟩, rfl, rfl⟩ | ⟨rfl, rfl⟩)
        · refine ⟨by simp, ?_, by simp⟩
          simpa [hc] using hall
        · exact ⟨by simp, by simpa using hc, rfl⟩
      · intro ⟨hne, hall, htext⟩
        cases taken with
        | nil => exact absurd rfl hne
        | cons d taken =>
          obtain ⟨rfl, rfl⟩ := List.cons.inj htext
          cases taken with
          | nil => exact Or.inr ⟨rfl, rfl⟩
          | cons d' taken =>
            refine Or.inl ⟨(d' :: taken, rest), ⟨by simp, ?_, rfl⟩, rfl, rfl⟩
            exact fun x hx => hall x (List.mem_cons_of_mem _ hx)
    · simp only [runs, if_neg hc, List.not_mem_nil, false_iff]
      intro ⟨hne, hall, htext⟩
      cases taken with
      | nil => exact hne rfl
      | cons d taken =>
        obtain ⟨rfl, -⟩ := List.cons.inj htext
        exact hc (hall c (by simp))

theorem mem_lit {word text : List Char} {m : Match} :
    m ∈ (Pattern.lit word).matches text ↔
      m.taken = word ∧ text = word ++ m.rest ∧ m.groups = [] := by
  obtain ⟨taken, rest, groups⟩ := m
  show _ ∈ (if word <+: text then [Match.mk word (text.drop word.length) []] else []) ↔ _
  split_ifs with h
  · obtain ⟨tail, rfl⟩ := h
    simp only [List.mem_singleton, Match.mk.injEq, List.drop_left,
      List.append_cancel_left_eq, eq_comm]
  · simp only [List.not_mem_nil, false_iff]
    rintro ⟨-, rfl, -⟩
    exact h ⟨rest, rfl⟩

theorem mem_many1 {inClass : Char → Bool} {text : List Char} {m : Match} :
    m ∈ (Pattern.many1 inClass).matches text ↔
      m.taken ≠ [] ∧ (∀ c ∈ m.taken, inClass c = true) ∧ text = m.taken ++ m.rest ∧
        m.groups = [] := by
  obtain ⟨taken, rest, groups⟩ := m
  show _ ∈ (runs inClass text).map (fun run => Match.mk run.1 run.2 []) ↔ _
  simp only [List.mem_map, Prod.exists, mem_runs, Match.mk.injEq]
  constructor
  · rintro ⟨t, r, ⟨hne, hall, rfl⟩, rfl, rfl, rfl⟩
    exact ⟨hne, hall, rfl, rfl⟩
  · rintro ⟨hne, hall, rfl, rfl⟩
    exact ⟨taken, rest, ⟨hne, hall, rfl⟩, rfl, rfl, rfl⟩

theorem mem_seq {first second : Pattern} {text : List Char} {m : Match} :
    m ∈ (Pattern.seq first second).matches text ↔
      ∃ m₁ ∈ first.matches text, ∃ m₂ ∈ second.matches m₁.rest,
        m = ⟨m₁.taken ++ m₂.taken, m₂.rest, m₁.groups ++ m₂.groups⟩ := by
  show m ∈ (first.matches text).flatMap (fun m => (second.matches m.rest).map fun n =>
    Match.mk (m.taken ++ n.taken) n.rest (m.groups ++ n.groups)) ↔ _
  simp only [List.mem_flatMap, List.mem_map, eq_comm]

theorem mem_opt {operand : Pattern} {text : List Char} {m : Match} :
    m ∈ (Pattern.opt operand).matches text ↔
      m ∈ operand.matches text ∨ m = ⟨[], text, []⟩ := by
  show m ∈ operand.matches text ++ [Match.mk [] text []] ↔ _
  rw [List.mem_append, List.mem_singleton]

theorem mem_group {name : String} {operand : Pattern} {text : List Char} {m : Match} :
    m ∈ (Pattern.group name operand).matches text ↔
      ∃ m₁ ∈ operand.matches text, m = ⟨m₁.taken, m₁.rest, (name, m₁.taken) :: m₁.groups⟩ := by
  show m ∈ (operand.matches text).map
    (fun m => Match.mk m.taken m.rest ((name, m.taken) :: m.groups)) ↔ _
  simp only [List.mem_map, eq_comm]

/-! ## Which match comes first -/

/-- The preferred run is the whole run. -/
theorem head_runs {inClass : Char → Bool} {run rest : List Char} (hne : run ≠ [])
    (hall : ∀ c ∈ run, inClass c = true) (hstop : ∀ c ∈ rest.head?, inClass c = false) :
    (runs inClass (run ++ rest)).head? = some (run, rest) := by
  induction run with
  | nil => exact absurd rfl hne
  | cons c run ih =>
    have hc : inClass c = true := hall c (by simp)
    rw [List.cons_append, runs, if_pos hc, List.head?_append]
    cases run with
    | nil =>
      have hnone : runs inClass rest = [] := by
        cases rest with
        | nil => rfl
        | cons d rest => rw [runs, if_neg (by simp [hstop d (by simp)])]
      simp [hnone]
    | cons d run =>
      rw [List.head?_map, ih (by simp) fun x hx => hall x (List.mem_cons_of_mem _ hx)]
      rfl

theorem head_lit (word rest : List Char) :
    ((Pattern.lit word).matches (word ++ rest)).head? = some ⟨word, rest, []⟩ := by
  show (if word <+: word ++ rest then
    [Match.mk word ((word ++ rest).drop word.length) []] else []).head? = _
  rw [if_pos (List.prefix_append word rest), List.drop_left]
  rfl

theorem head_many1 {inClass : Char → Bool} {run rest : List Char} (hne : run ≠ [])
    (hall : ∀ c ∈ run, inClass c = true) (hstop : ∀ c ∈ rest.head?, inClass c = false) :
    ((Pattern.many1 inClass).matches (run ++ rest)).head? = some ⟨run, rest, []⟩ := by
  show ((runs inClass (run ++ rest)).map fun run => Match.mk run.1 run.2 []).head? = _
  rw [List.head?_map, head_runs hne hall hstop]
  rfl

/-- The preferred match of a sequence is made of preferred matches, as soon
as the preferred match of the first part lets the second part match. -/
theorem head_seq {first second : Pattern} {text : List Char} {m₁ m₂ : Match}
    (h₁ : (first.matches text).head? = some m₁)
    (h₂ : (second.matches m₁.rest).head? = some m₂) :
    ((Pattern.seq first second).matches text).head?
      = some ⟨m₁.taken ++ m₂.taken, m₂.rest, m₁.groups ++ m₂.groups⟩ := by
  obtain ⟨others₁, heq₁⟩ := List.head?_eq_some_iff.mp h₁
  obtain ⟨others₂, heq₂⟩ := List.head?_eq_some_iff.mp h₂
  show ((first.matches text).flatMap fun m => (second.matches m.rest).map fun n =>
    Match.mk (m.taken ++ n.taken) n.rest (m.groups ++ n.groups)).head? = _
  rw [heq₁, List.flatMap_cons, heq₂]
  rfl

theorem head_opt {operand : Pattern} {text : List Char} {m : Match}
    (h : (operand.matches text).head? = some m) :
    ((Pattern.opt operand).matches text).head? = some m := by
  show (operand.matches text ++ [Match.mk [] text []]).head? = _
  rw [List.head?_append, h]
  rfl

theorem head_group (name : String) {operand : Pattern} {text : List Char} {m : Match}
    (h : (operand.matches text).head? = some m) :
    ((Pattern.group name operand).matches text).head?
      = some ⟨m.taken, m.rest, (name, m.taken) :: m.groups⟩ := by
  show ((operand.matches text).map
    fun m => Match.mk m.taken m.rest ((name, m.taken) :: m.groups)).head? = _
  rw [List.head?_map, h]
  rfl

/-! ## The leftmost match -/

/-- A match at the head of the text is the leftmost one. -/
theorem find_of_head {r : Pattern} {text : List Char} {m : Match}
    (h : (r.matches text).head? = some m) : r.find text = some m := by
  cases text with
  | nil => exact h
  | cons c text => rw [Pattern.find, h]

/-- What `find` returns is a match at some position. -/
theorem mem_of_find {r : Pattern} {text : List Char} {m : Match}
    (h : r.find text = some m) :
    ∃ before after, text = before ++ after ∧ m ∈ r.matches after := by
  induction text with
  | nil => exact ⟨[], [], rfl, List.mem_of_mem_head? h⟩
  | cons c text ih =>
    rw [Pattern.find] at h
    split at h
    · rename_i hhead
      obtain rfl := Option.some.inj h
      exact ⟨[], c :: text, rfl, List.mem_of_mem_head? hhead⟩
    · obtain ⟨before, after, rfl, hmem⟩ := ih h
      exact ⟨c :: before, after, rfl, hmem⟩

end Regex
