import Flowchart.Condition.Outcome
import Flowchart.Proofs.WellFormed
import Mathlib.Data.List.Forall2

/-!
What the connectives decide. A resolution of terms takes each pending one as satisfied or as not
satisfied, each on its own. A connective is decided just where all resolutions of its terms agree on
it; where they do not, it names the first gap. A conjunction asks for as many satisfied terms as there
are, a disjunction for one, so both are counts.
-/
namespace Flowchart

namespace Outcome

/-- How an outcome can be resolved: as it was decided, and either way if it is pending. -/
inductive Resolves : Outcome → Bool → Prop
  | satisfied : Resolves .satisfied true
  | notSatisfied : Resolves .notSatisfied false
  | pending (gap : Gap) (b : Bool) : Resolves (.pending gap) b

/-- A truth value for each of the terms. -/
abbrev Resolution : List Outcome → List Bool → Prop := List.Forall₂ Resolves

/-- The gap of the first pending term. -/
def FirstGap (terms : List Outcome) (gap : Gap) : Prop :=
  ∃ before after, terms = before ++ .pending gap :: after ∧
    ∀ term ∈ before, term.isPending = false

/-- What the terms force a reading of their resolutions to be: it is decided where all of them read the
same, and waits for the first gap where they do not. -/
structure Forced (reading : List Bool → Prop) (terms : List Outcome) (outcome : Outcome) : Prop where
  satisfied : outcome = .satisfied ↔ ∀ bits, Resolution terms bits → reading bits
  notSatisfied : outcome = .notSatisfied ↔ ∀ bits, Resolution terms bits → ¬reading bits
  pending : (∃ bits, Resolution terms bits ∧ reading bits) →
    (∃ bits, Resolution terms bits ∧ ¬reading bits) →
    ∃ gap, outcome = .pending gap ∧ FirstGap terms gap

/-- The number is not above the upper bound, if there is one. -/
def Under (max : Option Nat) (n : Nat) : Prop := ∀ upper ∈ max, n ≤ upper

theorem under_none (n : Nat) : Under none n := fun _ mem => nomatch mem

/-- As many of the terms are satisfied as the bounds ask for. -/
def Tallies (min : Nat) (max : Option Nat) (bits : List Bool) : Prop :=
  min ≤ bits.count true ∧ Under max (bits.count true)

section Counts

variable {terms : List Outcome} {bits : List Bool}

theorem countP_add_count (terms : List Outcome) :
    terms.countP isSatisfied + terms.countP isPending + terms.count .notSatisfied = terms.length := by
  induction terms with
  | nil => rfl
  | cons term rest ih =>
      cases term <;>
        simp only [List.countP_cons, List.count_cons, List.length_cons, isSatisfied, isPending,
          if_true, if_false, Bool.false_eq_true, beq_iff_eq, reduceCtorEq] <;>
        omega

/-- Pending terms may join the satisfied ones, and no others can. -/
theorem Resolution.count_bounds (resolution : Resolution terms bits) :
    terms.countP isSatisfied ≤ bits.count true ∧
      bits.count true ≤ terms.countP isSatisfied + terms.countP isPending := by
  induction resolution with
  | nil => simp
  | @cons term b terms bits first _ ih =>
      cases first with
      | satisfied | notSatisfied =>
          simp only [List.countP_cons, List.count_cons, isSatisfied, isPending, if_true, if_false,
            Bool.false_eq_true, beq_iff_eq]
          omega
      | pending gap b =>
          cases b <;>
            simp only [List.countP_cons, List.count_cons, isSatisfied, isPending, if_true, if_false,
              Bool.false_eq_true, beq_iff_eq] <;>
            omega

/-- Any number of the pending terms may join. -/
theorem exists_resolution {n : Nat} (least : terms.countP isSatisfied ≤ n)
    (most : n ≤ terms.countP isSatisfied + terms.countP isPending) :
    ∃ bits, Resolution terms bits ∧ bits.count true = n := by
  induction terms generalizing n with
  | nil => exact ⟨[], .nil, (Nat.le_zero.1 most).symm⟩
  | cons term rest ih =>
      cases term with
      | satisfied =>
          simp only [List.countP_cons, isSatisfied, isPending, if_true, Bool.false_eq_true,
            if_false] at least most
          obtain ⟨bits, resolution, count⟩ := @ih (n - 1) (by omega) (by omega)
          refine ⟨true :: bits, .cons .satisfied resolution, ?_⟩
          rw [List.count_cons_self]
          omega
      | notSatisfied =>
          simp only [List.countP_cons, isSatisfied, isPending, Bool.false_eq_true, if_false] at least most
          obtain ⟨bits, resolution, count⟩ := @ih n (by omega) (by omega)
          exact ⟨false :: bits, .cons .notSatisfied resolution, by simpa using count⟩
      | pending gap =>
          simp only [List.countP_cons, isSatisfied, isPending, if_true, Bool.false_eq_true,
            if_false] at least most
          -- The term stays out as long as the others can make up the number.
          by_cases reached : n ≤ rest.countP isSatisfied + rest.countP isPending
          · obtain ⟨bits, resolution, count⟩ := @ih n (by omega) reached
            exact ⟨false :: bits, .cons (.pending gap false) resolution, by simpa using count⟩
          · obtain ⟨bits, resolution, count⟩ := @ih (n - 1) (by omega) (by omega)
            refine ⟨true :: bits, .cons (.pending gap true) resolution, ?_⟩
            rw [List.count_cons_self]
            omega

end Counts

section Gaps

variable {terms : List Outcome} {gap : Gap}

theorem gap?_eq_some_iff {outcome : Outcome} : outcome.gap? = some gap ↔ outcome = .pending gap := by
  cases outcome <;> simp [gap?]

theorem gap?_eq_none_iff {outcome : Outcome} : outcome.gap? = none ↔ outcome.isPending = false := by
  cases outcome <;> simp [gap?, isPending]

theorem firstGap_iff : FirstGap terms gap ↔ terms.findSome? gap? = some gap := by
  rw [List.findSome?_eq_some_iff, FirstGap]
  constructor
  · rintro ⟨before, after, split, decided⟩
    exact ⟨before, _, after, split, rfl, fun term mem => gap?_eq_none_iff.2 (decided term mem)⟩
  · rintro ⟨before, term, after, split, found, decided⟩
    rw [gap?_eq_some_iff] at found
    subst found
    exact ⟨before, after, split, fun term mem => gap?_eq_none_iff.1 (decided term mem)⟩

theorem orFirstGap_of_firstGap (first : FirstGap terms gap) (decided : Outcome) :
    orFirstGap terms decided = .pending gap := by
  rw [orFirstGap, firstGap_iff.1 first]

theorem exists_firstGap (opened : 0 < terms.countP isPending) : ∃ gap, FirstGap terms gap := by
  cases found : terms.findSome? gap? with
  | some gap => exact ⟨gap, firstGap_iff.2 found⟩
  | none =>
      obtain ⟨term, mem, pending⟩ := List.countP_pos_iff.1 opened
      have decided := gap?_eq_none_iff.1 (List.findSome?_eq_none_iff.1 found term mem)
      rw [pending] at decided
      cases decided

theorem orFirstGap_of_closed (closed : terms.countP isPending = 0) (decided : Outcome) :
    orFirstGap terms decided = decided := by
  have absent : terms.findSome? gap? = none := by
    rw [List.findSome?_eq_none_iff]
    intro term mem
    exact gap?_eq_none_iff.2 (Bool.eq_false_iff.2 (List.countP_eq_zero.1 closed term mem))
  rw [orFirstGap, absent]

end Gaps

section Forced

variable {terms : List Outcome} {reading other : List Bool → Prop}

theorem Forced.congr (same : ∀ bits, Resolution terms bits → (reading bits ↔ other bits))
    {outcome : Outcome} (forced : Forced reading terms outcome) : Forced other terms outcome := by
  refine ⟨forced.satisfied.trans ?_, forced.notSatisfied.trans ?_, ?_⟩
  · exact forall₂_congr same
  · exact forall₂_congr fun bits resolution => not_congr (same bits resolution)
  · rintro ⟨bits, resolution, reads⟩ ⟨others, against, fails⟩
    apply forced.pending
    · exact ⟨bits, resolution, (same bits resolution).2 reads⟩
    · exact ⟨others, against, fun reads => fails ((same others against).1 reads)⟩

theorem forced_satisfied (all : ∀ bits, Resolution terms bits → reading bits) :
    Forced reading terms .satisfied := by
  obtain ⟨bits, resolution, -⟩ := exists_resolution (Nat.le_refl _) (Nat.le_add_right _ _)
  refine ⟨iff_of_true rfl all, ?_, ?_⟩
  · exact iff_of_false nofun fun none => none bits resolution (all bits resolution)
  · rintro - ⟨others, against, fails⟩
    exact absurd (all others against) fails

theorem forced_notSatisfied (none : ∀ bits, Resolution terms bits → ¬reading bits) :
    Forced reading terms .notSatisfied := by
  obtain ⟨bits, resolution, -⟩ := exists_resolution (Nat.le_refl _) (Nat.le_add_right _ _)
  refine ⟨?_, iff_of_true rfl none, ?_⟩
  · exact iff_of_false nofun fun all => none bits resolution (all bits resolution)
  · rintro ⟨others, against, reads⟩
    exact absurd reads (none others against)

theorem forced_pending {gap : Gap} (first : FirstGap terms gap)
    (some : ∃ bits, Resolution terms bits ∧ reading bits)
    (others : ∃ bits, Resolution terms bits ∧ ¬reading bits) :
    Forced reading terms (.pending gap) := by
  refine ⟨?_, ?_, fun _ _ => ⟨gap, rfl, first⟩⟩
  · obtain ⟨bits, resolution, fails⟩ := others
    exact iff_of_false nofun fun all => fails (all bits resolution)
  · obtain ⟨bits, resolution, reads⟩ := some
    exact iff_of_false nofun fun none => none bits resolution reads

end Forced

section Counted

variable {terms : List Outcome} {min : Nat} {max : Option Nat}

theorem all_le_iff {n : Nat} : (max.all fun upper => n ≤ upper) = true ↔ Under max n := by
  cases max <;> simp [Under]

/-- The bounds can no longer be kept. -/
theorem counted_of_missed
    (missed : ¬Under max (terms.countP isSatisfied) ∨
      terms.countP isSatisfied + terms.countP isPending < min) :
    counted min max terms = .notSatisfied := by
  rw [← all_le_iff] at missed
  unfold counted
  rw [if_pos]
  simpa using missed

/-- The bounds can no longer be broken. -/
theorem counted_of_met (enough : min ≤ terms.countP isSatisfied)
    (under : Under max (terms.countP isSatisfied + terms.countP isPending)) :
    counted min max terms = .satisfied := by
  have kept : Under max (terms.countP isSatisfied) :=
    fun upper mem => Nat.le_trans (Nat.le_add_right _ _) (under upper mem)
  rw [← all_le_iff] at under kept
  unfold counted
  rw [if_neg, if_pos]
  · simp [enough, under]
  · simp only [kept, Bool.not_true, Bool.false_or, decide_eq_true_eq]
    omega

theorem counted_of_unsettled (kept : Under max (terms.countP isSatisfied))
    (reached : min ≤ terms.countP isSatisfied + terms.countP isPending)
    (unsettled : ¬(min ≤ terms.countP isSatisfied ∧
      Under max (terms.countP isSatisfied + terms.countP isPending))) :
    counted min max terms = orFirstGap terms .notSatisfied := by
  rw [← all_le_iff] at kept unsettled
  unfold counted
  rw [if_neg, if_neg]
  · simpa using unsettled
  · simp [kept, reached]

/-- A count is forced, if its bounds leave a number between them. -/
theorem counted_forced (fit : Under max min) :
    Forced (Tallies min max) terms (counted min max terms) := by
  by_cases missed : ¬Under max (terms.countP isSatisfied) ∨
      terms.countP isSatisfied + terms.countP isPending < min
  · rw [counted_of_missed missed]
    apply forced_notSatisfied
    rintro bits resolution ⟨low, high⟩
    have bounds := resolution.count_bounds
    rcases missed with beyond | below
    · exact beyond fun upper mem => Nat.le_trans bounds.1 (high upper mem)
    · omega
  rw [not_or, not_not, Nat.not_lt] at missed
  obtain ⟨kept, reached⟩ := missed
  by_cases met : min ≤ terms.countP isSatisfied ∧
      Under max (terms.countP isSatisfied + terms.countP isPending)
  · rw [counted_of_met met.1 met.2]
    apply forced_satisfied
    intro bits resolution
    have bounds := resolution.count_bounds
    exact ⟨Nat.le_trans met.1 bounds.1, fun upper mem => Nat.le_trans bounds.2 (met.2 upper mem)⟩
  have opened : 0 < terms.countP isPending := by
    rw [Nat.pos_iff_ne_zero]
    intro closed
    apply met
    rw [closed, Nat.add_zero] at reached ⊢
    exact ⟨reached, kept⟩
  obtain ⟨gap, first⟩ := exists_firstGap opened
  rw [counted_of_unsettled kept reached met, orFirstGap_of_firstGap first]
  apply forced_pending first
  · -- The lower bound is met, by more terms only if they are needed for it.
    obtain ⟨bits, resolution, count⟩ :=
      exists_resolution (Nat.le_max_left _ min) (Nat.max_le.2 ⟨Nat.le_add_right _ _, reached⟩)
    refine ⟨bits, resolution, ?_⟩
    rw [Tallies, count]
    exact ⟨Nat.le_max_right _ _, fun upper mem => Nat.max_le.2 ⟨kept upper mem, fit upper mem⟩⟩
  · rcases not_and_or.1 met with below | beyond
    · obtain ⟨bits, resolution, count⟩ := exists_resolution (Nat.le_refl _) (Nat.le_add_right _ _)
      exact ⟨bits, resolution, fun tallies => below (count ▸ tallies.1)⟩
    · obtain ⟨bits, resolution, count⟩ := exists_resolution (Nat.le_add_right _ _) (Nat.le_refl _)
      exact ⟨bits, resolution, fun tallies => beyond (count ▸ tallies.2)⟩

/-- A conjunction is decided as a count that all terms have to join. -/
theorem conjunction_eq_counted (terms : List Outcome) :
    conjunction terms = counted terms.length none terms := by
  have total := countP_add_count terms
  by_cases refuted : .notSatisfied ∈ terms
  · have some := List.count_pos_iff.2 refuted
    rw [conjunction, if_pos refuted, counted_of_missed]
    omega
  have none := List.count_eq_zero.2 refuted
  rw [conjunction, if_neg refuted]
  by_cases closed : terms.countP isPending = 0
  · rw [orFirstGap_of_closed closed, counted_of_met]
    · omega
    · exact under_none _
  · obtain ⟨gap, first⟩ := exists_firstGap (Nat.pos_iff_ne_zero.2 closed)
    rw [orFirstGap_of_firstGap first, counted_of_unsettled, orFirstGap_of_firstGap first]
    · exact under_none _
    · omega
    · omega

/-- A disjunction is decided as a count that one term has to join. -/
theorem disjunction_eq_counted (terms : List Outcome) : disjunction terms = counted 1 none terms := by
  by_cases satisfied : .satisfied ∈ terms
  · have some : 0 < terms.countP isSatisfied := List.countP_pos_iff.2 ⟨_, satisfied, rfl⟩
    rw [disjunction, if_pos satisfied, counted_of_met some (under_none _)]
  have none : terms.countP isSatisfied = 0 := by
    rw [List.countP_eq_zero]
    rintro (_ | _ | gap) mem
    · exact absurd mem satisfied
    · exact Bool.false_ne_true
    · exact Bool.false_ne_true
  rw [disjunction, if_neg satisfied]
  by_cases closed : terms.countP isPending = 0
  · rw [orFirstGap_of_closed closed, counted_of_missed]
    omega
  · rw [counted_of_unsettled (under_none _)]
    · omega
    · omega

end Counted

end Outcome

namespace Condition

/-- Conjunctions, disjunctions and counts are decided just where their terms force it, whichever terms
are still open and wherever they stand; else they wait for the first term that is open. -/
theorem connectives_forced (facts : Facts) (terms : List Condition) :
    Outcome.Forced (fun bits => ∀ b ∈ bits, b = true) (terms.map (eval facts))
      (eval facts (.all terms)) ∧
    Outcome.Forced (fun bits => true ∈ bits) (terms.map (eval facts)) (eval facts (.any terms)) ∧
    ∀ min max, boundsFit min max terms.length = true →
      Outcome.Forced
        (fun bits => min.toNat ≤ bits.count true ∧ ∀ upper ∈ max, bits.count true ≤ upper.toNat)
        (terms.map (eval facts)) (eval facts (.minOf min max terms)) := by
  rw [eval, eval, evalAll_eq_map]
  refine ⟨?_, ?_, ?_⟩
  · rw [Outcome.conjunction_eq_counted]
    apply (Outcome.counted_forced (Outcome.under_none _)).congr
    intro bits resolution
    have every : bits.length ≤ bits.count true ↔ ∀ b ∈ bits, true = b := by
      rw [← List.count_eq_length]
      exact ⟨Nat.le_antisymm List.count_le_length, fun same => Nat.le_of_eq same.symm⟩
    rw [Outcome.Tallies, and_iff_left (Outcome.under_none _), resolution.length_eq, every]
    simp only [eq_comm]
  · rw [Outcome.disjunction_eq_counted]
    apply (Outcome.counted_forced (Outcome.under_none _)).congr
    intro bits resolution
    rw [Outcome.Tallies, and_iff_left (Outcome.under_none _)]
    exact List.count_pos_iff
  · intro min max fit
    rw [eval, evalAll_eq_map]
    have fit := (boundsFit_iff.1 fit).2
    apply (Outcome.counted_forced ?_).congr
    · intro bits resolution
      simp [Outcome.Tallies, Outcome.Under]
    · intro upper mem
      obtain ⟨bound, given, rfl⟩ := Option.map_eq_some_iff.1 mem
      exact (fit bound given).1

/-- Two of the questions are answered, one the one way and one the other. -/
def pollFacts : Facts :=
  Facts.putAll ∅ [("a", some (.value (.bool true))), ("b", some (.value (.bool false)))]

def pollTerms : List Condition := ["b", "c", "a", "d"].map fun fact => .equals fact (.bool true)

/-- Just one of the questions is to be answered with yes, which one of them is; so long as the others
are open this waits for the first of them. -/
theorem connectives_forced_poll :
    boundsFit 1 (some 1) pollTerms.length = true ∧
      Outcome.Forced
        (fun bits => UInt64.toNat 1 ≤ bits.count true ∧
          ∀ upper ∈ some (1 : UInt64), bits.count true ≤ upper.toNat)
        (pollTerms.map (eval pollFacts)) (eval pollFacts (.minOf 1 (some 1) pollTerms)) ∧
      eval pollFacts (.minOf 1 (some 1) pollTerms) = .pending (.notAnswered "c") := by
  have fit : boundsFit 1 (some 1) pollTerms.length = true := by decide
  obtain ⟨-, -, counts⟩ := connectives_forced pollFacts pollTerms
  exact ⟨fit, counts 1 (some 1) fit, by decide⟩

end Condition

end Flowchart
