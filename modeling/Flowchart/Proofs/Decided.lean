import Flowchart.Condition.Outcome
import Mathlib.Data.List.Forall2

/-!
Decided conditions. As open facts are answered, or marked unknown, more conditions are decided, and
none that was decided already is decided another way. The one exception are conditions that ask
whether a fact is known: these are never open, and answering the fact turns them round.
-/
namespace Flowchart

namespace Condition

mutual
/-- Whether a condition asks anywhere if a fact is known. -/
def asksKnown : Condition → Bool
  | .known _ => true
  | .all terms => anyAsksKnown terms
  | .any terms => anyAsksKnown terms
  | .not term => term.asksKnown
  | .minOf _ _ terms => anyAsksKnown terms
  | _ => false

def anyAsksKnown : List Condition → Bool
  | [] => false
  | term :: rest => term.asksKnown || anyAsksKnown rest
end

end Condition

/-- Facts that are answered or marked unknown stay so; any others may have become so. -/
def Facts.Grows (facts later : Facts) : Prop :=
  ∀ fact, facts.state fact ≠ none → later.state fact = facts.state fact

theorem Facts.Grows.put {facts : Facts} {fact : String} (opened : facts.state fact = none)
    (state : FactState) : facts.Grows (facts.put fact state) := by
  intro other answered
  refine state_put_of_ne state ?_
  rintro rfl
  exact answered opened

/-- The later outcome is the one that has been decided on now, if one has. -/
def Outcome.Foretells (outcome later : Outcome) : Prop := outcome.isPending = false → later = outcome

namespace Outcome

variable {outcome later : Outcome} {outcomes laters : List Outcome}

theorem Foretells.refl (outcome : Outcome) : outcome.Foretells outcome := fun _ => rfl

theorem Foretells.negate (foretells : outcome.Foretells later) :
    outcome.negate.Foretells later.negate := by
  intro decided
  cases outcome with
  | satisfied | notSatisfied => rw [foretells rfl]
  | pending gap => cases decided

theorem Foretells.isSatisfied_le (foretells : outcome.Foretells later)
    (satisfied : outcome.isSatisfied = true) : later.isSatisfied = true := by
  cases outcome with
  | satisfied => rw [foretells rfl]; rfl
  | notSatisfied | pending => cases satisfied

/-- Without a gap among the terms all of them are decided. -/
theorem eq_of_findSome?_gap (foretell : List.Forall₂ Foretells outcomes laters)
    (closed : outcomes.findSome? gap? = none) : laters = outcomes := by
  induction foretell with
  | nil => rfl
  | @cons outcome later outcomes laters first _ ih =>
      rw [List.findSome?_cons] at closed
      cases outcome with
      | satisfied | notSatisfied => rw [first rfl, ih closed]
      | pending gap => cases closed

/-- A decision that a gap among the terms would put off stands. -/
theorem eq_of_orFirstGap (foretell : List.Forall₂ Foretells outcomes laters) {otherwise : Outcome}
    (decided : (orFirstGap outcomes otherwise).isPending = false) : laters = outcomes := by
  refine eq_of_findSome?_gap foretell ?_
  cases found : outcomes.findSome? gap? with
  | none => rfl
  | some gap =>
      rw [orFirstGap, found] at decided
      cases decided

theorem mem_of_foretell (foretell : List.Forall₂ Foretells outcomes laters)
    (mem : outcome ∈ outcomes) (decided : outcome.isPending = false) : outcome ∈ laters := by
  induction foretell with
  | nil => cases mem
  | cons first _ ih =>
      rcases List.mem_cons.1 mem with rfl | rest
      · rw [first decided]
        exact List.mem_cons_self ..
      · exact List.mem_cons_of_mem _ (ih rest)

theorem foretells_conjunction (foretell : List.Forall₂ Foretells outcomes laters) :
    (conjunction outcomes).Foretells (conjunction laters) := by
  intro decided
  by_cases refuted : Outcome.notSatisfied ∈ outcomes
  · rw [conjunction, conjunction, if_pos refuted, if_pos (mem_of_foretell foretell refuted rfl)]
  · have read : conjunction outcomes = orFirstGap outcomes .satisfied := if_neg refuted
    rw [eq_of_orFirstGap foretell (read ▸ decided)]

theorem foretells_disjunction (foretell : List.Forall₂ Foretells outcomes laters) :
    (disjunction outcomes).Foretells (disjunction laters) := by
  intro decided
  by_cases satisfied : Outcome.satisfied ∈ outcomes
  · rw [disjunction, disjunction, if_pos satisfied, if_pos (mem_of_foretell foretell satisfied rfl)]
  · have read : disjunction outcomes = orFirstGap outcomes .notSatisfied := if_neg satisfied
    rw [eq_of_orFirstGap foretell (read ▸ decided)]

/-- Terms that are decided later add to those that are sure and leave those that may still be. -/
theorem count_of_foretell (foretell : List.Forall₂ Foretells outcomes laters) :
    outcomes.countP isSatisfied ≤ laters.countP isSatisfied ∧
      laters.countP isSatisfied + laters.countP isPending ≤
        outcomes.countP isSatisfied + outcomes.countP isPending := by
  induction foretell with
  | nil => exact ⟨Nat.le_refl _, Nat.le_refl _⟩
  | @cons outcome later outcomes laters first _ ih =>
      simp only [List.countP_cons]
      cases outcome with
      | satisfied | notSatisfied =>
          rw [first rfl]
          omega
      | pending gap =>
          cases later <;> simp only [isSatisfied, isPending] <;> grind

/-- What is too many is so for more, and what is few enough is so for fewer. -/
theorem within_of_le {max : Option Nat} {fewer more : Nat} (le : fewer ≤ more)
    (within : (max.all fun upper => more ≤ upper) = true) :
    (max.all fun upper => fewer ≤ upper) = true := by
  cases max with
  | none => rfl
  | some upper =>
      rw [Option.all_some, decide_eq_true_eq] at within ⊢
      exact Nat.le_trans le within

theorem foretells_counted (foretell : List.Forall₂ Foretells outcomes laters) (min : Nat)
    (max : Option Nat) : (counted min max outcomes).Foretells (counted min max laters) := by
  obtain ⟨sure, most⟩ := count_of_foretell foretell
  have surely : laters.countP isSatisfied ≤ laters.countP isSatisfied + laters.countP isPending :=
    Nat.le_add_right ..
  intro decided
  simp only [counted] at decided ⊢
  split at decided
  · rename_i missed
    rw [if_pos missed, if_pos]
    simp only [Bool.or_eq_true, Bool.not_eq_true', decide_eq_true_eq] at missed ⊢
    rcases missed with beyond | below
    · exact .inl (Bool.eq_false_iff.2 fun within => Bool.eq_false_iff.1 beyond (within_of_le sure within))
    · exact .inr (Nat.lt_of_le_of_lt most below)
  · split at decided
    · rename_i spared met
      rw [if_neg spared, if_pos met]
      simp only [Bool.and_eq_true, decide_eq_true_eq] at met
      have within := within_of_le most met.2
      have enough := Nat.le_trans met.1 sure
      simp only [within_of_le surely within, within, decide_eq_true enough,
        decide_eq_false (Nat.not_lt.2 (Nat.le_trans enough surely))]
      rfl
    · rw [eq_of_orFirstGap foretell decided]

end Outcome

namespace Condition

variable {facts later : Facts}

theorem onValue_foretells (grows : facts.Grows later) (fact : String) (test : Value → Bool) :
    (onValue facts fact test).Foretells (onValue later fact test) := by
  intro decided
  cases state : facts.state fact with
  | none =>
      rw [onValue, state] at decided
      cases decided
  | some answer =>
      have same := grows fact (state ▸ Option.some_ne_none answer)
      rw [onValue, onValue, same]

mutual
/-- A condition that does not ask if facts are known is decided once and for all. -/
theorem eval_foretells (grows : facts.Grows later) (condition : Condition)
    (plain : condition.asksKnown = false) :
    (condition.eval facts).Foretells (condition.eval later) := by
  cases condition with
  | always =>
      rw [eval, eval]
      exact .refl _
  | known fact => cases plain
  | isUnknown fact =>
      intro decided
      cases state : facts.state fact with
      | none =>
          rw [eval, state] at decided
          cases decided
      | some answer =>
          have same := grows fact (state ▸ Option.some_ne_none answer)
          rw [eval, eval, same]
  | equals fact value =>
      rw [eval, eval]
      exact onValue_foretells grows fact _
  | oneOf fact values =>
      rw [eval, eval]
      exact onValue_foretells grows fact _
  | compare fact comparison bound =>
      rw [eval, eval]
      exact onValue_foretells grows fact _
  | all terms =>
      rw [eval, eval]
      exact Outcome.foretells_conjunction (evalAll_foretells grows terms plain)
  | any terms =>
      rw [eval, eval]
      exact Outcome.foretells_disjunction (evalAll_foretells grows terms plain)
  | not term =>
      rw [eval, eval]
      exact (eval_foretells grows term plain).negate
  | minOf min max terms =>
      rw [eval, eval]
      exact Outcome.foretells_counted (evalAll_foretells grows terms plain) _ _

theorem evalAll_foretells (grows : facts.Grows later) (terms : List Condition)
    (plain : anyAsksKnown terms = false) :
    List.Forall₂ Outcome.Foretells (evalAll facts terms) (evalAll later terms) := by
  cases terms with
  | nil => exact .nil
  | cons term rest =>
      rw [anyAsksKnown, Bool.or_eq_false_iff] at plain
      rw [evalAll, evalAll]
      exact .cons (eval_foretells grows term plain.1) (evalAll_foretells grows rest plain.2)
end

/-- What is satisfied stays so. -/
theorem holds_of_grows (grows : facts.Grows later) {condition : Condition}
    (plain : condition.asksKnown = false) (holds : condition.holds facts = true) :
    condition.holds later = true :=
  (eval_foretells grows condition plain).isSatisfied_le holds

/-- An edge that asks if facts are known is closed at one moment and open at the next. -/
example : (eval ∅ (.known "q")).isPending = false ∧
    (eval (Facts.put ∅ "q" (some .unknown)) (.known "q")).isSatisfied = true := by decide

end Condition

end Flowchart
