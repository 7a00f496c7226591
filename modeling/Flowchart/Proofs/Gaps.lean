import Flowchart.Proofs.Connectives
import Flowchart.Proofs.Decided
import Flowchart.Proofs.Reading

/-!
What a host may rely on while facts are still open. A condition that is decided stays so, if it does not
ask whether facts are known; one that is not decided names a fact that it reads and that is open in just
the way it says.
-/
namespace Flowchart

/-- The gap is at one of the facts given, and that fact is open in the way the gap says. -/
def Gap.Lies (facts : Facts) (among : List String) : Gap → Prop
  | .notAnswered fact => fact ∈ among ∧ facts.state fact = none
  | .unknown fact => fact ∈ among ∧ facts.state fact = some .unknown

variable {facts : Facts} {gap : Gap}

theorem Gap.Lies.mono {among others : List String} (lies : gap.Lies facts among)
    (within : ∀ fact ∈ among, fact ∈ others) : gap.Lies facts others := by
  cases gap with
  | notAnswered fact | unknown fact => exact ⟨within fact lies.1, lies.2⟩

theorem Outcome.ofBool_ne_pending (b : Bool) (gap : Gap) : ofBool b ≠ .pending gap := by
  cases b <;> simp [ofBool]

/-- A count that is pending is so for one of its terms. -/
theorem Outcome.mem_of_counted {min : Nat} {max : Option Nat} {terms : List Outcome}
    (pending : counted min max terms = .pending gap) : .pending gap ∈ terms := by
  simp only [counted] at pending
  split at pending
  · cases pending
  split at pending
  · cases pending
  cases found : terms.findSome? gap? with
  | none =>
      rw [orFirstGap, found] at pending
      cases pending
  | some first =>
      rw [orFirstGap, found] at pending
      cases pending
      obtain ⟨term, mem, gapped⟩ := List.exists_of_findSome?_eq_some found
      rw [gap?_eq_some_iff] at gapped
      exact gapped ▸ mem

namespace Condition

theorem lies_of_onValue {fact : String} {test : Value → Bool}
    (pending : onValue facts fact test = .pending gap) : gap.Lies facts [fact] := by
  unfold onValue at pending
  split at pending
  · exact absurd pending (Outcome.ofBool_ne_pending _ gap)
  · rename_i state
    cases pending
    exact ⟨List.mem_singleton_self _, state⟩
  · rename_i state
    cases pending
    exact ⟨List.mem_singleton_self _, state⟩

mutual
/-- A pending condition names a gap at a fact that it mentions. -/
theorem lies_of_eval (condition : Condition) (pending : condition.eval facts = .pending gap) :
    gap.Lies facts condition.mentions := by
  cases condition with
  | always => simp [eval] at pending
  | known fact =>
      rw [eval] at pending
      exact absurd pending (Outcome.ofBool_ne_pending _ gap)
  | isUnknown fact =>
      rw [eval] at pending
      split at pending
      · cases pending
      · cases pending
      · rename_i state
        cases pending
        exact ⟨List.mem_singleton_self _, state⟩
  | equals fact value => exact lies_of_onValue pending
  | oneOf fact values => exact lies_of_onValue pending
  | compare fact comparison bound => exact lies_of_onValue pending
  | all terms =>
      rw [eval, Outcome.conjunction_eq_counted] at pending
      exact lies_of_evalAll terms (Outcome.mem_of_counted pending)
  | any terms =>
      rw [eval, Outcome.disjunction_eq_counted] at pending
      exact lies_of_evalAll terms (Outcome.mem_of_counted pending)
  | not term =>
      rw [eval] at pending
      apply lies_of_eval term
      cases outcome : term.eval facts <;> rw [outcome] at pending <;> cases pending
      rfl
  | minOf min max terms =>
      rw [eval] at pending
      exact lies_of_evalAll terms (Outcome.mem_of_counted pending)

theorem lies_of_evalAll (terms : List Condition) (mem : .pending gap ∈ evalAll facts terms) :
    gap.Lies facts (mentionsAll terms) := by
  cases terms with
  | nil => cases mem
  | cons term rest =>
      rw [evalAll] at mem
      rw [mentionsAll]
      rcases List.mem_cons.1 mem with here | later
      · exact (lies_of_eval term here.symm).mono fun fact => List.mem_append_left _
      · exact (lies_of_evalAll rest later).mono fun fact => List.mem_append_right _
end

/-- A decided condition that does not ask whether facts are known is decided alike whatever the open
facts become; an undecided one names a fact that it reads, and tells how that fact is open. -/
theorem decided_or_gap (facts : Facts) (condition : Condition) :
    (condition.asksKnown = false → (condition.eval facts).isPending = false →
      ∀ later, facts.Grows later → condition.eval later = condition.eval facts) ∧
    (∀ fact, condition.eval facts = .pending (.notAnswered fact) →
      facts.state fact = none ∧ fact ∈ condition.facts) ∧
    ∀ fact, condition.eval facts = .pending (.unknown fact) →
      facts.state fact = some .unknown ∧ fact ∈ condition.facts := by
  refine ⟨?_, ?_, ?_⟩
  · intro plain decided later grows
    exact eval_foretells grows condition plain decided
  · intro fact pending
    obtain ⟨mem, state⟩ := lies_of_eval condition pending
    exact ⟨state, mem_facts.2 mem⟩
  · intro fact pending
    obtain ⟨mem, state⟩ := lies_of_eval condition pending
    exact ⟨state, mem_facts.2 mem⟩

/-- The answer to `p` is to be known, and just one of three things to be the case. -/
def surveyCondition : Condition :=
  .all [.not (.isUnknown "p"), .minOf 1 (some 1)
    [.equals "q" (.bool true), .oneOf "r" [.int 1, .int 2], .compare "s" .ge 18]]

def surveyFacts : Facts :=
  Facts.putAll ∅ [("p", some (.value (.text "x"))), ("q", some (.value (.bool true)))]

/-- First `r` stands in the way, unanswered and then unknown; as soon as two things are the case it does
not matter any more. -/
theorem decided_or_gap_survey :
    (surveyFacts.state "r" = none ∧ "r" ∈ surveyCondition.facts) ∧
    ((surveyFacts.put "r" (some .unknown)).state "r" = some .unknown ∧ "r" ∈ surveyCondition.facts) ∧
    ∀ state, surveyCondition.eval ((surveyFacts.put "s" (some (.value (.int 20)))).put "r" state) =
      surveyCondition.eval (surveyFacts.put "s" (some (.value (.int 20)))) := by
  refine ⟨?_, ?_, fun state => ?_⟩
  · exact (decided_or_gap surveyFacts surveyCondition).2.1 "r" (by decide)
  · exact (decided_or_gap (surveyFacts.put "r" (some .unknown)) surveyCondition).2.2 "r" (by decide)
  · apply (decided_or_gap (surveyFacts.put "s" (some (.value (.int 20)))) surveyCondition).1
    · decide
    · decide
    · exact Facts.Grows.put (by decide) state

end Condition

end Flowchart
