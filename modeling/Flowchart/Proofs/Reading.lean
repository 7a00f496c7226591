import Flowchart.Condition.Outcome
import Flowchart.Proofs.Compile
import Flowchart.Proofs.Roster

/-!
What conditions read. The outcome of a condition depends on the facts that it reads and on no others,
and a compiled chart lists under each fact just the triggers whose condition reads it.
-/
namespace Flowchart

namespace Condition

theorem mem_noteFact {noted : List String} {fact other : String} :
    other ∈ noteFact noted fact ↔ other ∈ noted ∨ other = fact := by
  unfold noteFact
  split
  · refine ⟨.inl, fun mem => mem.elim id ?_⟩
    rintro rfl
    assumption
  · rw [List.mem_append, List.mem_singleton]

theorem nodup_noteFact {noted : List String} (distinct : noted.Nodup) (fact : String) :
    (noteFact noted fact).Nodup := by
  unfold noteFact
  split
  · exact distinct
  · rw [List.nodup_append]
    refine ⟨distinct, List.pairwise_singleton _ _, fun a held b last same => ?_⟩
    rw [same, List.mem_singleton.1 last] at held
    contradiction

theorem mem_foldl_noteFact {mentions noted : List String} {fact : String} :
    fact ∈ mentions.foldl noteFact noted ↔ fact ∈ noted ∨ fact ∈ mentions := by
  induction mentions generalizing noted with
  | nil => simp
  | cons first rest ih => rw [List.foldl_cons, ih, mem_noteFact, List.mem_cons, or_assoc]

theorem nodup_foldl_noteFact {mentions noted : List String} (distinct : noted.Nodup) :
    (mentions.foldl noteFact noted).Nodup := by
  induction mentions generalizing noted with
  | nil => exact distinct
  | cons first rest ih => exact ih (nodup_noteFact distinct first)

/-- A condition reads the facts that it mentions. -/
theorem mem_facts {condition : Condition} {fact : String} :
    fact ∈ condition.facts ↔ fact ∈ condition.mentions := by
  rw [facts, mem_foldl_noteFact]
  simp

theorem nodup_facts (condition : Condition) : condition.facts.Nodup := nodup_foldl_noteFact .nil

variable {left right : Facts}

theorem onValue_congr {fact : String} (same : left.state fact = right.state fact)
    (test : Value → Bool) : onValue left fact test = onValue right fact test := by
  rw [onValue, onValue, same]

mutual
/-- Facts that agree where a condition mentions them give it the same outcome. -/
theorem eval_congr (condition : Condition)
    (same : ∀ fact ∈ condition.mentions, left.state fact = right.state fact) :
    condition.eval left = condition.eval right := by
  cases condition with
  | always => rfl
  | known fact =>
      rw [eval, eval, same fact (List.mem_singleton_self _)]
  | isUnknown fact =>
      rw [eval, eval, same fact (List.mem_singleton_self _)]
  | equals fact value =>
      rw [eval, eval]
      exact onValue_congr (same fact (List.mem_singleton_self _)) _
  | oneOf fact values =>
      rw [eval, eval]
      exact onValue_congr (same fact (List.mem_singleton_self _)) _
  | compare fact comparison bound =>
      rw [eval, eval]
      exact onValue_congr (same fact (List.mem_singleton_self _)) _
  | all terms => rw [eval, eval, evalAll_congr terms same]
  | any terms => rw [eval, eval, evalAll_congr terms same]
  | not term => rw [eval, eval, eval_congr term same]
  | minOf min max terms => rw [eval, eval, evalAll_congr terms same]

theorem evalAll_congr (terms : List Condition)
    (same : ∀ fact ∈ mentionsAll terms, left.state fact = right.state fact) :
    evalAll left terms = evalAll right terms := by
  cases terms with
  | nil => rfl
  | cons term rest =>
      rw [mentionsAll] at same
      rw [evalAll, evalAll, eval_congr term fun fact mem => same fact (List.mem_append_left _ mem),
        evalAll_congr rest fun fact mem => same fact (List.mem_append_right _ mem)]
end

theorem holds_congr {condition : Condition}
    (same : ∀ fact ∈ condition.facts, left.state fact = right.state fact) :
    condition.holds left = condition.holds right := by
  rw [holds, holds, eval_congr condition fun fact mem => same fact (mem_facts.2 mem)]

end Condition

section Readers

variable {readers : Listing String (List TriggerRef)} {fact : String} {ref : TriggerRef}

theorem getD_at?_addReader (read : String) :
    ((addReader readers read ref).at? fact).getD [] =
      (readers.at? fact).getD [] ++ if read = fact then [ref] else [] := by
  rw [addReader, Listing.at?_set]
  by_cases same : read = fact
  · rw [if_pos same, if_pos same, same, Option.getD_some]
  · rw [if_neg same, if_neg same, List.append_nil]

/-- A trigger is listed once under each fact that it reads. -/
theorem getD_at?_foldl_addReader {reads : List String} (distinct : reads.Nodup) :
    ((reads.foldl (fun held read => addReader held read ref) readers).at? fact).getD [] =
      (readers.at? fact).getD [] ++ if fact ∈ reads then [ref] else [] := by
  induction reads generalizing readers with
  | nil => simp
  | cons first rest ih =>
      rw [List.nodup_cons] at distinct
      rw [List.foldl_cons, ih distinct.2, getD_at?_addReader]
      by_cases same : first = fact
      · subst same
        simp [distinct.1]
      · simp [same, Ne.symm same]

theorem getD_at?_foldl_readers (entries : List (Trigger × Nat)) :
    ((entries.foldl
        (fun held entry => entry.1.condition.facts.foldl
          (fun held read => addReader held read ⟨entry.2⟩) held) readers).at? fact).getD [] =
      (readers.at? fact).getD [] ++
        (entries.filter fun entry => fact ∈ entry.1.condition.facts).map fun entry => ⟨entry.2⟩ := by
  induction entries generalizing readers with
  | nil => simp
  | cons entry rest ih =>
      rw [List.foldl_cons, ih, getD_at?_foldl_addReader entry.1.condition.nodup_facts,
        List.filter_cons]
      by_cases reads : fact ∈ entry.1.condition.facts
      · simp [reads]
      · simp [reads]

end Readers

namespace ChartDecl

variable {decl : ChartDecl} {chart : Chart}

/-- Under a fact are listed, in their order, the triggers that read it. -/
theorem triggersReading_of_compile (compiled : decl.compile = .ok chart) (fact : String) :
    chart.triggersReading fact =
      (chart.triggers.zipIdx.filter fun entry => fact ∈ entry.1.condition.facts).map
        fun entry => ⟨entry.2⟩ := by
  obtain ⟨edges, nodes, triggers, -, -, -, -, rfl⟩ :=
    exists_parts_of_compile compiled
  exact getD_at?_foldl_readers triggers.zipIdx

theorem mem_triggersReading_of_compile (compiled : decl.compile = .ok chart) {fact : String}
    {ref : TriggerRef} :
    ref ∈ chart.triggersReading fact ↔
      ∃ trigger, chart.trigger? ref = some trigger ∧ fact ∈ trigger.condition.facts := by
  rw [triggersReading_of_compile compiled]
  simp only [List.mem_map, List.mem_filter, List.mem_zipIdx_iff_getElem?, decide_eq_true_eq]
  constructor
  · rintro ⟨⟨trigger, index⟩, ⟨listed, reads⟩, rfl⟩
    exact ⟨trigger, listed, reads⟩
  · rintro ⟨trigger, known, reads⟩
    exact ⟨(trigger, ref.index), ⟨known, reads⟩, rfl⟩

/-- Triggers are listed in the order of their numbers. -/
theorem pairwise_triggersReading_of_compile (compiled : decl.compile = .ok chart) (fact : String) :
    (chart.triggersReading fact).Pairwise fun first second => first.index < second.index := by
  rw [triggersReading_of_compile compiled, List.pairwise_map]
  apply List.Pairwise.filter
  have numbers : (chart.triggers.zipIdx.map Prod.snd).Pairwise (· < ·) := by
    rw [List.zipIdx_map_snd]
    exact List.pairwise_lt_range'
  exact List.pairwise_map.1 numbers

theorem nodup_triggersReading_of_compile (compiled : decl.compile = .ok chart) (fact : String) :
    (chart.triggersReading fact).Nodup := by
  apply (pairwise_triggersReading_of_compile compiled fact).imp
  intro first second ascends same
  rw [same] at ascends
  exact Nat.lt_irrefl _ ascends

/-- A chart without flows has no triggers. -/
theorem trigger?_of_compile_of_isEmpty (compiled : decl.compile = .ok chart)
    (empty : chart.isEmpty = true) (ref : TriggerRef) : chart.trigger? ref = none := by
  obtain ⟨edges, nodes, triggers, -, -, -, aimed, rfl⟩ :=
    exists_parts_of_compile compiled
  have bare : Placement.layout 0 0 0 decl.flows = [] := by simpa [Chart.isEmpty] using empty
  rw [bare] at aimed
  have pairs := forall₂_of_mapM_eq_ok aimed
  cases triggers with
  | nil => rfl
  | cons trigger rest =>
      obtain ⟨first, others, made, -⟩ := List.forall₂_cons_right_iff.1 pairs
      cases made

end ChartDecl

/-- Conditions read no facts but those that they are said to read. In a compiled chart every fact lists
just the triggers that read it, ascending, so a trigger that none of the changed facts lists is evaluated
as it was before. -/
theorem reads_and_readers :
    (∀ (condition : Condition) (left right : Facts),
      (∀ fact ∈ condition.facts, left.state fact = right.state fact) →
      condition.eval left = condition.eval right) ∧
    ∀ (decl : ChartDecl) (chart : Chart), decl.compile = .ok chart →
      (∀ fact, ((chart.triggersReading fact).Pairwise fun first second => first.index < second.index) ∧
        ∀ ref, ref ∈ chart.triggersReading fact ↔
          ∃ trigger, chart.trigger? ref = some trigger ∧ fact ∈ trigger.condition.facts) ∧
      ∀ ref trigger (left right : Facts), chart.trigger? ref = some trigger →
        (∀ fact, left.state fact ≠ right.state fact → ref ∉ chart.triggersReading fact) →
        trigger.condition.eval left = trigger.condition.eval right := by
  have reads : ∀ (condition : Condition) (left right : Facts),
      (∀ fact ∈ condition.facts, left.state fact = right.state fact) →
      condition.eval left = condition.eval right := by
    intro condition left right same
    apply Condition.eval_congr
    intro fact mem
    exact same fact (Condition.mem_facts.2 mem)
  refine ⟨reads, fun decl chart compiled => ⟨fun fact => ?_, ?_⟩⟩
  · exact ⟨ChartDecl.pairwise_triggersReading_of_compile compiled fact,
      fun ref => ChartDecl.mem_triggersReading_of_compile compiled⟩
  · intro ref trigger left right known unlisted
    apply reads
    intro fact mem
    by_contra changed
    apply unlisted fact changed
    exact (ChartDecl.mem_triggersReading_of_compile compiled).2 ⟨trigger, known, mem⟩

/-- Three triggers, of which the first and the last read `q`. -/
def alarmDecl : ChartDecl :=
  ⟨[(FlowDecl.named "Main").addStart "S"],
    [⟨"early", "Main", "S", .not (.all [.known "p", .minOf 0 (some 1) [.isUnknown "q"]])⟩,
      ⟨"calm", "Main", "S", .compare "p" .lt 3⟩,
      ⟨"late", "Main", "S", .any [.oneOf "q" [.int 1], .equals "q" (.bool true)]⟩]⟩

/-- A change of `q` is offered to those two, and the other one does not heed it. -/
theorem reads_and_readers_alarm :
    (⟨2⟩ ∈ alarmDecl.chart.triggersReading "q" ↔ ∃ trigger,
      alarmDecl.chart.trigger? ⟨2⟩ = some trigger ∧ "q" ∈ trigger.condition.facts) ∧
    alarmDecl.chart.triggersReading "q" = [⟨0⟩, ⟨2⟩] ∧
    ∀ (facts : Facts) (state : FactState),
      (Condition.compare "p" .lt 3).eval (facts.put "q" state) =
        (Condition.compare "p" .lt 3).eval facts := by
  have compiled := alarmDecl.compile_of_isOk (by decide +kernel)
  obtain ⟨lists, heeds⟩ := reads_and_readers.2 alarmDecl alarmDecl.chart compiled
  have listed : alarmDecl.chart.triggersReading "q" = [⟨0⟩, ⟨2⟩] := by decide +kernel
  refine ⟨(lists "q").2 ⟨2⟩, listed, fun facts state => ?_⟩
  apply heeds ⟨1⟩ ⟨"calm", ⟨0⟩, .compare "p" .lt 3⟩ _ _ rfl
  intro fact changed
  have same : fact = "q" := by
    by_contra apart
    exact changed (Facts.state_put_of_ne state (Ne.symm apart))
  rw [same, listed]
  decide

end Flowchart
