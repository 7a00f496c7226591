import Flowchart.Declaration.Flaw
import Mathlib.Data.List.Nodup

/-!
Well-formed declarations, told without reference to the list of flaws: which names are to be given
once, what each name is to name, and between which bounds a count may stand, however deep in a
condition. Declarations are well formed if and only if no flaw can be found in them.
-/
namespace Flowchart

/-- The conditions that a condition is made of. -/
def Condition.parts : Condition → List Condition
  | .all terms => terms
  | .any terms => terms
  | .not term => [term]
  | .minOf _ _ terms => terms
  | _ => []

/-- The one condition stands somewhere in the other, or is the whole of it. -/
inductive Condition.Within (inner : Condition) : Condition → Prop
  | whole : Within inner inner
  | part {part condition : Condition} (mem : part ∈ condition.parts) (within : Within inner part) :
      Within inner condition

/-- Every count in the condition has bounds that so many terms can meet. -/
def Condition.Bounded (condition : Condition) : Prop :=
  ∀ min max terms, (Condition.minOf min max terms).Within condition →
    min.toNat ≤ terms.length ∧ ∀ upper ∈ max, min ≤ upper ∧ upper.toNat ≤ terms.length

structure FlowDecl.WellFormed (flow : FlowDecl) : Prop where
  filled : flow.nodes ≠ []
  distinct : (flow.nodes.map NodeDecl.name).Nodup
  begins : ∃ node ∈ flow.nodes, node.kind = .start
  joined : ∀ edge ∈ flow.edges, ∀ name ∈ [edge.source, edge.target],
    ∃ node ∈ flow.nodes, node.name = name
  bounded : ∀ edge ∈ flow.edges, ∀ condition ∈ edge.condition, condition.Bounded

/-- A flow of that name has a start node of that name. -/
def ChartDecl.HasStart (decl : ChartDecl) (flow start : String) : Prop :=
  ∃ target ∈ decl.flows, target.name = flow ∧
    ∃ node ∈ target.nodes, node.name = start ∧ node.kind = .start

structure ChartDecl.WellFormed (decl : ChartDecl) : Prop where
  flows : ∀ flow ∈ decl.flows, flow.WellFormed
  distinct : (decl.flows.map FlowDecl.name).Nodup
  called : ∀ flow ∈ decl.flows, ∀ node ∈ flow.nodes, ∀ called start,
    node.kind = .composed called start → decl.HasStart called start
  aimed : ∀ trigger ∈ decl.triggers, decl.HasStart trigger.flow trigger.start
  bounded : ∀ trigger ∈ decl.triggers, trigger.condition.Bounded

namespace Condition

theorem boundsFit_iff {min : UInt64} {max : Option UInt64} {terms : Nat} :
    boundsFit min max terms = true ↔
      min.toNat ≤ terms ∧ ∀ upper ∈ max, min ≤ upper ∧ upper.toNat ≤ terms := by
  cases max <;> simp [boundsFit]

/-- A condition is bounded if it fits as a whole and its parts are bounded. -/
theorem bounded_iff {condition : Condition} :
    condition.Bounded ↔
      (∀ min max terms, condition = .minOf min max terms → boundsFit min max terms.length = true) ∧
        ∀ part ∈ condition.parts, part.Bounded := by
  constructor
  · intro bounded
    constructor
    · rintro min max terms rfl
      exact boundsFit_iff.2 (bounded min max terms .whole)
    · intro part mem min max terms within
      exact bounded min max terms (.part mem within)
  · rintro ⟨fits, parts⟩ min max terms within
    cases within with
    | whole => exact boundsFit_iff.1 (fits min max terms rfl)
    | part mem within => exact parts _ mem min max terms within

mutual
theorem flaws_eq_nil_iff (site : Site) (condition : Condition) :
    condition.flaws site = [] ↔ condition.Bounded := by
  rw [bounded_iff]
  cases condition with
  | always | known | isUnknown | equals | oneOf | compare => simp [flaws, parts]
  | all terms | any terms => simp [flaws, parts, flawsAll_eq_nil_iff site terms]
  | not term => simp [flaws, parts, flaws_eq_nil_iff site term]
  | minOf min max terms => simp [flaws, parts, flawsAll_eq_nil_iff site terms]

theorem flawsAll_eq_nil_iff (site : Site) (terms : List Condition) :
    flawsAll site terms = [] ↔ ∀ term ∈ terms, term.Bounded := by
  cases terms with
  | nil => simp [flawsAll]
  | cons term rest => simp [flawsAll, flaws_eq_nil_iff site term, flawsAll_eq_nil_iff site rest]
end

end Condition

/-- No name is repeated if the names are distinct and new. -/
theorem repeatedNames_eq_nil_iff {names seen : List String} :
    repeatedNames seen names = [] ↔ names.Nodup ∧ ∀ name ∈ names, name ∉ seen := by
  induction names generalizing seen with
  | nil => simp [repeatedNames]
  | cons name rest ih =>
      rw [repeatedNames]
      by_cases old : name ∈ seen
      · simp [old]
      · rw [if_neg old, ih, List.nodup_cons, List.forall_mem_cons]
        simp only [List.mem_cons, not_or]
        constructor
        · rintro ⟨distinct, new⟩
          exact ⟨⟨fun later => (new name later).1 rfl, distinct⟩, old, fun other mem => (new other mem).2⟩
        · rintro ⟨⟨apart, distinct⟩, -, new⟩
          refine ⟨distinct, fun other mem => ⟨?_, new other mem⟩⟩
          rintro rfl
          exact apart mem

namespace FlowDecl

theorem mem_starts {flow : FlowDecl} {name : String} :
    name ∈ flow.starts ↔ ∃ node ∈ flow.nodes, node.name = name ∧ node.kind = .start := by
  simp only [starts, List.mem_map, List.mem_filter, beq_iff_eq]
  constructor
  · rintro ⟨node, ⟨mem, begins⟩, named⟩
    exact ⟨node, mem, named, begins⟩
  · rintro ⟨node, mem, named, begins⟩
    exact ⟨node, ⟨mem, begins⟩, named⟩

theorem edgeFlaws_eq_nil_iff {flow : FlowDecl} {edge : EdgeDecl} :
    flow.edgeFlaws edge = [] ↔
      (∀ name ∈ [edge.source, edge.target], ∃ node ∈ flow.nodes, node.name = name) ∧
        ∀ condition ∈ edge.condition, condition.Bounded := by
  have judged : (edge.condition.map (Condition.flaws (.edge flow.name edge.source edge.target))).getD [] =
      [] ↔ ∀ condition ∈ edge.condition, condition.Bounded := by
    cases edge.condition with
    | none => simp
    | some condition => simp [Condition.flaws_eq_nil_iff]
  rw [edgeFlaws, List.append_eq_nil_iff, judged, List.map_eq_nil_iff, List.filter_eq_nil_iff]
  simp

theorem flaws_eq_nil_iff {flow : FlowDecl} : flow.flaws = [] ↔ flow.WellFormed := by
  have begun : flow.starts = [] ↔ ¬∃ node ∈ flow.nodes, node.kind = .start := by
    simp [starts]
  simp only [flaws, List.append_eq_nil_iff, List.map_eq_nil_iff, repeatedNames_eq_nil_iff,
    List.flatMap_eq_nil_iff, edgeFlaws_eq_nil_iff]
  constructor
  · rintro ⟨⟨⟨filled, distinct⟩, begins⟩, edges⟩
    refine ⟨?_, distinct.1, ?_, fun edge mem => (edges edge mem).1, fun edge mem => (edges edge mem).2⟩
    · simpa using filled
    · by_contra none
      simp [begun.2 none] at begins
  · intro formed
    refine ⟨⟨⟨?_, formed.distinct, fun _ _ => List.not_mem_nil⟩, ?_⟩, fun edge mem =>
      ⟨formed.joined edge mem, formed.bounded edge mem⟩⟩
    · simpa using formed.filled
    · rw [if_neg]
      simpa using fun none => begun.1 none formed.begins

end FlowDecl

namespace ChartDecl

variable {decl : ChartDecl}

theorem flowFlaws_eq_nil_iff {flows : List FlowDecl} {seen : List String} :
    flowFlaws seen flows = [] ↔
      (∀ flow ∈ flows, flow.WellFormed) ∧ (flows.map FlowDecl.name).Nodup ∧
        ∀ flow ∈ flows, flow.name ∉ seen := by
  induction flows generalizing seen with
  | nil => simp [flowFlaws]
  | cons flow rest ih =>
      rw [flowFlaws, List.append_eq_nil_iff, List.append_eq_nil_iff, FlowDecl.flaws_eq_nil_iff, ih,
        List.map_cons, List.nodup_cons, List.forall_mem_cons, List.forall_mem_cons]
      simp only [List.mem_cons, not_or]
      constructor
      · rintro ⟨⟨formed, new⟩, later, distinct, apart⟩
        refine ⟨⟨formed, later⟩, ⟨fun again => ?_, distinct⟩, ?_, fun other mem => (apart other mem).2⟩
        · obtain ⟨other, mem, same⟩ := List.mem_map.1 again
          exact (apart other mem).1 same
        · intro old
          simp [old] at new
      · rintro ⟨⟨formed, later⟩, ⟨apart, distinct⟩, new, others⟩
        refine ⟨⟨formed, if_neg new⟩, later, distinct, fun other mem => ⟨fun same => ?_, others other mem⟩⟩
        exact apart (List.mem_map.2 ⟨other, mem, same⟩)

/-- Where no two flows share their name, the flow that is found is the only one of that name. -/
theorem flow?_eq_some_iff (distinct : (decl.flows.map FlowDecl.name).Nodup) {name : String}
    {flow : FlowDecl} : decl.flow? name = some flow ↔ flow ∈ decl.flows ∧ flow.name = name := by
  constructor
  · intro found
    exact ⟨List.mem_of_find?_eq_some found, by simpa using List.find?_some found⟩
  · rintro ⟨mem, named⟩
    cases found : decl.flow? name with
    | none => simpa [named] using List.find?_eq_none.1 found flow mem
    | some other =>
        have same : other.name = name := by simpa using List.find?_some found
        rw [List.inj_on_of_nodup_map distinct (List.mem_of_find?_eq_some found) mem (same.trans named.symm)]

theorem hasStart_iff (distinct : (decl.flows.map FlowDecl.name).Nodup) {flow start : String} :
    decl.HasStart flow start ↔ ∃ target, decl.flow? flow = some target ∧ start ∈ target.starts := by
  simp only [HasStart, flow?_eq_some_iff distinct, FlowDecl.mem_starts, and_assoc]

theorem callFlaws_eq_nil_iff (distinct : (decl.flows.map FlowDecl.name).Nodup) {flow : FlowDecl}
    {node : NodeDecl} :
    decl.callFlaws flow node = [] ↔
      ∀ called start, node.kind = .composed called start → decl.HasStart called start := by
  simp only [hasStart_iff distinct]
  cases kind : node.kind with
  | start | action | snapshot => simp [callFlaws, kind]
  | composed called start =>
      cases found : decl.flow? called with
      | none => simp [callFlaws, kind, found]
      | some target => simp [callFlaws, kind, found]

theorem triggerFlaws_eq_nil_iff (distinct : (decl.flows.map FlowDecl.name).Nodup)
    {trigger : TriggerDecl} :
    decl.triggerFlaws trigger = [] ↔
      decl.HasStart trigger.flow trigger.start ∧ trigger.condition.Bounded := by
  rw [triggerFlaws, List.append_eq_nil_iff, Condition.flaws_eq_nil_iff, hasStart_iff distinct]
  cases decl.flow? trigger.flow with
  | none => simp
  | some target => simp

theorem flaws_eq_nil_iff : decl.flaws = [] ↔ decl.WellFormed := by
  simp only [flaws, List.append_eq_nil_iff, flowFlaws_eq_nil_iff, List.flatMap_eq_nil_iff]
  constructor
  · rintro ⟨⟨⟨flows, distinct, -⟩, calls⟩, triggers⟩
    simp only [callFlaws_eq_nil_iff distinct] at calls
    simp only [triggerFlaws_eq_nil_iff distinct] at triggers
    exact ⟨flows, distinct, calls, fun trigger mem => (triggers trigger mem).1,
      fun trigger mem => (triggers trigger mem).2⟩
  · intro formed
    simp only [callFlaws_eq_nil_iff formed.distinct, triggerFlaws_eq_nil_iff formed.distinct]
    exact ⟨⟨⟨formed.flows, formed.distinct, fun _ _ => List.not_mem_nil⟩, formed.called⟩,
      fun trigger mem => ⟨formed.aimed trigger mem, formed.bounded trigger mem⟩⟩

instance (decl : ChartDecl) : Decidable decl.WellFormed :=
  decidable_of_iff (decl.flaws = []) flaws_eq_nil_iff

/-- A negation does not hide a count of two among one term. -/
example :
    ¬ChartDecl.WellFormed
      ⟨[(FlowDecl.named "Main").addStart "S" |>.addEdge "S" "S"
        (some (.not (.minOf 2 none [.known "p"])))], []⟩ := by decide

/-- The declarations that pass the check are the well-formed ones. -/
theorem check_eq_ok_iff : decl.check = .ok () ↔ decl.WellFormed := by
  rw [← flaws_eq_nil_iff]
  unfold check
  cases decl.flaws with
  | nil => simp
  | cons flaw rest => simp

end ChartDecl

end Flowchart
