import Flowchart.Proofs.Single

/-!
Facts that are assigned by nodes. An assigning node keeps what it wrote over and puts it back when it
is undone, so the nodes that have written a fact and are still to be undone lie on top of each other,
each with a record of what is beneath it. If the topmost is always the first to be undone, the fact
follows the nodes that are active; if not, a node that is undone uncovers what lies beneath itself.
-/
namespace Flowchart

variable {σ : Type} {engine : Engine σ} {grants : Grants σ} {chart : Chart}
  {fact : String} {node : NodeRef}

/-- The node assigns a value to the fact. -/
def Chart.assigns (chart : Chart) (fact : String) (node : NodeRef) : Bool :=
  match chart.kind? node with
  | some (.action (.assign written _)) => written == fact
  | _ => false

theorem Chart.assigns_eq_true : chart.assigns fact node = true ↔
    ∃ value, chart.kind? node = some (.action (.assign fact value)) := by
  unfold assigns
  split
  · rename_i written value known
    simp [known]
  · rename_i other
    constructor
    · intro no
      cases no
    · rintro ⟨value, known⟩
      exact absurd known (other fact value)

/-- The nodes that have written the fact along a trail and have not been undone since, the latest
first. -/
def Chart.writers (chart : Chart) (fact : String) : List Footprint → List NodeRef
  | [] => []
  | .acted node .perform true :: earlier =>
    if chart.assigns fact node then node :: chart.writers fact earlier else chart.writers fact earlier
  | .acted node .revert true :: earlier =>
    if chart.assigns fact node then (chart.writers fact earlier).erase node
    else chart.writers fact earlier
  | _ :: earlier => chart.writers fact earlier

/-- Of the nodes that have written the fact the latest was always the first to be undone. -/
def Chart.inTurn (chart : Chart) (fact : String) : List Footprint → Bool
  | [] => true
  | .acted node .revert true :: earlier =>
    (!chart.assigns fact node || (chart.writers fact earlier).head? == some node) &&
      chart.inTurn fact earlier
  | _ :: earlier => chart.inTurn fact earlier

section Writers

variable {trail : List Footprint}

theorem Chart.writers_failed (deed : Deed) :
    chart.writers fact (.acted node deed false :: trail) = chart.writers fact trail := by
  cases deed <;> rfl

theorem Chart.writers_of_assigns_eq_false (other : chart.assigns fact node = false) (deed : Deed)
    (completed : Bool) :
    chart.writers fact (.acted node deed completed :: trail) = chart.writers fact trail := by
  cases deed <;> cases completed <;> simp [writers, other]

theorem Chart.writers_perform (assigns : chart.assigns fact node = true) :
    chart.writers fact (.acted node .perform true :: trail) = node :: chart.writers fact trail :=
  if_pos assigns

theorem Chart.writers_revert (assigns : chart.assigns fact node = true) :
    chart.writers fact (.acted node .revert true :: trail) = (chart.writers fact trail).erase node :=
  if_pos assigns

/-- Every footprint tells that a writer was undone, or changes nothing in the order. -/
theorem Chart.inTurn_cons_cases (chart : Chart) (fact : String) (footprint : Footprint)
    (trail : List Footprint) :
    (∃ node, chart.assigns fact node = true ∧ footprint = .acted node .revert true ∧
      (chart.inTurn fact (footprint :: trail) = true ↔
        (chart.writers fact trail).head? = some node ∧ chart.inTurn fact trail = true)) ∨
    (chart.inTurn fact (footprint :: trail) = true ↔ chart.inTurn fact trail = true) := by
  cases footprint with
  | started => exact .inr Iff.rfl
  | acted node deed completed =>
      cases deed with
      | perform => exact .inr Iff.rfl
      | revert =>
          cases completed with
          | false => exact .inr Iff.rfl
          | true =>
              cases assigns : chart.assigns fact node with
              | false =>
                  refine .inr ?_
                  rw [inTurn, assigns, Bool.not_false, Bool.true_or, Bool.true_and]
              | true =>
                  refine .inl ⟨node, assigns, rfl, ?_⟩
                  rw [inTurn, assigns, Bool.not_true, Bool.false_or, Bool.and_eq_true, beq_iff_eq]

theorem Chart.inTurn_tail {footprint : Footprint}
    (inTurn : chart.inTurn fact (footprint :: trail) = true) : chart.inTurn fact trail = true := by
  rcases chart.inTurn_cons_cases fact footprint trail with ⟨node, -, -, judged⟩ | judged
  · exact (judged.1 inTurn).2
  · exact judged.1 inTurn

theorem Chart.head?_writers_of_inTurn (assigns : chart.assigns fact node = true)
    (inTurn : chart.inTurn fact (.acted node .revert true :: trail) = true) :
    (chart.writers fact trail).head? = some node := by
  rcases chart.inTurn_cons_cases fact (.acted node .revert true) trail with
    ⟨other, -, same, judged⟩ | judged
  · cases same
    exact (judged.1 inTurn).1
  · rw [Chart.inTurn, assigns, Bool.not_true, Bool.false_or, Bool.and_eq_true, beq_iff_eq] at inTurn
    exact inTurn.1

/-- Every footprint is left by a node that writes the fact, or concerns no writer. -/
theorem Chart.writers_cons_cases (chart : Chart) (fact : String) (footprint : Footprint)
    (trail : List Footprint) :
    (∃ node, chart.assigns fact node = true ∧ footprint = .acted node .perform true ∧
      chart.writers fact (footprint :: trail) = node :: chart.writers fact trail) ∨
    (∃ node, chart.assigns fact node = true ∧ footprint = .acted node .revert true ∧
      chart.writers fact (footprint :: trail) = (chart.writers fact trail).erase node) ∨
    (chart.writers fact (footprint :: trail) = chart.writers fact trail ∧
      ∀ node, chart.assigns fact node = true → footprint.deed? node = none) := by
  cases footprint with
  | started node => exact .inr (.inr ⟨rfl, fun _ _ => rfl⟩)
  | acted node deed completed =>
      cases assigns : chart.assigns fact node with
      | false =>
          refine .inr (.inr ⟨writers_of_assigns_eq_false assigns deed completed, ?_⟩)
          intro other writes
          refine Footprint.deed?_of_ne ?_ deed completed
          rintro rfl
          exact Bool.false_ne_true (assigns.symm.trans writes)
      | true =>
          cases completed with
          | false => exact .inr (.inr ⟨writers_failed deed, fun _ _ => rfl⟩)
          | true =>
              cases deed with
              | perform => exact .inl ⟨node, assigns, rfl, writers_perform assigns⟩
              | revert => exact .inr (.inl ⟨node, assigns, rfl, writers_revert assigns⟩)

theorem Chart.assigns_of_mem_writers (mem : node ∈ chart.writers fact trail) :
    chart.assigns fact node = true := by
  induction trail with
  | nil => cases mem
  | cons footprint earlier ih =>
      rcases chart.writers_cons_cases fact footprint earlier with
        ⟨actor, assigns, -, listed⟩ | ⟨actor, -, -, listed⟩ | ⟨listed, -⟩
      · rw [listed] at mem
        rcases List.mem_cons.1 mem with rfl | old
        · exact assigns
        · exact ih old
      · rw [listed] at mem
        exact ih (List.mem_of_mem_erase mem)
      · rw [listed] at mem
        exact ih mem

/-- A node that has acted in turn is listed once while it is to be undone. -/
theorem Chart.count_writers (assigns : chart.assigns fact node = true)
    (inTurn : Footprint.Alternate node trail) :
    (chart.writers fact trail).count node = (Footprint.deeds node trail).length % 2 := by
  induction trail with
  | nil => rfl
  | cons footprint earlier ih =>
      have before := ih inTurn.tail
      rcases chart.writers_cons_cases fact footprint earlier with
        ⟨actor, -, rfl, listed⟩ | ⟨actor, -, rfl, listed⟩ | ⟨listed, silent⟩
      · by_cases same : actor = node
        · subst same
          have even := inTurn.even_of_perform
          rw [listed, List.count_cons_self, before, Footprint.deeds_acted_self, List.length_append,
            List.length_singleton]
          omega
        · rw [listed, List.count_cons_of_ne same, before,
            Footprint.deeds_cons_of_silent (Footprint.deed?_of_ne same _ _)]
      · by_cases same : actor = node
        · subst same
          have odd := inTurn.odd_of_revert
          rw [listed, List.count_erase_self, before, Footprint.deeds_acted_self, List.length_append,
            List.length_singleton]
          omega
        · rw [listed, List.count_erase_of_ne (Ne.symm same), before,
            Footprint.deeds_cons_of_silent (Footprint.deed?_of_ne same _ _)]
      · rw [listed, before, Footprint.deeds_cons_of_silent (silent node assigns)]

/-- With a single node that writes the fact there is no order to be kept. -/
theorem Chart.inTurn_of_single
    (only : ∀ a b, chart.assigns fact a = true → chart.assigns fact b = true → a = b)
    (alternate : ∀ node, chart.assigns fact node = true → Footprint.Alternate node trail) :
    chart.inTurn fact trail = true := by
  induction trail with
  | nil => rfl
  | cons footprint earlier ih =>
      have turns := ih fun node assigns => (alternate node assigns).tail
      rcases chart.inTurn_cons_cases fact footprint earlier with
        ⟨node, assigns, rfl, judged⟩ | judged
      · refine judged.2 ⟨?_, turns⟩
        have odd := (alternate node assigns).odd_of_revert
        rw [← Chart.count_writers assigns (alternate node assigns).tail] at odd
        cases listed : chart.writers fact earlier with
        | nil =>
            rw [listed] at odd
            cases odd
        | cons top beneath =>
            have writes : chart.assigns fact top = true :=
              Chart.assigns_of_mem_writers (listed ▸ List.mem_cons_self ..)
            rw [only top node writes assigns]
            rfl
      · exact judged.2 turns

end Writers

/-- Each of the nodes has written its value and has a record of what it wrote over, the last of them
of the initial state. -/
def Chart.Layered (chart : Chart) (fact : String) (initial : FactState)
    (replaced : Listing NodeRef FactState) : List NodeRef → FactState → Prop
  | [], state => state = initial
  | node :: beneath, state => ∃ value previous,
    chart.kind? node = some (.action (.assign fact value)) ∧ state = some (.value value) ∧
      replaced.at? node = some previous ∧ chart.Layered fact initial replaced beneath previous

theorem Chart.Layered.congr {initial state : FactState} {replaced other : Listing NodeRef FactState}
    {writers : List NodeRef} (layered : chart.Layered fact initial replaced writers state)
    (same : ∀ node ∈ writers, other.at? node = replaced.at? node) :
    chart.Layered fact initial other writers state := by
  induction writers generalizing state with
  | nil => exact layered
  | cons node beneath ih =>
      rw [List.forall_mem_cons] at same
      obtain ⟨value, previous, kind, written, recorded, rest⟩ := layered
      exact ⟨value, previous, kind, written, same.1.trans recorded, ih rest same.2⟩

/-- If a handler runs the deed of the node, the fact is left alone wherever the handler succeeds. -/
def Engine.DeedSpares (engine : Engine σ) (fact : String) (node : NodeRef) (deed : Deed) : Prop :=
  ∀ {session after : Session σ}, Reacts engine node deed none session after →
    after.facts.state fact = session.facts.state fact

/-- The handlers that succeeded along a trail leave the fact alone. -/
def Engine.HandlersSpare (engine : Engine σ) (fact : String) (trail : List Footprint) : Prop :=
  ∀ node deed, .acted node deed true ∈ trail → engine.DeedSpares fact node deed

theorem Engine.HandlersSpare.tail {footprint : Footprint} {trail : List Footprint}
    (spare : engine.HandlersSpare fact (footprint :: trail)) : engine.HandlersSpare fact trail :=
  fun node deed mem => spare node deed (List.mem_cons_of_mem _ mem)

/-- The writers of the fact lie on top of each other, if no handler wrote it as well and they were
always undone in turn. -/
def Session.Stacked (engine : Engine σ) (fact : String) (initial : FactState) (session : Session σ) :
    Prop :=
  engine.HandlersSpare fact session.trail → engine.chart.inTurn fact session.trail = true →
    engine.chart.Layered fact initial session.replaced (engine.chart.writers fact session.trail)
      (session.facts.state fact)

/-- The fact and what its writers have on record are left alone. -/
structure Session.Spares (engine : Engine σ) (fact : String) (session after : Session σ) : Prop where
  state : after.facts.state fact = session.facts.state fact
  replaced : ∀ node, engine.chart.assigns fact node = true →
    after.replaced.at? node = session.replaced.at? node
  writers : engine.chart.writers fact after.trail = engine.chart.writers fact session.trail
  inTurn : engine.chart.inTurn fact after.trail = true → engine.chart.inTurn fact session.trail = true
  spared : engine.HandlersSpare fact after.trail → engine.HandlersSpare fact session.trail

namespace Session

variable {session between after : Session σ} {initial : FactState}

theorem Spares.of_trail (trail : after.trail = session.trail)
    (state : after.facts.state fact = session.facts.state fact)
    (replaced : ∀ node, engine.chart.assigns fact node = true →
      after.replaced.at? node = session.replaced.at? node) : session.Spares engine fact after := by
  refine ⟨state, replaced, ?_, ?_, ?_⟩ <;> rw [trail]
  · exact id
  · exact id

theorem Spares.refl (session : Session σ) : session.Spares engine fact session :=
  .of_trail rfl rfl fun _ _ => rfl

theorem Spares.trans (first : session.Spares engine fact between)
    (second : between.Spares engine fact after) : session.Spares engine fact after where
  state := second.state.trans first.state
  replaced node assigns := (second.replaced node assigns).trans (first.replaced node assigns)
  writers := second.writers.trans first.writers
  inTurn turns := first.inTurn (second.inTurn turns)
  spared spare := first.spared (second.spared spare)

theorem Stacked.spare (stacked : session.Stacked engine fact initial)
    (spares : engine.HandlersSpare fact after.trail → session.Spares engine fact after) :
    after.Stacked engine fact initial := by
  intro spare inTurn
  have spares := spares spare
  have layered := stacked (spares.spared spare) (spares.inTurn inTurn)
  rw [spares.state, spares.writers]
  exact layered.congr fun node mem => spares.replaced node (Chart.assigns_of_mem_writers mem)

theorem Spares.leaveFootprint (other : engine.chart.assigns fact node = false) (deed : Deed)
    (completed : Bool) :
    session.Spares engine fact (session.leaveFootprint (.acted node deed completed)) :=
  ⟨rfl, fun _ _ => rfl, Chart.writers_of_assigns_eq_false other deed completed, Chart.inTurn_tail,
    Engine.HandlersSpare.tail⟩

theorem Spares.openStrand (other : engine.chart.assigns fact node = false) (kind : NodeKind)
    (support : Support) : session.Spares engine fact (session.openStrand node kind support) := by
  obtain ⟨snapshots, opened⟩ := session.openStrand_eq node kind support
  rw [opened]
  exact ⟨rfl, fun _ _ => rfl, Chart.writers_of_assigns_eq_false other .perform true,
    Chart.inTurn_tail, Engine.HandlersSpare.tail⟩

/-- A writer that is not among those to be undone comes to lie on top of them. -/
theorem Stacked.assign (stacked : session.Stacked engine fact initial) {value : Value}
    (kind : engine.chart.kind? node = some (.action (.assign fact value)))
    (absent : node ∉ engine.chart.writers fact session.trail) :
    ((session.assign node fact value).leaveFootprint (.acted node .perform true)).Stacked engine fact
      initial := by
  intro spare inTurn
  have layered := stacked spare.tail (Chart.inTurn_tail inTurn)
  have assigns : engine.chart.assigns fact node = true := Chart.assigns_eq_true.2 ⟨value, kind⟩
  change engine.chart.Layered fact initial (session.replaced.set node (session.facts.state fact))
    (engine.chart.writers fact (.acted node .perform true :: session.trail))
    ((session.facts.put fact (some (.value value))).state fact)
  rw [Chart.writers_perform assigns, Facts.state_put_self]
  refine ⟨value, session.facts.state fact, kind, rfl, Listing.at?_set_self .., ?_⟩
  refine layered.congr fun other mem => Listing.at?_set_of_ne _ ?_
  rintro rfl
  exact absent mem

/-- The topmost writer uncovers what it wrote over. -/
theorem Stacked.unassign (stacked : session.Stacked engine fact initial)
    (assigns : engine.chart.assigns fact node = true)
    (once : (engine.chart.writers fact session.trail).count node ≤ 1) :
    ((session.unassign node fact).leaveFootprint (.acted node .revert true)).Stacked engine fact
      initial := by
  intro spare inTurn
  have trails : ((session.unassign node fact).leaveFootprint (.acted node .revert true)).trail =
      .acted node .revert true :: session.trail := by
    unfold Session.unassign
    split <;> rfl
  rw [trails] at spare inTurn ⊢
  have layered := stacked spare.tail (Chart.inTurn_tail inTurn)
  -- The node is the topmost writer, so its record is the state that the fact gets back.
  obtain ⟨beneath, listed⟩ := List.head?_eq_some_iff.1 (Chart.head?_writers_of_inTurn assigns inTurn)
  rw [listed] at layered once
  rw [Chart.writers_revert assigns, listed, List.erase_cons_head]
  obtain ⟨value, previous, -, -, recorded, rest⟩ := layered
  have absent : node ∉ beneath := by
    rw [List.count_cons_self] at once
    exact List.count_eq_zero.1 (by omega)
  simp only [Session.unassign, recorded, Session.leaveFootprint, Facts.state_put_self]
  refine rest.congr fun other mem => Listing.at?_erase_of_ne ?_
  rintro rfl
  exact absent mem

end Session

theorem Chart.assigns_of_kind {kind : NodeKind} (known : chart.kind? node = some kind)
    (other : ∀ value, kind ≠ .action (.assign fact value)) : chart.assigns fact node = false := by
  rw [Bool.eq_false_iff, ne_eq, assigns_eq_true]
  rintro ⟨value, same⟩
  exact other value (Option.some.inj (known.symm.trans same))

theorem Chart.assigns_of_isOrigin {kind : NodeKind} (known : chart.kind? node = some kind)
    (fit : kind.isOrigin = true) : chart.assigns fact node = false := by
  refine assigns_of_kind known ?_
  rintro value rfl
  cases fit

theorem Chart.isInner_of_assigns (assigns : chart.assigns fact node = true) :
    chart.isInner node = true := by
  obtain ⟨value, kind⟩ := assigns_eq_true.1 assigns
  rw [isInner, kind]
  rfl

section Deeds

variable {session after : Session σ}

theorem Reacts.spares {deed : Deed} (reacts : Reacts engine node deed none session after)
    (spare : engine.DeedSpares fact node deed) : session.Spares engine fact after := by
  have state := spare reacts
  obtain ⟨facts, host, rfl⟩ := reacts.exists_eq
  exact .of_trail rfl state fun _ _ => rfl

theorem Performs.spares (performs : Performs engine node session after)
    (spare : engine.DeedSpares fact node .perform) (other : engine.chart.assigns fact node = false) :
    session.Spares engine fact after := by
  cases performs with
  | started | idled => exact .refl session
  | reached => exact .of_trail rfl rfl fun _ _ => rfl
  | @assigned written value kind =>
      have apart : written ≠ fact := by
        rintro rfl
        exact Bool.false_ne_true (other.symm.trans (Chart.assigns_eq_true.2 ⟨value, kind⟩))
      refine .of_trail rfl (Facts.state_put_of_ne _ apart) ?_
      intro writer assigns
      refine Listing.at?_set_of_ne _ ?_
      rintro rfl
      exact Bool.false_ne_true (other.symm.trans assigns)
  | invoked reacts => exact reacts.spares spare
  | @called called origin kind known fit =>
      have given : session.Spares engine fact
          (session.countSupport.addSupport called (session.nextSupport (.caller node))) :=
        .of_trail rfl rfl fun _ _ => rfl
      have opened := given.trans (.openStrand (Chart.assigns_of_isOrigin known fit) origin
        (session.nextSupport (.caller node)))
      exact opened.trans (.of_trail rfl rfl fun _ _ => rfl)

theorem Performs.eq_assign (performs : Performs engine node session after) {value : Value}
    (kind : engine.chart.kind? node = some (.action (.assign fact value))) :
    after = session.assign node fact value := by
  cases performs with
  | started known | idled known | reached known => cases known.symm.trans kind
  | assigned known =>
      cases known.symm.trans kind
      rfl
  | invoked reacts =>
      generalize (none : Option ActionFailure) = failure at reacts
      cases reacts with
      | handled invokes => cases invokes.symm.trans kind
  | called known => cases known.symm.trans kind

theorem Reverts.spares (reverts : Reverts engine node session after)
    (spare : engine.DeedSpares fact node .revert) (other : engine.chart.assigns fact node = false) :
    session.Spares engine fact after := by
  cases reverts with
  | started | idled => exact .refl session
  | reached => exact .of_trail rfl rfl fun _ _ => rfl
  | @assigned written value kind =>
      have apart : written ≠ fact := by
        rintro rfl
        exact Bool.false_ne_true (other.symm.trans (Chart.assigns_eq_true.2 ⟨value, kind⟩))
      unfold Session.unassign
      cases session.replaced.at? node with
      | none => exact .refl session
      | some previous =>
          refine .of_trail rfl (Facts.state_put_of_ne _ apart) ?_
          intro writer assigns
          refine Listing.at?_erase_of_ne ?_
          rintro rfl
          exact Bool.false_ne_true (other.symm.trans assigns)
  | invoked reacts => exact reacts.spares spare
  | called =>
      unfold Session.endCall
      split
      · exact .refl session
      · exact .of_trail rfl rfl fun _ _ => rfl

theorem Reverts.eq_unassign (reverts : Reverts engine node session after)
    (assigns : engine.chart.assigns fact node = true) : after = session.unassign node fact := by
  obtain ⟨value, kind⟩ := Chart.assigns_eq_true.1 assigns
  cases reverts with
  | started known | idled known | reached known => cases known.symm.trans kind
  | assigned known =>
      cases known.symm.trans kind
      rfl
  | invoked reacts =>
      generalize (none : Option ActionFailure) = failure at reacts
      cases reacts with
      | handled invokes => cases invokes.symm.trans kind
  | called known => cases known.symm.trans kind

end Deeds

section Changes

variable {session after : Session σ} {initial : FactState}

/-- The writers to be undone are those that have an entry. -/
theorem Session.Single.count_writers {due : Nat} (single : session.Single node due)
    (assigns : chart.assigns fact node = true) :
    (chart.writers fact session.trail).count node = session.nodes.count node :=
  (Chart.count_writers assigns single.alternate).trans single.parity

theorem Collapsing.stacked (inv : session.Unrepeated engine) {id : StrandId}
    (live : session.strands.contains id = true) {now : List (Entry × Bool) × Session σ}
    (collapsing : Collapsing engine id session now) (stacked : session.Stacked engine fact initial) :
    now.2.Stacked engine fact initial := by
  induction collapsing with
  | refl => exact stacked
  | tail first step ih =>
      have single := (inv.collapsing live first).2
      cases step with
      | @entry before rest entry session reverted reverts =>
          have removed : (session.removeSupport entry.node entry.support.id).Stacked engine fact
              initial := ih
          cases assigns : engine.chart.assigns fact entry.node with
          | false =>
              have undone : (reverted.leaveFootprint (.acted entry.node .revert true)).Stacked engine
                  fact initial := by
                refine removed.spare fun spare => ?_
                have spares := reverts.spares (spare _ _ (List.mem_cons_self ..)) assigns
                exact spares.trans (.leaveFootprint assigns .revert true)
              exact undone
          | true =>
              have alone := single entry.node (Chart.isInner_of_assigns assigns)
              have once : (engine.chart.writers fact session.trail).count entry.node ≤ 1 := by
                rw [alone.count_writers assigns]
                exact alone.once
              have undone := removed.unassign assigns once
              rw [← reverts.eq_unassign assigns] at undone
              exact undone

theorem Session.spares_tidy (session : Session σ) (id : StrandId) :
    session.Spares engine fact (session.tidy id) := by
  unfold Session.tidy
  split
  · exact .of_trail rfl rfl fun _ _ => rfl
  · exact .refl session

theorem Move.stacked (move : Move engine session after) (inv : session.Unrepeated engine)
    (stacked : session.Stacked engine fact initial) : after.Stacked engine fact initial := by
  cases move with
  | merged => exact stacked
  | collapsed live collapsing =>
      exact (collapsing.stacked inv live stacked).spare fun _ => Session.spares_tidy _ _
  | @joined acted id ref edge next idle performs =>
      have joining : (session.joining id ref edge.target).Stacked engine fact initial := stacked
      cases assigns : engine.chart.assigns fact edge.target with
      | false =>
          refine joining.spare fun spare => ?_
          have spares := performs.spares (spare _ _ (List.mem_cons_self ..)) assigns
          exact spares.trans (.leaveFootprint assigns .perform true)
      | true =>
          obtain ⟨value, kind⟩ := Chart.assigns_eq_true.1 assigns
          have single := inv.single edge.target (Chart.isInner_of_assigns assigns)
          -- An inactive node has no entry, so its record is not one that is still needed.
          have absent : edge.target ∉ engine.chart.writers fact session.trail := by
            rw [← List.count_eq_zero, single.count_writers assigns, single.counted, idle]
            rfl
          rw [performs.eq_assign kind]
          exact joining.assign kind absent

theorem Offer.stacked (offer : Offer engine grants session after)
    (stacked : session.Stacked engine fact initial) : after.Stacked engine fact initial := by
  cases offer with
  | counted | asked => exact stacked
  | supported => exact fun spare => stacked spare.tail
  | @opened origin kind support count known fit =>
      have given : (session.supply origin support count).Stacked engine fact initial := stacked
      have opened := given.spare fun _ =>
        .openStrand (Chart.assigns_of_isOrigin known fit) kind support
      exact fun spare => opened spare.tail

theorem Change.stacked (change : Change engine grants session after) (inv : session.Unrepeated engine)
    (stacked : session.Stacked engine fact initial) : after.Stacked engine fact initial := by
  cases change with
  | moved move => exact move.stacked inv stacked
  | offered offer => exact offer.stacked stacked
  | heard => exact stacked

end Changes

structure Session.Piled (engine : Engine σ) (fact : String) (initial : FactState)
    (session : Session σ) : Prop extends session.Unrepeated engine where
  stacked : session.Stacked engine fact initial

namespace Session.Piled

variable {session : Session σ} {initial : FactState}

theorem mem_writers (inv : session.Piled engine fact initial)
    (assigns : engine.chart.assigns fact node = true) :
    node ∈ engine.chart.writers fact session.trail ↔ session.isActive node = true := by
  have single := inv.single node (Chart.isInner_of_assigns assigns)
  rw [← List.count_pos_iff, single.count_writers assigns, single.counted]
  split <;> simp_all

/-- The fact has the value of its topmost writer, or its initial state. -/
theorem follows (inv : session.Piled engine fact initial)
    (spare : engine.HandlersSpare fact session.trail)
    (inTurn : engine.chart.inTurn fact session.trail = true) :
    ((∃ node, session.isActive node = true ∧ engine.chart.assigns fact node = true) →
      ∃ node value, session.isActive node = true ∧
        engine.chart.kind? node = some (.action (.assign fact value)) ∧
        session.facts.state fact = some (.value value)) ∧
    ((∀ node, engine.chart.assigns fact node = true → session.isActive node = false) →
      session.facts.state fact = initial) := by
  have layered := inv.stacked spare inTurn
  cases listed : engine.chart.writers fact session.trail with
  | nil =>
      rw [listed] at layered
      refine ⟨?_, fun _ => layered⟩
      rintro ⟨node, active, assigns⟩
      have mem := (inv.mem_writers assigns).2 active
      rw [listed] at mem
      cases mem
  | cons top beneath =>
      rw [listed] at layered
      obtain ⟨value, previous, kind, written, -, -⟩ := layered
      have assigns : engine.chart.assigns fact top = true := Chart.assigns_eq_true.2 ⟨value, kind⟩
      have active : session.isActive top = true := by
        refine (inv.mem_writers assigns).1 ?_
        rw [listed]
        exact List.mem_cons_self ..
      refine ⟨fun _ => ⟨top, value, active, kind, written⟩, ?_⟩
      intro idle
      exact absurd active (Bool.eq_false_iff.1 (idle top assigns))

end Session.Piled

/-- The host does not write the fact itself. -/
def Operation.spares (fact : String) (session : Session σ) : Operation σ → Bool
  | .rewrite facts _ => decide (facts.state fact = session.facts.state fact)
  | _ => true

/-- The operation succeeds, takes no support away and leaves the fact to the nodes. -/
structure Operation.Sparing (engine : Engine σ) (fact : String) (session : Session σ)
    (operation : Operation σ) : Prop where
  succeeds : operation.succeeds engine session = true
  keeps : operation.isWithdraw = false
  spares : operation.spares fact session = true

theorem Engine.Reaches.piled {facts : Facts} {session : Session σ}
    (reached : engine.Reaches (Operation.Sparing engine fact) facts session) :
    session.Piled engine fact (facts.state fact) := by
  refine Engine.Reaches.invariant_all ?_ ?_ ?_ ?_ ?_ reached
  · exact fun host => { Session.Unrepeated.fresh engine facts host with stacked := fun _ _ => rfl }
  · intro session after inv change
    exact { change.unrepeated inv.toUnrepeated with
      stacked := change.stacked inv.toUnrepeated inv.stacked }
  · intro operation session fault between after sparing ran _ _
    have succeeds := sparing.succeeds
    unfold Operation.succeeds at succeeds
    rw [ran] at succeeds
    cases succeeds
  · intro session node id sparing _
    cases sparing.keeps
  · intro session facts host sparing inv
    have spares : session.Spares engine fact { session with facts := facts, host := host } :=
      .of_trail rfl (of_decide_eq_true sparing.spares) fun _ _ => rfl
    exact { inv.toUnrepeated.rewrite facts host with stacked := inv.stacked.spare fun _ => spares }

/-- A fact that a single node assigns follows that node, however strands come and go. -/
theorem Engine.Reaches.follows_of_single {facts : Facts} {session : Session σ}
    (reached : engine.Reaches (Operation.Sparing engine fact) facts session)
    (spare : engine.HandlersSpare fact session.trail) {value : Value}
    (kind : engine.chart.kind? node = some (.action (.assign fact value)))
    (only : ∀ other, engine.chart.assigns fact other = true → other = node) :
    session.facts.state fact =
      if session.isActive node then some (.value value) else facts.state fact := by
  have inv := reached.piled
  have inTurn : engine.chart.inTurn fact session.trail = true := by
    refine Chart.inTurn_of_single (fun a b writes too => (only a writes).trans (only b too).symm) ?_
    intro other assigns
    exact (inv.single other (Chart.isInner_of_assigns assigns)).alternate
  obtain ⟨written, initial⟩ := inv.follows spare inTurn
  split
  · rename_i active
    obtain ⟨other, last, -, same, holds⟩ :=
      written ⟨node, active, Chart.assigns_eq_true.2 ⟨value, kind⟩⟩
    cases only other (Chart.assigns_eq_true.2 ⟨last, same⟩)
    cases same.symm.trans kind
    exact holds
  · rename_i idle
    refine initial fun other assigns => ?_
    rw [only other assigns]
    exact Bool.eq_false_iff.2 idle

/-- In a run in which nothing fails, no support is taken away, and neither the host nor a handler that
the run invokes writes a fact, the fact follows the active nodes that assign it, provided that of these
the latest to write was always the first to be undone. -/
theorem Engine.Reaches.assigned_fact_follows {facts : Facts} {session : Session σ}
    (reached : engine.Reaches (Operation.Sparing engine fact) facts session)
    (spare : engine.HandlersSpare fact session.trail)
    (inTurn : engine.chart.inTurn fact session.trail = true) :
    ((∃ node, session.isActive node = true ∧ engine.chart.assigns fact node = true) →
      ∃ node value, session.isActive node = true ∧
        engine.chart.kind? node = some (.action (.assign fact value)) ∧
        session.facts.state fact = some (.value value)) ∧
    ((∀ node, engine.chart.assigns fact node = true → session.isActive node = false) →
      session.facts.state fact = facts.state fact) :=
  reached.piled.follows spare inTurn

/-- Two flows, each started by a fact of its own, assign the same fact. -/
def rivalDecl : ChartDecl :=
  ⟨[((FlowDecl.named "One").addStart "S").addAction "A" (.assign "f" (.text "one"))
      |>.addEdge "S" "A" none,
    ((FlowDecl.named "Two").addStart "S").addAction "A" (.assign "f" (.text "two"))
      |>.addEdge "S" "A" none],
    [⟨"first", "One", "S", .known "p"⟩, ⟨"second", "Two", "S", .known "q"⟩]⟩

def rivalEngine : Engine Unit := .standard rivalDecl.chart

/-- The session in which both flows have been started in turn, and then the facts are made such that
one of them loses its reason. -/
def rivalSession (left : String) : Session Unit :=
  Operation.afterAll rivalEngine
    [.rewrite (Facts.putAll ∅ [("p", some .unknown)]) (), .settle ["p"],
      .rewrite (Facts.putAll ∅ [("p", some .unknown), ("q", some .unknown),
        ("f", some (.value (.text "one")))]) (), .settle ["q"],
      .rewrite (Facts.putAll ∅ [(left, some .unknown), ("f", some (.value (.text "two")))]) (),
      .settle ["p", "q"]]
    (rivalEngine.opened ∅ ())

theorem handlersSpare_rivalEngine (trail : List Footprint) : rivalEngine.HandlersSpare "f" trail := by
  intro node deed _ session after reacts
  generalize (none : Option ActionFailure) = failure at reacts
  cases reacts with
  | handled invokes registered => cases registered

theorem reaches_rivalSession (left : String) (known : left = "p" ∨ left = "q") :
    rivalEngine.Reaches (Operation.Sparing rivalEngine "f") ∅ (rivalSession left) := by
  have opened : rivalEngine.Reaches (Operation.Sparing rivalEngine "f") ∅ (rivalEngine.opened ∅ ()) :=
    .opened (by decide +kernel)
  rcases known with rfl | rfl
  · exact opened.afterAll ⟨⟨by decide +kernel, rfl, by decide +kernel⟩, ⟨by decide +kernel, rfl, rfl⟩,
      ⟨by decide +kernel, rfl, by decide +kernel⟩, ⟨by decide +kernel, rfl, rfl⟩,
      ⟨by decide +kernel, rfl, by decide +kernel⟩, ⟨by decide +kernel, rfl, rfl⟩, trivial⟩
  · exact opened.afterAll ⟨⟨by decide +kernel, rfl, by decide +kernel⟩, ⟨by decide +kernel, rfl, rfl⟩,
      ⟨by decide +kernel, rfl, by decide +kernel⟩, ⟨by decide +kernel, rfl, rfl⟩,
      ⟨by decide +kernel, rfl, by decide +kernel⟩, ⟨by decide +kernel, rfl, rfl⟩, trivial⟩

theorem inTurn_rivalSession : rivalEngine.chart.inTurn "f" (rivalSession "p").trail = true := by
  decide +kernel

theorem assigned_fact_follows_rival :
    ∃ node value, (rivalSession "p").isActive node = true ∧
      rivalEngine.chart.kind? node = some (.action (.assign "f" value)) ∧
      (rivalSession "p").facts.state "f" = some (.value value) := by
  have active : (rivalSession "p").isActive ⟨1⟩ = true := by decide +kernel
  have assigns : rivalEngine.chart.assigns "f" ⟨1⟩ = true := by decide +kernel
  exact (Engine.Reaches.assigned_fact_follows (reaches_rivalSession "p" (.inl rfl))
    (handlersSpare_rivalEngine _) inTurn_rivalSession).1 ⟨⟨1⟩, active, assigns⟩

/-- The first writer is undone before the second, and the fact is unanswered under an active one. -/
theorem rival_unanswered :
    rivalDecl.compile = .ok rivalEngine.chart ∧ (∀ trail, rivalEngine.HandlersSpare "f" trail) ∧
      rivalEngine.Reaches (Operation.Sparing rivalEngine "f") ∅ (rivalSession "q") ∧
      (rivalSession "q").isActive ⟨3⟩ = true ∧ rivalEngine.chart.assigns "f" ⟨3⟩ = true ∧
      ¬∃ node value, (rivalSession "q").isActive node = true ∧
        rivalEngine.chart.kind? node = some (.action (.assign "f" value)) ∧
        (rivalSession "q").facts.state "f" = some (.value value) := by
  refine ⟨rivalDecl.compile_of_isOk (by decide +kernel), handlersSpare_rivalEngine,
    reaches_rivalSession "q" (.inr rfl), by decide +kernel, by decide +kernel, ?_⟩
  have unanswered : (rivalSession "q").facts.state "f" = none := by decide +kernel
  rintro ⟨node, value, -, -, written⟩
  rw [unanswered] at written
  cases written

end Flowchart
