import Flowchart.Proofs.Compile
import Flowchart.Proofs.Orderly

/-!
Sessions at rest. A settling that succeeds ends with a round that reports no change, and such a round
has looked at every strand and found all of its entries active. Supports may have been dropped on the
way without being reported, but none that holds, and no node lost its last one; so what was judged
early in the round is still so at its end.
-/
namespace Flowchart

variable {σ : Type} {engine : Engine σ} {session between after : Session σ}

/-- Whether the condition of an edge is satisfied. -/
def Chart.opens (chart : Chart) (facts : Facts) (ref : EdgeRef) : Bool :=
  (chart.edge? ref).any fun edge => (Condition.evalGuard facts edge.condition).isSatisfied

/-- A strand that cannot be extended: it ends at a snapshot that it may not go on from, no edge is
open at its frontier, or the first open edge supports an active node already. -/
inductive Strand.Stuck (chart : Chart) (session : Session σ) (strand : Strand) : Prop
  | ended {frontier : NodeRef} (last : strand.frontier? = some frontier)
      (kind : chart.kind? frontier = some .snapshot) (past : strand.resumes = false)
  | closed {frontier : NodeRef} (last : strand.frontier? = some frontier)
      (none : ∀ ref ∈ chart.outgoing frontier, chart.opens session.facts ref = false)
  | merged {frontier : NodeRef} {before rest : List EdgeRef} {ref : EdgeRef} {edge : Edge}
      (last : strand.frontier? = some frontier)
      (listed : chart.outgoing frontier = before ++ ref :: rest)
      (none : ∀ earlier ∈ before, chart.opens session.facts earlier = false)
      (opened : chart.opens session.facts ref = true) (known : chart.edge? ref = some edge)
      (active : session.isActive edge.target = true)
      (held : session.activation.holdsEdge edge.target ref = true)

/-- Every support of the node holds. -/
def Session.Vouches (chart : Chart) (session : Session σ) (node : NodeRef) : Prop :=
  ∀ support ∈ (session.activation.supports node).items,
    support.basis.holds chart session.facts session.activation = true

structure Strand.Rests (chart : Chart) (session : Session σ) (strand : Strand) : Prop where
  active : ∀ entry ∈ strand.entries, session.isActive entry.node = true
  vouched : ∀ entry ∈ strand.entries, session.Vouches chart entry.node
  stuck : strand.Stuck chart session

structure Session.AtRest (chart : Chart) (session : Session σ) : Prop where
  vouched : ∀ node, session.Vouches chart node
  active : ∀ strand ∈ session.strands.items, ∀ entry ∈ strand.entries,
    session.isActive entry.node = true
  stuck : ∀ strand ∈ session.strands.items, strand.Stuck chart session

/-- Supports may be dropped and added, but none that holds is dropped, only those that hold are
added, and activity stays as it is. -/
structure Session.Calms (chart : Chart) (session after : Session σ) : Prop where
  facts : after.facts = session.facts
  strands : after.strands = session.strands
  active : ∀ node, after.isActive node = session.isActive node
  kept : ∀ node, ∀ support ∈ (session.activation.supports node).items,
    support.basis.holds chart session.facts session.activation = true →
      support ∈ (after.activation.supports node).items
  sound : ∀ node, ∀ support ∈ (after.activation.supports node).items,
    support ∈ (session.activation.supports node).items ∨
      support.basis.holds chart session.facts session.activation = true

namespace Session.Calms

variable {chart : Chart}

theorem refl (session : Session σ) : session.Calms chart session :=
  ⟨rfl, rfl, fun _ => rfl, fun _ _ mem _ => mem, fun _ _ mem => .inl mem⟩

theorem holds (calms : session.Calms chart after) (basis : Basis) :
    basis.holds chart after.facts after.activation =
      basis.holds chart session.facts session.activation := by
  rw [calms.facts]
  exact Basis.holds_congr chart session.facts calms.active basis

theorem trans (first : session.Calms chart between) (second : between.Calms chart after) :
    session.Calms chart after where
  facts := second.facts.trans first.facts
  strands := second.strands.trans first.strands
  active node := (second.active node).trans (first.active node)
  kept node support mem valid := by
    have still := first.kept node support mem valid
    rw [← first.holds] at valid
    exact second.kept node support still valid
  sound node support mem := by
    rcases second.sound node support mem with old | valid
    · exact first.sound node support old
    · rw [first.holds] at valid
      exact .inr valid

theorem vouches (calms : session.Calms chart after) {node : NodeRef}
    (vouches : session.Vouches chart node) : after.Vouches chart node := by
  intro support mem
  rw [calms.holds]
  rcases calms.sound node support mem with old | valid
  · exact vouches support old
  · exact valid

end Session.Calms

/-- The edge that a strand follows next leaves the node of its last entry. -/
theorem Engine.exists_source_of_nextEdge? {decl : ChartDecl} (compiled : decl.compile = .ok engine.chart)
    {id : StrandId} {ref : EdgeRef} {edge : Edge}
    (next : engine.nextEdge? session id = some (ref, edge)) :
    ∃ entry ∈ session.entries id, entry.node = edge.source := by
  obtain ⟨strand, frontier, found, last, leaves, known, -⟩ := engine.nextEdge?_eq_some next
  obtain ⟨listed, rfl⟩ := Roster.get?_eq_some found
  obtain ⟨entry, mem, rfl⟩ := List.mem_map.1 (List.mem_of_getLast? last)
  rw [Session.entries_eq_iff_of_mem listed]
  exact ⟨entry, mem, (ChartDecl.source_of_compile compiled leaves known).symm⟩

namespace Strand

variable {chart : Chart} {strand : Strand}

/-- A strand stays stuck, since an edge that was followed from an active frontier holds. -/
theorem Stuck.calm {decl : ChartDecl} (compiled : decl.compile = .ok chart)
    (stuck : strand.Stuck chart session) (calms : session.Calms chart after)
    (live : ∀ entry ∈ strand.entries, session.isActive entry.node = true) :
    strand.Stuck chart after := by
  cases stuck with
  | ended last kind past => exact .ended last kind past
  | closed last none =>
      refine .closed last ?_
      rwa [calms.facts]
  | @merged frontier before rest ref edge last listed none opened known active held =>
      have source : edge.source = frontier := by
        refine ChartDecl.source_of_compile compiled ?_ known
        rw [listed]
        exact List.mem_append_right _ (List.mem_cons_self ..)
      obtain ⟨support, mem, rests⟩ := Activation.holdsEdge_iff.1 held
      -- The support comes from the frontier, which is active, so no later sweep drops it.
      have valid : support.basis.holds chart session.facts session.activation = true := by
        obtain ⟨entry, here, rfl⟩ := List.mem_map.1 (List.mem_of_getLast? last)
        rw [Support.edge?_eq_some_iff.1 rests]
        rw [Chart.opens, known] at opened
        simp only [Basis.holds, known, Option.any_some, source, Bool.and_eq_true]
        exact ⟨live entry here, opened⟩
      refine .merged last listed ?_ ?_ known ?_ ?_
      · rwa [calms.facts]
      · rwa [calms.facts]
      · rwa [calms.active]
      · exact Activation.holdsEdge_iff.2 ⟨support, calms.kept _ support mem valid, rests⟩

theorem Rests.calm {decl : ChartDecl} (compiled : decl.compile = .ok chart)
    (rests : strand.Rests chart session) (calms : session.Calms chart after) :
    strand.Rests chart after where
  active entry mem := by
    rw [calms.active]
    exact rests.active entry mem
  vouched entry mem := calms.vouches (rests.vouched entry mem)
  stuck := rests.stuck.calm compiled calms rests.active

end Strand

namespace Engine

/-- Where no edge is followed, the strand has to wait. -/
theorem stuck_of_nextEdge?_eq_none {strand : Strand} (listed : strand ∈ session.strands.items)
    (filled : strand.entries ≠ []) (none : engine.nextEdge? session strand.id = none) :
    strand.Stuck engine.chart session := by
  have found : session.strands.get? strand.id = some strand := Roster.get?_eq_some_iff.2 ⟨listed, rfl⟩
  have ends : strand.nodes ≠ [] := by simpa [Strand.nodes] using filled
  have last : strand.frontier? = some (strand.nodes.getLast ends) := List.getLast?_eq_some_getLast ends
  unfold nextEdge? at none
  simp only [found, last, Option.bind_eq_bind, Option.bind_some] at none
  split at none
  · rename_i barred
    rw [Bool.and_eq_true, decide_eq_true_eq, Bool.not_eq_true'] at barred
    exact .ended last barred.1 barred.2
  · refine .closed last ?_
    intro ref leaves
    have shut := List.findSome?_eq_none_iff.1 none ref leaves
    rw [Chart.opens]
    cases known : engine.chart.edge? ref with
    | none => rfl
    | some edge =>
        simpa [known] using shut

/-- Where the edge to follow supports its target already, the strand has to wait. -/
theorem stuck_of_nextEdge?_eq_some {strand : Strand} {ref : EdgeRef} {edge : Edge}
    (listed : strand ∈ session.strands.items)
    (next : engine.nextEdge? session strand.id = some (ref, edge))
    (active : session.isActive edge.target = true)
    (held : session.activation.holdsEdge edge.target ref = true) :
    strand.Stuck engine.chart session := by
  have found : session.strands.get? strand.id = some strand := Roster.get?_eq_some_iff.2 ⟨listed, rfl⟩
  unfold nextEdge? at next
  simp only [found, Option.bind_eq_bind, Option.bind_some, Option.bind_eq_some_iff] at next
  obtain ⟨frontier, last, next⟩ := next
  split at next
  · cases next
  · obtain ⟨before, passed, rest, split, chosen, shut⟩ := List.findSome?_eq_some_iff.1 next
    obtain ⟨other, known, chosen⟩ := Option.bind_eq_some_iff.1 chosen
    split at chosen
    · rename_i opened
      cases chosen
      refine .merged last split ?_ ?_ known active held
      · intro earlier early
        have closed := shut earlier early
        rw [Chart.opens]
        cases known : engine.chart.edge? earlier with
        | none => rfl
        | some edge => simpa [known] using closed
      · rw [Chart.opens, known]
        exact opened
    · cases chosen

end Engine

/-- A sweep that finds every entry active changes nothing that matters. -/
theorem Session.calms_swept {chart : Chart} {id : StrandId}
    (quiet : ∀ mark ∈ session.verdicts chart id, mark.2 = true) :
    session.Calms chart (session.swept chart id) where
  facts := rfl
  strands := rfl
  active := isActive_sweepEntries_of_all quiet
  kept node support mem valid := (mem_sweepEntries_of_all quiet node support).2 ⟨mem, fun _ => valid⟩
  sound _ _ mem := .inl (mem_of_mem_sweepEntries mem)

theorem Session.vouches_swept {chart : Chart} {id : StrandId}
    (quiet : ∀ mark ∈ session.verdicts chart id, mark.2 = true) {entry : Entry}
    (listed : entry ∈ session.entries id) : (session.swept chart id).Vouches chart entry.node := by
  intro support mem
  rw [(Session.calms_swept quiet).holds]
  exact ((mem_sweepEntries_of_all quiet entry.node support).1 mem).2 (List.mem_map_of_mem listed)

theorem Session.isActive_of_quiet {chart : Chart} {id : StrandId}
    (quiet : ∀ mark ∈ session.verdicts chart id, mark.2 = true) {entry : Entry}
    (listed : entry ∈ session.entries id) : session.isActive entry.node = true := by
  have marked : entry ∈ (session.verdicts chart id).map Prod.fst := by
    rw [Session.verdicts, map_fst_sweepEntries]
    exact listed
  obtain ⟨⟨other, verdict⟩, mem, rfl⟩ := List.mem_map.1 marked
  cases quiet _ mem
  exact isActive_of_mem_true mem

/-- With nothing to undo a collapse is over after its sweep. -/
theorem Collapsing.eq_swept {id : StrandId} {kept : List (Entry × Bool)}
    (collapsing : Collapsing engine id session (kept, after))
    (quiet : ∀ mark ∈ session.verdicts engine.chart id, mark.2 = true) :
    after = session.swept engine.chart id := by
  rcases Relation.ReflTransGen.cases_head collapsing with same | ⟨next, step, -⟩
  · exact (congrArg Prod.snd same).symm
  · exfalso
    generalize marks : session.verdicts engine.chart id = listed at step quiet
    cases step with
    | entry => exact Bool.false_ne_true (quiet _ (List.mem_append_right _ (List.mem_cons_self ..)))

namespace Engine

/-- An extension that reports no change did nothing, and the strand has to wait. -/
theorem extend_quiet {id : StrandId} {fuel steps : Nat}
    (filled : ∀ strand ∈ session.strands.items, strand.entries ≠ [])
    (run : engine.extend id (fuel + 1) steps session = .ok false after) :
    after = session ∧
      ∀ strand ∈ session.strands.items, strand.id = id → strand.Stuck engine.chart session := by
  rcases extend_cases engine id fuel steps session with
    ⟨none, ran⟩ | ⟨fault, ran⟩ | ⟨ref, edge, next, ⟨active, held, ran⟩ | ⟨-, -, ran⟩ |
      ⟨-, acted, -, ran⟩ | ⟨-, acted, fault, -, ran⟩⟩
  · cases ran.symm.trans run
    refine ⟨rfl, ?_⟩
    rintro strand listed rfl
    exact stuck_of_nextEdge?_eq_none listed (filled strand listed) none
  · cases ran.symm.trans run
  · cases ran.symm.trans run
    refine ⟨rfl, ?_⟩
    rintro strand listed rfl
    exact stuck_of_nextEdge?_eq_some listed next active held
  · cases ran.symm.trans run
  · obtain ⟨later, final, -, rest⟩ := SessionM.bind_eq_ok.1 (ran.symm.trans run)
    cases rest
  · cases ran.symm.trans run

/-- A collapse that reports no change was a sweep that found every entry active. -/
theorem collapse_quiet {id : StrandId} (run : engine.collapse id session = .ok false after) :
    after = session.swept engine.chart id ∧
      ∀ mark ∈ session.verdicts engine.chart id, mark.2 = true := by
  rcases collapse_cases engine id session with ⟨kept, left, collapsing, -, ran⟩ | ⟨_, _, _, _, _, _, -, -, ran⟩
  · have same := ran.symm.trans run
    injection same with none same
    subst same
    have quiet : ∀ mark ∈ session.verdicts engine.chart id, mark.2 = true := by
      intro mark mem
      simpa using List.any_eq_false.1 none mark mem
    exact ⟨collapsing.eq_swept quiet, quiet⟩
  · cases ran.symm.trans run

/-- A turn that reports no change was a sweep of a strand that has to wait. -/
theorem advance_eq_swept {id : StrandId} (filled : ∀ strand ∈ session.strands.items, strand.entries ≠ [])
    (run : engine.advance id session = .ok false after) :
    after = session.swept engine.chart id ∧
      (∀ mark ∈ session.verdicts engine.chart id, mark.2 = true) ∧
      ∀ strand ∈ after.strands.items, strand.id = id → strand.Stuck engine.chart after := by
  obtain ⟨collapsed, swept, first, run⟩ := SessionM.bind_eq_ok.1 run
  obtain ⟨extended, last, second, run⟩ := SessionM.bind_eq_ok.1 run
  cases collapsed with
  | true => cases run
  | false =>
  cases extended with
  | true => cases run
  | false =>
  cases run
  obtain ⟨rfl, quiet⟩ := collapse_quiet first
  have still : ∀ strand ∈ (session.swept engine.chart id).strands.items, strand.entries ≠ [] := filled
  obtain ⟨rfl, stuck⟩ := extend_quiet still second
  exact ⟨rfl, quiet, stuck⟩

/-- A turn that reports no change leaves its strand at rest. -/
theorem advance_quiet {id : StrandId} (filled : ∀ strand ∈ session.strands.items, strand.entries ≠ [])
    (run : engine.advance id session = .ok false after) :
    session.Calms engine.chart after ∧
      ∀ strand ∈ after.strands.items, strand.id = id → strand.Rests engine.chart after := by
  obtain ⟨rfl, quiet, stuck⟩ := advance_eq_swept filled run
  have calms := Session.calms_swept quiet
  refine ⟨calms, ?_⟩
  intro strand listed same
  have entries : session.entries id = strand.entries := same ▸ Session.entries_eq_iff_of_mem listed
  constructor
  · intro entry mem
    rw [calms.active]
    exact Session.isActive_of_quiet quiet (entries.symm ▸ mem)
  · exact fun entry mem => Session.vouches_swept quiet (entries.symm ▸ mem)
  · exact stuck strand listed same

/-- A turn leaves order among the strands. -/
theorem orderly_of_advance {id : StrandId} {changed : Bool} (inv : session.Orderly engine)
    (live : session.strands.contains id = true) (run : engine.advance id session = .ok changed after) :
    (after.tidy id).Orderly engine := by
  have changes : Changes engine .all session (after.tidy id) := .of_moves (moves_of_advance live run)
  exact inv.changes changes

theorem orderly_of_turns {ids : List StrandId} {turned : Bool × List StrandId}
    (inv : session.Orderly engine) (run : engine.turns ids session = .ok turned after) :
    after.Orderly engine := by
  have changes : Changes engine .all session after := .of_moves ((turns_follows ids session).steps run)
  exact inv.changes changes

theorem orderly_of_round {changed : Bool} {report : Report} (inv : session.Orderly engine)
    (run : engine.round session = .ok (changed, report) after) : after.Orderly engine :=
  inv.changes ((round_follows engine.sourceGrants_all session).steps run)

/-- What every offer keeps in orderly sessions is kept where the source is asked. -/
theorem keep_of_indicate {motive : Session σ → Prop} {facts : List String} {opened : List StrandId}
    (offered : ∀ {before later}, before.Orderly engine → Offer engine .all before later →
      motive before → motive later)
    (inv : session.Orderly engine) (start : motive session)
    (run : engine.indicate facts session = .ok opened after) : after.Orderly engine ∧ motive after := by
  have offers := (indicate_follows engine.sourceGrants_all facts session).steps run
  clear run
  induction offers with
  | refl => exact ⟨inv, start⟩
  | tail _ offer ih => exact ⟨offer.orderly ih.1, offered ih.1 offer ih.2⟩

theorem entries_ne_nil_of_live {id : StrandId}
    (filled : ∀ strand ∈ session.strands.items, strand.entries ≠ [])
    (live : session.strands.contains id = true) : session.entries id ≠ [] := by
  obtain ⟨strand, found⟩ := Option.isSome_iff_exists.1 ((Roster.contains_eq_isSome _ _).symm.trans live)
  obtain ⟨listed, rfl⟩ := Roster.get?_eq_some found
  rw [Session.entries_eq_iff_of_mem listed]
  exact filled strand listed

theorem turns_cons_of_live {id : StrandId} (rest : List StrandId)
    (live : session.strands.contains id = true) :
    engine.turns (id :: rest) session =
      (do
        let changed ← engine.advance id
        let empty ← SessionM.dropIfEmpty id
        let (changedLater, finished) ← engine.turns rest
        return (changed || changedLater, if empty then id :: finished else finished) :
        SessionM σ (Bool × List StrandId)) session := by
  have got : (get : SessionM σ (Session σ)) session = .ok session session := rfl
  rw [turns, SessionM.bind_of_ok got, if_pos live]

/-- A strand that is not live has no turn. -/
theorem turns_cons_of_dead {id : StrandId} (rest : List StrandId)
    (dead : session.strands.contains id = false) :
    engine.turns (id :: rest) session = engine.turns rest session := by
  have got : (get : SessionM σ (Session σ)) session = .ok session session := rfl
  rw [turns, SessionM.bind_of_ok got, if_neg (Bool.eq_false_iff.1 dead)]

/-- The turns of a strand that is live and of the strands after it. The strand is dropped if its turn
has left it without entries. -/
theorem exists_parts_of_turns {id : StrandId} {rest finished : List StrandId} {changed : Bool}
    (live : session.strands.contains id = true)
    (run : engine.turns (id :: rest) session = .ok (changed, finished) after) :
    ∃ advanced between later ended, engine.advance id session = .ok advanced between ∧
      engine.turns rest (between.tidy id) = .ok (later, ended) after ∧
      finished = (if (between.entries id).isEmpty then id :: ended else ended) ∧
      changed = (advanced || later) := by
  rw [turns_cons_of_live rest live] at run
  obtain ⟨advanced, between, turn, run⟩ := SessionM.bind_eq_ok.1 run
  rw [SessionM.bind_of_ok (dropIfEmpty_eq id between)] at run
  obtain ⟨⟨later, ended⟩, last, turned, done⟩ := SessionM.bind_eq_ok.1 run
  cases done
  exact ⟨advanced, between, later, ended, turn, turned, rfl, rfl⟩

/-- Turns that report no change begin with one that reports none, and its strand is not dropped for
want of entries. -/
theorem turns_cons_quiet {id : StrandId} {rest finished : List StrandId}
    (filled : ∀ strand ∈ session.strands.items, strand.entries ≠ [])
    (live : session.strands.contains id = true)
    (run : engine.turns (id :: rest) session = .ok (false, finished) after) :
    ∃ advanced, engine.advance id session = .ok false advanced ∧
      engine.turns rest advanced = .ok (false, finished) after := by
  obtain ⟨changed, advanced, later, ended, first, others, rfl, still⟩ := exists_parts_of_turns live run
  obtain ⟨rfl, rfl⟩ := Bool.or_eq_false_iff.1 still.symm
  obtain ⟨calms, -⟩ := advance_quiet filled first
  have kept : advanced.entries id ≠ [] :=
    entries_ne_nil_of_live (calms.strands ▸ filled) (calms.strands ▸ live)
  rw [Session.tidy_of_ne_nil kept] at others
  rw [if_neg fun empty => kept (List.isEmpty_iff.1 empty)]
  exact ⟨advanced, first, others⟩

/-- Turns that report no change leave all strands at rest that had one. -/
theorem turns_quiet {decl : ChartDecl} (compiled : decl.compile = .ok engine.chart)
    {ids : List StrandId} {finished : List StrandId}
    (filled : ∀ strand ∈ session.strands.items, strand.entries ≠ [])
    (run : engine.turns ids session = .ok (false, finished) after) :
    session.Calms engine.chart after ∧
      ∀ strand ∈ after.strands.items, strand.id ∈ ids → strand.Rests engine.chart after := by
  induction ids generalizing session finished with
  | nil =>
      cases run
      exact ⟨.refl _, fun _ _ mem => by cases mem⟩
  | cons id rest ih =>
      cases live : session.strands.contains id with
      | true =>
          obtain ⟨advanced, first, others⟩ := turns_cons_quiet filled live run
          obtain ⟨calms, rests⟩ := advance_quiet filled first
          obtain ⟨later, rested⟩ := ih (calms.strands ▸ filled) others
          refine ⟨calms.trans later, ?_⟩
          intro strand listed mem
          rcases List.mem_cons.1 mem with same | mem
          · refine (rests strand ?_ same).calm compiled later
            rwa [← later.strands]
          · exact rested strand listed mem
      | false =>
          rw [turns_cons_of_dead rest live] at run
          obtain ⟨calms, rests⟩ := ih filled run
          refine ⟨calms, ?_⟩
          intro strand listed mem
          rcases List.mem_cons.1 mem with rfl | mem
          · rw [calms.strands] at listed
            have present := Roster.contains_iff.2 (List.mem_map_of_mem listed)
            exact absurd present (Bool.eq_false_iff.1 live)
          · exact rests strand listed mem

end Engine

/-- An active node may be given a support that holds. -/
theorem Session.calms_addSupport {chart : Chart} {node : NodeRef} {support : Support}
    (active : session.isActive node = true)
    (valid : support.basis.holds chart session.facts session.activation = true) :
    session.Calms chart (session.addSupport node support) where
  facts := rfl
  strands := rfl
  active other := by
    rw [Session.isActive_addSupport]
    by_cases same : node = other
    · subst same
      rw [active, Bool.or_true]
    · rw [decide_eq_false same, Bool.false_or]
  kept other held mem _ := Activation.mem_add.2 (.inl mem)
  sound other held mem := by
    rcases Activation.mem_add.1 mem with old | ⟨-, rfl, -⟩
    · exact .inl old
    · exact .inr valid

namespace Engine

/-- Indications that open no strand leave supports that hold at active nodes. -/
theorem carryOut_quiet {chart : Chart} {indications : List Indication}
    (valid : ∀ indication ∈ indications, indication.granted fun _ basis =>
      basis.holds chart session.facts session.activation = true)
    (run : engine.carryOut indications session = .ok [] after) : session.Calms chart after := by
  induction indications generalizing session with
  | nil =>
      cases run
      exact .refl _
  | cons indication rest ih =>
      rw [List.forall_mem_cons] at valid
      obtain ⟨first, others⟩ := valid
      cases indication with
      | start node basis =>
          obtain ⟨support, counted, minted, run⟩ := SessionM.bind_eq_ok.1 run
          cases minted
          obtain ⟨opened, begun, began, run⟩ := SessionM.bind_eq_ok.1 run
          obtain ⟨later, last, rested, run⟩ := SessionM.bind_eq_ok.1 run
          cases opened with
          | some id => cases run
          | none =>
          cases later with
          | cons => cases run
          | nil =>
          cases run
          rcases begin_cases engine node (session.nextSupport basis) session.countSupport with
            ⟨kind, -, -, active, ran⟩ | ⟨kind, -, -, -, ran⟩ | ⟨-, fault, ran⟩
          · cases ran.symm.trans began
            have added : session.Calms chart (session.addSupport node (session.nextSupport basis)) :=
              Session.calms_addSupport active first
            have calms : session.Calms chart
                ((session.countSupport.addSupport node (session.nextSupport basis)).leaveFootprint
                  (.started node)) :=
              ⟨added.facts, added.strands, added.active, added.kept, added.sound⟩
            refine calms.trans (ih ?_ rested)
            intro indication mem
            have still := others indication mem
            cases indication with
            | start | subflow => exact (calms.holds _).trans still
          · cases ran.symm.trans began
          · cases ran.symm.trans began
      | subflow composed node basis =>
          obtain ⟨support, counted, minted, run⟩ := SessionM.bind_eq_ok.1 run
          cases minted
          obtain ⟨opened, begun, began, run⟩ := SessionM.bind_eq_ok.1 run
          obtain ⟨later, last, rested, run⟩ := SessionM.bind_eq_ok.1 run
          cases run

end Engine

/-- A trigger is asked for if its condition holds and its start node has not got it yet. -/
theorem IndicationSource.indicate?_eq_some_iff {chart : Chart} {facts : Facts} {table : Activation}
    {ref : TriggerRef} {indication : Indication} :
    indicate? chart facts table ref = some indication ↔
      ∃ trigger, chart.trigger? ref = some trigger ∧ trigger.condition.holds facts = true ∧
        table.holdsTrigger trigger.start ref = false ∧
        indication = .start trigger.start (.external (some ref) trigger.condition) := by
  unfold indicate?
  rw [Option.bind_eq_bind, Option.bind_eq_some_iff]
  refine exists_congr fun trigger => and_congr_right fun _ => ?_
  simp only [Option.ite_none_right_eq_some, Bool.and_eq_true, Bool.not_eq_true', Option.some.injEq,
    and_assoc, eq_comm (b := indication)]

theorem Offer.leaves {grants : Grants σ} (offer : Offer engine grants session after) :
    after.facts = session.facts ∧ after.touched = session.touched := by
  cases offer with
  | counted | asked | supported => exact ⟨rfl, rfl⟩
  | @opened node kind support count =>
      obtain ⟨snapshots, opened⟩ := (session.supply node support count).openStrand_eq node kind support
      rw [opened]
      exact ⟨rfl, rfl⟩

theorem leaves_of_offers {grants : Grants σ}
    (offers : Relation.ReflTransGen (Offer engine grants) session after) :
    after.facts = session.facts ∧ after.touched = session.touched := by
  induction offers with
  | refl => exact ⟨rfl, rfl⟩
  | tail _ offer ih => exact ⟨offer.leaves.1.trans ih.1, offer.leaves.2.trans ih.2⟩

namespace Engine

/-- What the source indicates rests on outside conditions that hold. -/
def Indicates (engine : Engine σ) : Prop :=
  ∀ facts table fact host, ∀ indication ∈ (engine.source engine.chart facts table fact host).1,
    ∃ node trigger condition,
      indication = .start node (.external trigger condition) ∧ condition.holds facts = true

theorem indicates_of_triggers (source : engine.source = .triggers) : engine.Indicates := by
  intro facts table fact host indication mem
  rw [source] at mem
  obtain ⟨ref, -, made⟩ := List.mem_filterMap.1 mem
  obtain ⟨trigger, -, holds, -, rfl⟩ := IndicationSource.indicate?_eq_some_iff.1 made
  exact ⟨trigger.start, some ref, trigger.condition, rfl, holds⟩

theorem indicates_of_silent (source : engine.source = .silent) : engine.Indicates := by
  intro facts table fact host indication mem
  rw [source] at mem
  cases mem

theorem indicates_of_source (source : engine.source = .triggers ∨ engine.source = .silent) :
    engine.Indicates := by
  rcases source with triggers | silent
  · exact indicates_of_triggers triggers
  · exact indicates_of_silent silent

theorem indicate_quiet (indicates : engine.Indicates) {facts : List String}
    (run : engine.indicate facts session = .ok [] after) : session.Calms engine.chart after := by
  induction facts generalizing session with
  | nil =>
      cases run
      exact .refl _
  | cons fact rest ih =>
      rw [indicate_cons] at run
      obtain ⟨opened, begun, carried, run⟩ := SessionM.bind_eq_ok.1 run
      obtain ⟨later, last, rested, run⟩ := SessionM.bind_eq_ok.1 run
      cases opened with
      | cons => cases run
      | nil =>
      cases later with
      | cons => cases run
      | nil =>
      cases run
      have asked : session.Calms engine.chart { session with
          host := (engine.source engine.chart session.facts session.activation fact session.host).2 } :=
        ⟨rfl, rfl, fun _ => rfl, fun _ _ mem _ => mem, fun _ _ mem => .inl mem⟩
      refine (asked.trans (carryOut_quiet ?_ carried)).trans (ih rested)
      intro indication mem
      obtain ⟨node, trigger, condition, rfl, holds⟩ := indicates _ _ _ _ indication mem
      exact holds

/-- Asking the source changes no fact and touches none. -/
theorem indicate_leaves {facts : List String} {opened : List StrandId}
    (run : engine.indicate facts session = .ok opened after) :
    after.facts = session.facts ∧ after.touched = session.touched := by
  exact leaves_of_offers ((indicate_follows engine.sourceGrants_all facts session).steps run)

/-- A round that succeeds consists of the turns of all strands and of asking the source about what
they touched. -/
theorem exists_parts_of_round {changed : Bool} {report : Report}
    (run : engine.round session = .ok (changed, report) after) :
    ∃ moved finished turned started,
      engine.turns session.strands.keys session = .ok (moved, finished) turned ∧
      engine.indicate turned.touched { turned with touched := [] } = .ok started after ∧
      report = ⟨1, changed, started, finished⟩ ∧ changed = (moved || !started.isEmpty) := by
  obtain ⟨read, now, got, run⟩ := SessionM.bind_eq_ok.1 run
  cases got
  obtain ⟨⟨moved, finished⟩, turned, first, run⟩ := SessionM.bind_eq_ok.1 run
  obtain ⟨touched, heard, took, run⟩ := SessionM.bind_eq_ok.1 run
  cases took
  obtain ⟨started, indicated, asked, run⟩ := SessionM.bind_eq_ok.1 run
  cases run
  exact ⟨moved, finished, turned, started, first, asked, rfl, rfl⟩

/-- A round that reports no change ends at rest. -/
theorem round_quiet {decl : ChartDecl} (compiled : decl.compile = .ok engine.chart)
    (indicates : engine.Indicates) (inv : session.Orderly engine) {report : Report}
    (run : engine.round session = .ok (false, report) after) : after.AtRest engine.chart := by
  obtain ⟨moved, finished, turned, started, first, asked, -, still⟩ := exists_parts_of_round run
  cases moved with
  | true => cases still
  | false =>
  cases started with
  | cons => cases still
  | nil =>
  obtain ⟨calms, rests⟩ := turns_quiet compiled inv.filled first
  have hears : turned.Calms engine.chart { turned with touched := [] } :=
    ⟨rfl, rfl, fun _ => rfl, fun _ _ mem _ => mem, fun _ _ mem => .inl mem⟩
  have later := hears.trans (indicate_quiet indicates asked)
  have all := calms.trans later
  have rested : ∀ strand ∈ after.strands.items, strand.Rests engine.chart after := by
    intro strand listed
    rw [later.strands] at listed
    refine (rests strand listed ?_).calm compiled later
    rw [calms.strands] at listed
    exact List.mem_map_of_mem listed
  constructor
  · intro node support mem
    -- A node with a support has an entry, and with the entries of its strand it was swept.
    have active : after.isActive node = true := Activation.isActive_iff.2 ⟨support, mem⟩
    rw [all.active] at active
    obtain ⟨strand, listed, here⟩ := Session.mem_nodes.1 (inv.covered node active)
    obtain ⟨entry, entered, rfl⟩ := List.mem_map.1 here
    rw [← all.strands] at listed
    exact (rested strand listed).vouched entry entered support mem
  · exact fun strand listed => (rested strand listed).active
  · exact fun strand listed => (rested strand listed).stuck

/-- In a chart without flows no node is ever active. -/
theorem atRest_of_isEmpty {decl : ChartDecl} (compiled : decl.compile = .ok engine.chart)
    (empty : engine.chart.isEmpty = true) (inv : session.Orderly engine) :
    session.AtRest engine.chart := by
  have bare : session.nodes = [] := by
    refine List.eq_nil_iff_forall_not_mem.2 fun node mem => ?_
    have served := inv.served node mem
    rw [serves, ChartDecl.kind?_of_compile_of_isEmpty compiled empty] at served
    cases served
  have none : ∀ strand, strand ∉ session.strands.items := by
    intro strand listed
    obtain ⟨entry, rest, filled⟩ := List.exists_cons_of_ne_nil (inv.filled strand listed)
    have mem : entry.node ∈ session.nodes :=
      Session.mem_nodes.2 ⟨strand, listed, by simp [Strand.nodes, filled]⟩
    rw [bare] at mem
    cases mem
  constructor
  · intro node support mem
    have covered := inv.covered node (Activation.isActive_iff.2 ⟨support, mem⟩)
    rw [bare] at covered
    cases covered
  · exact fun strand listed => absurd listed (none strand)
  · exact fun strand listed => absurd listed (none strand)

/-- Settling that succeeds ends with a round that reports no change. -/
theorem exists_quiet_round (filled : engine.chart.isEmpty = false) (inv : session.Orderly engine)
    {changed : List String} {report : Report}
    (settled : engine.settle changed session = .ok report after) :
    ∃ before latest, before.Orderly engine ∧ engine.round before = .ok (false, latest) after := by
  have source := engine.sourceGrants_all
  obtain ⟨started, asked, before, latest, indicated, rounds, last⟩ :=
    exists_parts_of_settle filled settled
  have asking := ((indicate_follows source changed session).mono Change.offered).steps indicated
  have steps : Changes engine .all session before := asking.trans (rounds.changes source)
  exact ⟨before, latest, inv.changes steps, last⟩

theorem rests_of_settle {decl : ChartDecl} (compiled : decl.compile = .ok engine.chart)
    (indicates : engine.Indicates) (inv : session.Orderly engine) {changed : List String}
    {report : Report} (settled : engine.settle changed session = .ok report after) :
    after.AtRest engine.chart := by
  cases empty : engine.chart.isEmpty with
  | true =>
      unfold settle settleWithin at settled
      rw [if_pos empty] at settled
      cases settled
      exact atRest_of_isEmpty compiled empty inv
  | false =>
      obtain ⟨before, latest, orderly, last⟩ := exists_quiet_round empty inv settled
      exact round_quiet compiled indicates orderly last

end Engine

/-- Wherever a run has led, also where it failed on the way, settling that succeeds brings the
session to rest. -/
theorem Engine.Reaches.atRest_of_settle {decl : ChartDecl} (compiled : decl.compile = .ok engine.chart)
    (source : engine.source = .triggers ∨ engine.source = .silent) {facts : Facts}
    (reached : engine.Reaches (fun _ _ => True) facts session) {changed : List String}
    {report : Report} (settled : engine.settle changed session = .ok report after) :
    after.AtRest engine.chart :=
  engine.rests_of_settle compiled (engine.indicates_of_source source) reached.orderly settled

/-- While a fact is known a flag is raised. -/
def flagDecl : ChartDecl :=
  ⟨[((FlowDecl.named "Main").addStart "S").addAction "A" (.assign "flag" (.bool true))
      |>.addEdge "S" "A" none],
    [⟨"go", "Main", "S", .known "q"⟩]⟩

def flagEngine : Engine Unit := .standard flagDecl.chart

/-- The fact was known when the session settled and is not known any more. -/
def flagSession : Session Unit :=
  Operation.afterAll flagEngine
    [.rewrite (Facts.put ∅ "q" (some .unknown)) (), .settle ["q"], .rewrite ∅ ()]
    (flagEngine.opened ∅ ())

theorem atRest_of_settle_flag :
    ((Operation.settle ["q"]).after flagEngine flagSession).AtRest flagEngine.chart := by
  have compiled : flagDecl.compile = .ok flagDecl.chart := flagDecl.compile_of_isOk (by decide +kernel)
  have opened : flagEngine.Reaches (fun _ _ => True) ∅ (flagEngine.opened ∅ ()) :=
    .opened (by decide +kernel)
  have reached : flagEngine.Reaches (fun _ _ => True) ∅ flagSession :=
    opened.afterAll ⟨trivial, trivial, trivial, trivial⟩
  obtain ⟨report, settled⟩ := Operation.exists_report_of_succeeds
    (show (Operation.settle ["q"]).succeeds flagEngine flagSession = true by decide +kernel)
  exact Engine.Reaches.atRest_of_settle compiled (.inl rfl) reached settled

end Flowchart
