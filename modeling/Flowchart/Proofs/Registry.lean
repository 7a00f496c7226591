import Flowchart.Proofs.Staging
import Flowchart.Proofs.Turnover

/-!
What can be relied on of the strands of a session at any time, also after operations that failed: they
are not empty, they are in the order of their numbers, no number is given out twice, none of them waits
outside of the registry, and together they look after every node that is active.
-/
namespace Flowchart

variable {σ : Type} {engine : Engine σ} {grants : Grants σ}

/-- A later session: more strands may have been opened, and those that are new have higher numbers. -/
structure Session.Later (session after : Session σ) : Prop where
  counted : session.strandCount ≤ after.strandCount
  arrived : ∀ id ∈ after.strands.keys, id ∈ session.strands.keys ∨ session.strandCount < id.number

theorem Session.Turnover.later {session after : Session σ} {opened gone : List StrandId}
    (turnover : session.Turnover after opened gone) : session.Later after :=
  ⟨turnover.counted, turnover.arrived⟩

namespace Session.Later

variable {session between after : Session σ}

theorem of_same (strands : after.strands = session.strands)
    (count : after.strandCount = session.strandCount) : session.Later after :=
  ⟨Nat.le_of_eq count.symm, fun _ live => .inl (strands ▸ live)⟩

theorem of_fades (fades : session.Fades after) : session.Later after := .of_same fades.strands fades.count

theorem refl (session : Session σ) : session.Later session := .of_same rfl rfl

theorem trans (first : session.Later between) (second : between.Later after) : session.Later after where
  counted := first.counted.trans second.counted
  arrived id live := by
    rcases second.arrived id live with old | new
    · exact first.arrived id old
    · exact .inr (first.counted.trans_lt new)

theorem tidy (session : Session σ) (id : StrandId) : session.Later (session.tidy id) := by
  unfold Session.tidy
  split
  · exact ⟨Nat.le_refl _, fun _ live => .inl (Roster.mem_keys_erase.1 live).1⟩
  · exact .refl session

/-- A number that was given out, and whose strand is not live, is not given out again. -/
theorem not_mem {id : StrandId} (later : session.Later after) (numbered : id.number ≤ session.strandCount)
    (absent : id ∉ session.strands.keys) : id ∉ after.strands.keys := fun live =>
  (later.arrived id live).elim absent (Nat.not_lt_of_le numbered)

end Session.Later

section Steps

variable {session after : Session σ}

theorem Move.later (move : Move engine session after) : session.Later after := by
  cases move with
  | collapsed live collapsing => exact (collapsing.turnover live).later.trans (.tidy _ _)
  | merged => exact .of_same rfl rfl
  | @joined acted id ref edge next idle performs =>
      have joined : session.Later (session.joining id ref edge.target) :=
        (Session.turnover_joining (engine.live_of_nextEdge? next)).later
      exact (joined.trans performs.turnover.later).trans (.of_same rfl rfl)

theorem Offer.later (offer : Offer engine grants session after) : session.Later after := by
  cases offer with
  | counted | asked | supported => exact .of_same rfl rfl
  | @opened node kind support count =>
      have counted : session.Later (session.recount count) := .of_same rfl rfl
      exact counted.trans (Engine.turnover_opened (session.recount count) node kind support).later

theorem Change.later (change : Change engine grants session after) : session.Later after := by
  cases change with
  | moved move => exact move.later
  | offered offer => exact offer.later
  | heard => exact .of_same rfl rfl

theorem Break.later (broke : Break engine session after) : session.Later after := by
  cases broke with
  | @collapse now left _ _ _ entry live collapsing refuses =>
      have undone : now.Fades (left.leaveFootprint (.acted entry.node .revert false)) :=
        ((Session.Fades.removeSupport now entry.node entry.support.id).trans refuses.fades).leaveFootprint _
      exact (collapsing.turnover live).later.trans (.of_fades undone)
  | join next idle refuses =>
      exact .of_fades (Session.parting_fades (engine.live_of_nextEdge? next) refuses _)

end Steps

namespace Operation

/-- An operation leaves a later session behind, also when it fails. -/
theorem later (engine : Engine σ) (operation : Operation σ) (session : Session σ) :
    session.Later (operation.after engine session) := by
  have changes {after : Session σ} (steps : Changes engine Grants.all session after) :
      session.Later after := steps.keep (fun later change => later.trans change.later) (.refl session)
  unfold Operation.after
  rcases operation.follows_or engine.sourceGrants_all operation.offers_all with
    follows | ⟨node, id, -, ran⟩ | ⟨facts, host, -, ran⟩
  · cases ran : operation.run engine session with
    | ok u after =>
        rw [ran] at follows
        exact changes follows
    | error fault after =>
        rw [ran] at follows
        obtain ⟨between, steps, rfl | broke⟩ := follows
        · exact changes steps
        · exact (changes steps).trans broke.later
  · rw [ran]
    exact .of_fades (.removeSupport session node id)
  · rw [ran]
    exact .of_same rfl rfl

theorem later_afterAll (engine : Engine σ) (operations : List (Operation σ)) (session : Session σ) :
    session.Later (afterAll engine operations session) := by
  induction operations generalizing session with
  | nil => exact .refl session
  | cons operation rest ih => exact (operation.later engine session).trans (ih _)

end Operation

/-- Whatever the host does with a session and whatever the source answers, no strand waits outside of
the registry; every strand is listed under its own number and has entries; the numbers ascend, they have
all been given out, and none of them is given out again once its strand is gone; and a node that is
active is that of an entry. -/
theorem Engine.registry_and_coverage (engine : Engine σ) (facts : Facts) :
    (∀ staged, engine.ReachesStaged facts staged ↔
      staged.waiting = [] ∧ engine.Reaches (fun _ _ => True) facts staged.session) ∧
    ∀ session, engine.Reaches (fun _ _ => True) facts session →
      (∀ id strand, session.strands.get? id = some strand → strand.id = id ∧ strand.entries ≠ []) ∧
      (session.strands.keys.Pairwise fun first second => first.number < second.number) ∧
      (∀ id ∈ session.strands.keys, id.number ≤ session.strandCount) ∧
      (∀ id operations, id.number ≤ session.strandCount → id ∉ session.strands.keys →
        id ∉ (Operation.afterAll engine operations session).strands.keys) ∧
      ∀ node, session.isActive node = true →
        ∃ strand ∈ session.strands.items, ∃ entry ∈ strand.entries, entry.node = node := by
  refine ⟨fun staged => reachesStaged_iff, fun session reached => ?_⟩
  have inv := reached.orderly
  refine ⟨fun id strand found => ?_, inv.ascending, inv.numbered, ?_, fun node active => ?_⟩
  · obtain ⟨listed, same⟩ := Roster.get?_eq_some found
    exact ⟨same, inv.filled strand listed⟩
  · exact fun id operations => (Operation.later_afterAll engine operations session).not_mem
  · obtain ⟨strand, listed, here⟩ := Session.mem_nodes.1 (inv.covered node active)
    exact ⟨strand, listed, List.mem_map.1 here⟩

/-- A call, and after it an action whose handler is not registered. -/
def strayDecl : ChartDecl :=
  ⟨[((((FlowDecl.named "Main").addStart "S").addComposed "C" "Sub" "T").addAction "B" (.invoke "light")
        |>.addEdge "S" "C" none).addEdge "C" "B" none,
    (((FlowDecl.named "Sub").addStart "T").addAction "A" .noop).addEdge "T" "A" none], []⟩

def strayEngine : Engine Unit := ⟨strayDecl.chart, ∅, .silent, .standard⟩

/-- The turn of the first strand failed after a second one was opened in it. -/
def straySession : Session Unit :=
  Operation.afterAll strayEngine [.mint .unconditional, .begin ⟨0⟩ ⟨⟨1⟩, .unconditional⟩, .settle []]
    (strayEngine.opened ∅ ())

/-- The strand that was opened in the failed turn is registered, and it looks after the start node that was
called. -/
theorem registry_and_coverage_stray :
    strayEngine.ReachesStaged ∅ straySession.staged ∧ straySession.strands.keys = [⟨1⟩, ⟨2⟩] ∧
      (∀ id ∈ straySession.strands.keys, id.number ≤ straySession.strandCount) ∧
      ∃ strand ∈ straySession.strands.items, ∃ entry ∈ strand.entries, entry.node = ⟨3⟩ := by
  have opened : strayEngine.Reaches (fun _ _ => True) ∅ (strayEngine.opened ∅ ()) :=
    .opened (by decide +kernel)
  have reached : strayEngine.Reaches (fun _ _ => True) ∅ straySession :=
    opened.afterAll ⟨trivial, trivial, trivial, trivial⟩
  obtain ⟨staged, registered⟩ := Engine.registry_and_coverage strayEngine ∅
  obtain ⟨-, -, numbered, -, covered⟩ := registered straySession reached
  exact ⟨(staged _).2 ⟨rfl, reached⟩, by decide +kernel, numbered, covered ⟨3⟩ (by decide +kernel)⟩

end Flowchart
