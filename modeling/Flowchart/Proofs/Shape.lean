import Flowchart.Proofs.Branches
import Flowchart.Proofs.References

/-!
The shape of strands. A strand stays in the flow in which it began. Its origin apart, it came to each of
its nodes along an edge, and a snapshot to which it came so is its end: also when a collapse has taken
away everything before it, so that the snapshot stands where strands begin.
-/
namespace Flowchart

variable {σ : Type} {engine : Engine σ} {grants : Grants σ} {chart : Chart} {decl : ChartDecl}

/-- The strand came to the node of the entry along an edge. -/
def Entry.IsLed (chart : Chart) (entry : Entry) : Prop :=
  ∃ ref edge, entry.support.basis = .edge ref ∧ chart.edge? ref = some edge ∧ edge.target = entry.node

/-- A snapshot that carries the support of an edge. -/
def Entry.IsHalt (chart : Chart) (entry : Entry) : Prop :=
  chart.kind? entry.node = some .snapshot ∧ ∃ ref, entry.support.basis = .edge ref

/-- What the entries of a strand look like, whatever was cut out of it. -/
structure Strand.Shape (chart : Chart) (entries : List Entry) : Prop where
  within : ∃ flow, ∀ entry ∈ entries, ∃ node, chart.node? entry.node = some node ∧ node.flow = flow
  led : ∀ entry ∈ entries.tail, entry.IsLed chart
  halt : ∀ before entry rest, entries = before ++ entry :: rest → entry.IsHalt chart → rest = []

namespace Strand.Shape

theorem singleton {node : NodeRef} {kind : NodeKind} (known : chart.kind? node = some kind)
    (support : Support) : Shape chart [⟨node, support⟩] := by
  constructor
  · obtain ⟨record, found, -⟩ := Option.map_eq_some_iff.1 known
    refine ⟨record.flow, fun entry mem => ?_⟩
    rw [List.mem_singleton.1 mem]
    exact ⟨record, found, rfl⟩
  · intro entry mem
    cases mem
  · intro before entry rest split _
    cases before with
    | nil => exact (List.cons.inj split).2.symm
    | cons first before => simp at split

/-- Cutting entries out of a strand does not spoil its shape. -/
theorem sublist {entries kept : List Entry} (shape : Shape chart entries)
    (cut : kept.Sublist entries) : Shape chart kept := by
  constructor
  · obtain ⟨flow, same⟩ := shape.within
    exact ⟨flow, fun entry mem => same entry (cut.subset mem)⟩
  · intro entry mem
    exact shape.led entry (cut.tail.subset mem)
  · intro before entry rest split halts
    rw [split, List.append_sublist_iff] at cut
    obtain ⟨front, back, rfl, -, behind⟩ := cut
    obtain ⟨early, late, rfl, mem, remains⟩ := List.cons_sublist_iff.1 behind
    obtain ⟨skipped, others, rfl⟩ := List.append_of_mem mem
    have none : others ++ late = [] := by
      apply shape.halt (front ++ skipped) entry _ _ halts
      simp
    rw [(List.append_eq_nil_iff.1 none).2] at remains
    exact List.sublist_nil.1 remains

/-- A strand goes on along an edge from its last entry, if that is not its end. -/
theorem append {front : List Entry} {last : Entry} (shape : Shape chart (front ++ [last]))
    (goes : ¬last.IsHalt chart) (compiled : decl.compile = .ok chart) {ref : EdgeRef} {edge : Edge}
    (known : chart.edge? ref = some edge) (source : edge.source = last.node) {support : Support}
    (basis : support.basis = .edge ref) :
    Shape chart (front ++ [last] ++ [⟨edge.target, support⟩]) := by
  constructor
  · obtain ⟨flow, same⟩ := shape.within
    obtain ⟨begins, ends, leaves, enters, one⟩ := ChartDecl.flow_of_compile compiled known
    refine ⟨flow, fun entry mem => ?_⟩
    rcases List.mem_append.1 mem with old | new
    · exact same entry old
    · obtain ⟨node, found, owned⟩ := same last (List.mem_append_right _ (List.mem_singleton_self _))
      rw [source, found] at leaves
      cases leaves
      rw [List.mem_singleton.1 new]
      exact ⟨ends, enters, one.symm.trans owned⟩
  · intro entry mem
    rw [List.tail_append_of_ne_nil (by simp)] at mem
    rcases List.mem_append.1 mem with old | new
    · exact shape.led entry old
    · rw [List.mem_singleton.1 new]
      exact ⟨ref, edge, basis, known, rfl⟩
  · intro before entry rest split halts
    rcases List.eq_nil_or_concat rest with rfl | ⟨others, final, rfl⟩
    · rfl
    rw [List.concat_eq_append, ← List.cons_append, ← List.append_assoc] at split
    have old := (List.append_inj' split rfl).1
    have none := shape.halt before entry others old halts
    subst none
    have here := (List.append_inj' old rfl).2
    cases here
    exact absurd halts goes

end Strand.Shape

namespace Session

/-- All strands have their shape. -/
def Shaped (chart : Chart) (session : Session σ) : Prop :=
  ∀ strand ∈ session.strands.items, Strand.Shape chart strand.entries

variable {session after : Session σ}

namespace Shaped

theorem congr (shaped : session.Shaped chart) (same : after.strands = session.strands) :
    after.Shaped chart := by
  intro strand live
  rw [same] at live
  exact shaped strand live

theorem putStrand (shaped : session.Shaped chart) {strand : Strand}
    (shape : Strand.Shape chart strand.entries) : (session.putStrand strand).Shaped chart := by
  intro other live
  rcases Roster.mem_insert.1 live with rfl | ⟨old, -⟩
  · exact shape
  · exact shaped other old

theorem tidy (shaped : session.Shaped chart) (id : StrandId) : (session.tidy id).Shaped chart := by
  unfold Session.tidy
  split
  · intro strand live
    exact shaped strand (Roster.mem_erase.1 live).1
  · exact shaped

theorem openStrand (shaped : session.Shaped chart) {node : NodeRef} {kind : NodeKind}
    (known : chart.kind? node = some kind) (support : Support) :
    (session.openStrand node kind support).Shaped chart := by
  apply putStrand
  · apply shaped.congr
    unfold arriveAt
    split <;> rfl
  · exact .singleton known support

end Shaped

end Session

section Changes

variable {session after : Session σ} {id : StrandId}

theorem Performs.shaped {node : NodeRef} (performs : Performs engine node session after)
    (shaped : session.Shaped engine.chart) : after.Shaped engine.chart := by
  cases performs with
  | started | idled => exact shaped
  | reached | assigned => exact shaped.congr rfl
  | invoked reacts =>
      obtain ⟨facts, host, rfl⟩ := reacts.exists_eq
      exact shaped.congr rfl
  | @called start origin kind known fit =>
      have supported : (session.countSupport.addSupport start
          (session.nextSupport (.caller node))).Shaped engine.chart := shaped.congr rfl
      exact (supported.openStrand known (session.nextSupport (.caller node))).congr rfl

/-- The strand that is being collapsed keeps its shape entry by entry. -/
theorem Collapsing.shaped {now : List (Entry × Bool) × Session σ}
    (collapsing : Collapsing engine id session now) (shaped : session.Shaped engine.chart)
    (live : session.strands.contains id = true) :
    Strand.Shape engine.chart (now.1.map Prod.fst) ∧ now.2.Shaped engine.chart := by
  induction collapsing with
  | refl =>
      refine ⟨?_, shaped.congr rfl⟩
      obtain ⟨strand, found⟩ := Option.isSome_iff_exists.1 ((Roster.contains_eq_isSome _ _).symm.trans live)
      obtain ⟨listed, rfl⟩ := Roster.get?_eq_some found
      rw [Session.verdicts, map_fst_sweepEntries, Session.entries_eq_iff_of_mem listed]
      exact shaped strand listed
  | tail _ step ih =>
      cases step with
      | @entry before rest entry _ reverted reverts =>
          have cut : ((before ++ rest).map Prod.fst).Sublist
              ((before ++ (entry, false) :: rest).map Prod.fst) :=
            ((List.sublist_cons_self _ _).append_left before).map Prod.fst
          have shape := ih.1.sublist cut
          refine ⟨shape, ?_⟩
          have left : reverted.Shaped engine.chart := ih.2.congr reverts.fades.strands
          exact (left.congr rfl).putStrand shape

theorem Strand.resumes_iff {strand : Strand} :
    strand.resumes = true ↔ ∃ origin, strand.entries = [origin] ∧ origin.support.edge? = none := by
  unfold resumes
  split
  · rename_i origin entries
    simp [entries]
  · rename_i several
    simp only [Bool.false_eq_true, false_iff, not_exists, not_and]
    intro origin entries
    exact absurd entries (several origin)

/-- A snapshot that a strand goes on from was not reached along an edge. -/
theorem Engine.not_isHalt_of_nextEdge? {ref : EdgeRef} {edge : Edge}
    (next : engine.nextEdge? session id = some (ref, edge)) {front : List Entry} {last : Entry}
    (entries : session.entries id = front ++ [last]) : ¬last.IsHalt engine.chart := by
  rintro ⟨snapshot, other, basis⟩
  unfold nextEdge? at next
  simp only [Option.bind_eq_bind, Option.bind_eq_some_iff] at next
  obtain ⟨strand, found, frontier, ends, next⟩ := next
  have listed : strand.entries = front ++ [last] := by
    rw [← entries, Session.entries, found]
    rfl
  have same : last.node = frontier := by
    simpa [Strand.frontier?, Strand.nodes, listed] using ends
  have resumes : strand.resumes = true := by
    by_contra stays
    simp [← same, snapshot, stays] at next
  obtain ⟨origin, alone, unled⟩ := Strand.resumes_iff.1 resumes
  have here : last = origin := by
    have lasts := congrArg List.getLast? (listed.symm.trans alone)
    simpa using lasts
  rw [← here, Support.edge?, basis] at unled
  cases unled

theorem Session.Shaped.joining (shaped : session.Shaped engine.chart)
    (compiled : decl.compile = .ok engine.chart) {ref : EdgeRef} {edge : Edge}
    (next : engine.nextEdge? session id = some (ref, edge)) :
    (session.joining id ref edge.target).Shaped engine.chart := by
  obtain ⟨front, last, ⟨strand, listed, split⟩, entries, source, known⟩ :=
    Session.exists_places_of_nextEdge? compiled next
  have supported : (session.countSupport.addSupport edge.target
      (session.nextSupport (.edge ref))).Shaped engine.chart := shaped.congr rfl
  apply supported.putStrand
  rw [entries]
  apply Strand.Shape.append
  · rw [← split]
    exact shaped strand listed
  · exact engine.not_isHalt_of_nextEdge? next entries
  · exact compiled
  · exact known
  · exact source
  · rfl

theorem Move.shaped (move : Move engine session after) (compiled : decl.compile = .ok engine.chart)
    (shaped : session.Shaped engine.chart) : after.Shaped engine.chart := by
  cases move with
  | collapsed live collapsing => exact (collapsing.shaped shaped live).2.tidy _
  | merged => exact shaped.congr rfl
  | joined next idle performs => exact (performs.shaped (shaped.joining compiled next)).congr rfl

theorem Offer.shaped (offer : Offer engine grants session after)
    (shaped : session.Shaped engine.chart) : after.Shaped engine.chart := by
  cases offer with
  | counted | asked | supported => exact shaped.congr rfl
  | @opened node kind support count known =>
      have supported : (session.supply node support count).Shaped engine.chart := shaped.congr rfl
      exact (supported.openStrand known support).congr rfl

theorem Change.shaped (change : Change engine grants session after)
    (compiled : decl.compile = .ok engine.chart) (shaped : session.Shaped engine.chart) :
    after.Shaped engine.chart := by
  cases change with
  | moved move => exact move.shaped compiled shaped
  | offered offer => exact offer.shaped shaped
  | heard => exact shaped.congr rfl

/-- Nor do strands lose their shape where an action is refused. -/
theorem Break.shaped (broke : Break engine session after) (shaped : session.Shaped engine.chart) :
    after.Shaped engine.chart := by
  cases broke with
  | collapse live collapsing refuses =>
      have between := (collapsing.shaped shaped live).2
      apply between.congr
      exact ((Session.Fades.removeSupport _ _ _).trans refuses.fades).strands
  | join next idle refuses =>
      apply shaped.congr
      exact (Session.parting_fades (engine.live_of_nextEdge? next) refuses _).strands

end Changes

/-- In every session that an engine reaches, whatever the host does with it and however operations fail,
each strand lies in one flow, came to all nodes but its origin along an edge, and ends at the first
snapshot to which it came so. -/
theorem Engine.Reaches.strand_shape {permits : Session σ → Operation σ → Prop} {facts : Facts}
    {session : Session σ} (compiled : decl.compile = .ok engine.chart)
    (reached : engine.Reaches permits facts session) :
    ∀ strand ∈ session.strands.items, Strand.Shape engine.chart strand.entries := by
  have shaped : session.Shaped engine.chart := by
    refine Engine.Reaches.invariant engine.sourceGrants_all ?_ ?_ ?_ ?_ ?_ ?_ ?_ reached
    · exact fun _ => trivial
    · exact fun _ => Operation.offers_all _
    · exact fun host strand live => nomatch live
    · exact fun shaped change => change.shaped compiled shaped
    · exact fun _ _ shaped broke => broke.shaped shaped
    · exact fun _ shaped => shaped.congr rfl
    · exact fun _ shaped => shaped.congr rfl
  exact shaped

/-- Two ways lead to a snapshot, and one leads on from it. -/
def terminusDecl : ChartDecl :=
  ⟨[(((((((((FlowDecl.named "Main").addStart "Begin").addStart "Other").addAction "X" .noop).addSnapshot
      "End").addAction "After" .noop).addEdge "Begin" "X" none).addEdge "X" "End" none).addEdge
      "End" "After" none).addEdge "Other" "End" none], []⟩

def terminusEngine : Engine Unit := ⟨terminusDecl.chart, ∅, .silent, .standard⟩

/-- The first strand has reached the snapshot, the second supports it too, and the first has lost
everything before it. -/
def terminusSession : Session Unit :=
  Operation.afterAll terminusEngine
    [.mint .unconditional, .begin ⟨0⟩ ⟨⟨1⟩, .unconditional⟩, .mint .unconditional,
      .begin ⟨1⟩ ⟨⟨2⟩, .unconditional⟩, .settle [], .withdraw ⟨0⟩ ⟨1⟩, .settle []]
    (terminusEngine.opened ∅ ())

/-- The snapshot now stands where the strand began, and the strand still ends there. -/
theorem strand_shape_terminus :
    terminusDecl.compile = .ok terminusEngine.chart ∧
      terminusEngine.Reaches (fun _ _ => True) ∅ terminusSession ∧
      terminusSession.strands.items.map Strand.nodes = [[⟨3⟩], [⟨1⟩]] ∧
      ∀ strand ∈ terminusSession.strands.items,
        Strand.Shape terminusEngine.chart strand.entries := by
  have compiled : terminusDecl.compile = .ok terminusEngine.chart :=
    terminusDecl.compile_of_isOk (by decide +kernel)
  have opened : terminusEngine.Reaches (fun _ _ => True) ∅ (terminusEngine.opened ∅ ()) :=
    .opened (by decide +kernel)
  have reached : terminusEngine.Reaches (fun _ _ => True) ∅ terminusSession :=
    opened.afterAll ⟨trivial, trivial, trivial, trivial, trivial, trivial, trivial, trivial⟩
  exact ⟨compiled, reached, by decide +kernel, Engine.Reaches.strand_shape compiled reached⟩

end Flowchart
