import Flowchart.Proofs.Uncalled
import Mathlib.Data.List.Lemmas

/-!
One branch at a time. Where no node is composed, a strand leaves a node by one edge: the entry behind
that of the node came in by it and holds the support of it. What is merged into an active node is no
entry, and leaves the strand where it was; so supports of other edges may be held besides, from the
time before the strand went on.
-/
namespace Flowchart

variable {σ : Type} {engine : Engine σ} {chart : Chart} {decl : ChartDecl}
  {session after : Session σ} {node : NodeRef}

namespace Session

/-- A support that is held by a node for one of the edges that leave another. -/
structure Branch (chart : Chart) (session : Session σ) (source target : NodeRef) (support : Support) :
    Prop where
  held : support ∈ (session.activation.supports target).items
  leaves : ∃ ref ∈ chart.outgoing source, support.basis = .edge ref

/-- The node of an entry joined its strand by one of those edges and holds the support with which it
joined. -/
structure Entered (chart : Chart) (session : Session σ) (source : NodeRef) (entry : Entry) : Prop
    extends session.Branch chart source entry.node entry.support where
  listed : ∃ strand ∈ session.strands.items, entry ∈ strand.entries

/-- Where an entry stands in its strand. -/
def Places (session : Session σ) (before : List Entry) (entry : Entry) (rest : List Entry) : Prop :=
  ∃ strand ∈ session.strands.items, strand.entries = before ++ entry :: rest

theorem Places.of_mem {strand : Strand} {entry : Entry} (listed : strand ∈ session.strands.items)
    (mem : entry ∈ strand.entries) : ∃ before rest, session.Places before entry rest := by
  obtain ⟨before, rest, split⟩ := List.append_of_mem mem
  exact ⟨before, rest, strand, listed, split⟩

theorem Places.mem {before rest : List Entry} {entry : Entry}
    (places : session.Places before entry rest) : ∃ strand ∈ session.strands.items, entry ∈ strand.entries := by
  obtain ⟨strand, listed, split⟩ := places
  exact ⟨strand, listed, split ▸ List.mem_append_right before (List.mem_cons_self ..)⟩

theorem Places.prev {front rest : List Entry} {prev entry : Entry}
    (places : session.Places (front ++ [prev]) entry rest) :
    session.Places front prev (entry :: rest) := by
  obtain ⟨strand, listed, split⟩ := places
  exact ⟨strand, listed, split.trans (List.append_cons front prev (entry :: rest)).symm⟩

/-- A node that has no two entries stands in one place. -/
theorem Places.unique {before rest front later : List Entry} {first second : Entry}
    (here : session.Places before first rest) (there : session.Places front second later)
    (same : first.node = second.node) (once : session.nodes.count first.node ≤ 1) :
    before = front ∧ first = second ∧ rest = later := by
  obtain ⟨strand, listed, split⟩ := here
  obtain ⟨other, listedToo, splitToo⟩ := there
  have dropped := session.count_nodes_dropStrand strand.id first.node
  rw [entries_eq_iff_of_mem listed, split, List.map_append, List.map_cons, List.count_append,
    List.count_cons_self] at dropped
  have alone : other.id = strand.id := by
    by_contra apart
    -- The node would have an entry in what is left without the strand.
    have left : first.node ∈ (session.dropStrand strand.id).nodes := by
      refine mem_nodes.2 ⟨other, Roster.mem_erase.2 ⟨listedToo, apart⟩, ?_⟩
      rw [Strand.nodes, splitToo, same]
      exact List.mem_map_of_mem (List.mem_append_right front (List.mem_cons_self ..))
    have counted := List.count_pos_iff.2 left
    omega
  rw [Roster.eq_of_key_eq listedToo listed alone, split] at splitToo
  have absent : (before.map Entry.node).count first.node = 0 ∧
      (rest.map Entry.node).count first.node = 0 := by omega
  rw [List.count_eq_zero, List.count_eq_zero, same] at absent
  refine (List.append_cons_inj_of_notMem ?_ ?_).1 splitToo
  · exact fun mem => absent.1 (List.mem_map_of_mem mem)
  · exact fun mem => absent.2 (List.mem_map_of_mem mem)

end Session

section Sweep

variable {facts : Facts}

/-- If a support for an edge outlives a sweep, the entry before it, at the source of the edge, was found
active. -/
theorem verdict_of_mem_sweepEntries {table : Activation} {entries : List Entry}
    {front rest : List (Entry × Bool)} {prev entry : Entry} {verdict judged : Bool} {ref : EdgeRef}
    {edge : Edge} (split : (sweepEntries chart facts table entries).1 =
      front ++ (prev, verdict) :: (entry, judged) :: rest)
    (held : entry.support ∈ ((sweepEntries chart facts table entries).2.supports entry.node).items)
    (basis : entry.support.basis = .edge ref) (known : chart.edge? ref = some edge)
    (source : edge.source = prev.node) : verdict = true := by
  induction entries generalizing table front with
  | nil => simp [sweepEntries] at split
  | cons first others ih =>
      rw [sweepEntries_cons] at split held
      cases front with
      | cons mark front => exact ih (List.cons.inj split).2 held
      | nil =>
          obtain ⟨here, behind⟩ := List.cons.inj split
          clear split ih
          cases here
          cases others with
          | nil => simp [sweepEntries] at behind
          | cons second others =>
              rw [sweepEntries_cons] at behind held
              have same : second = entry := congrArg Prod.fst (List.cons.inj behind).1
              subst same
              have holds := (Activation.mem_sweep.1 (mem_of_mem_sweepEntries held)).2 rfl
              rw [basis, Basis.holds, known, Option.any_some, Bool.and_eq_true, source] at holds
              exact holds.1

end Sweep

/-- An entry among those that were found active, with the ones found active before it. -/
theorem exists_split_of_filter {marks : List (Entry × Bool)} {before rest : List Entry} {entry : Entry}
    (split : (marks.filter Prod.snd).map Prod.fst = before ++ entry :: rest) :
    ∃ earlier later, marks = earlier ++ (entry, true) :: later ∧
      before = (earlier.filter Prod.snd).map Prod.fst := by
  obtain ⟨early, late, parts, rfl, late_eq⟩ := List.map_eq_append_iff.1 split
  obtain ⟨⟨entry, verdict⟩, others, rfl, rfl, -⟩ := List.map_eq_cons_iff.1 late_eq
  obtain ⟨first, second, rfl, rfl, here⟩ := List.filter_eq_append_iff.1 parts
  obtain ⟨dropped, later, rfl, idle, active, -⟩ := List.filter_eq_cons_iff.1 here
  cases (active : verdict = true)
  have bare : dropped.filter Prod.snd = [] := List.filter_eq_nil_iff.2 idle
  refine ⟨first ++ dropped, later, (List.append_assoc ..).symm, ?_⟩
  rw [List.filter_append, bare, List.append_nil]

/-- Undoing entries does nothing to the marks of the others. -/
theorem Collapsing.filter_eq {id : StrandId} {now : List (Entry × Bool) × Session σ}
    (collapsing : Collapsing engine id session now) :
    now.1.filter Prod.snd = (session.verdicts engine.chart id).filter Prod.snd := by
  induction collapsing with
  | refl => rfl
  | tail _ step ih =>
      cases step with
      | entry reverts =>
          rw [← ih]
          simp

namespace Session

/-- The numbers of supports were given out. An entry that holds the support of an edge stands right
behind the source of that edge, and no support of an edge from there is newer. -/
structure Branched (chart : Chart) (session : Session σ) : Prop where
  issued : session.Numbered
  counted : ∀ {before rest : List Entry} {entry : Entry}, session.Places before entry rest →
    entry.support.id.number ≤ session.supportCount
  behind : ∀ {before rest : List Entry} {entry : Entry} {ref : EdgeRef},
    session.Places before entry rest →
    entry.support ∈ (session.activation.supports entry.node).items →
    entry.support.basis = .edge ref →
    ∃ front prev edge, before = front ++ [prev] ∧ chart.edge? ref = some edge ∧ edge.source = prev.node
  latest : ∀ {source target : NodeRef} {entry : Entry} {support : Support},
    session.Entered chart source entry → session.Branch chart source target support →
    support.id.number ≤ entry.support.id.number

/-- An entry that is held on to by an edge from a node stands behind an entry of that node. -/
theorem Branched.exists_prev (inv : session.Branched chart) (compiled : decl.compile = .ok chart)
    {entry : Entry} (entered : session.Entered chart node entry) :
    ∃ front prev rest, session.Places front prev (entry :: rest) ∧ prev.node = node := by
  obtain ⟨strand, listed, mem⟩ := entered.listed
  obtain ⟨before, rest, places⟩ := Places.of_mem listed mem
  obtain ⟨ref, leaves, basis⟩ := entered.leaves
  obtain ⟨front, prev, edge, rfl, known, source⟩ := inv.behind places entered.held basis
  refine ⟨front, prev, rest, places.prev, ?_⟩
  rw [← source, ChartDecl.source_of_compile compiled leaves known]

/-- Of the entries behind a node, at most one is held on to by an edge from it. -/
theorem Branched.entry_unique (inv : session.Branched chart) (compiled : decl.compile = .ok chart)
    (once : session.nodes.count node ≤ 1) {first second : Entry}
    (here : session.Entered chart node first) (there : session.Entered chart node second) :
    first = second := by
  obtain ⟨front, prev, rest, places, rfl⟩ := inv.exists_prev compiled here
  obtain ⟨back, other, later, placesToo, same⟩ := inv.exists_prev compiled there
  exact (List.cons.inj (places.unique placesToo same.symm once).2.2).1

/-- The frontier of a strand stands last in it. -/
theorem exists_places_of_nextEdge? {id : StrandId} {ref : EdgeRef} {edge : Edge}
    (compiled : decl.compile = .ok engine.chart)
    (next : engine.nextEdge? session id = some (ref, edge)) :
    ∃ front last, session.Places front last [] ∧ session.entries id = front ++ [last] ∧
      edge.source = last.node ∧ engine.chart.edge? ref = some edge := by
  obtain ⟨strand, frontier, found, ends, leaves, known, -⟩ := engine.nextEdge?_eq_some next
  obtain ⟨listed, rfl⟩ := Roster.get?_eq_some found
  rw [Strand.frontier?, Strand.nodes, List.getLast?_map, Option.map_eq_some_iff] at ends
  obtain ⟨last, ends, rfl⟩ := ends
  obtain ⟨front, split⟩ := List.getLast?_eq_some_iff.1 ends
  refine ⟨front, last, ⟨strand, listed, split⟩, ?_, ?_, known⟩
  · rw [entries_eq_iff_of_mem listed, split]
  · exact ChartDecl.source_of_compile compiled leaves known

/-- No entry stands behind a frontier, so none is held on to by an edge from there. -/
theorem Branched.not_entered (inv : session.Branched engine.chart)
    (compiled : decl.compile = .ok engine.chart) {id : StrandId} {ref : EdgeRef} {edge : Edge}
    (next : engine.nextEdge? session id = some (ref, edge))
    (leaves : ref ∈ engine.chart.outgoing node) (once : session.nodes.count node ≤ 1) (entry : Entry) :
    ¬session.Entered engine.chart node entry := by
  intro entered
  obtain ⟨front, last, ends, -, source, known⟩ := exists_places_of_nextEdge? compiled next
  obtain ⟨before, prev, rest, places, rfl⟩ := inv.exists_prev compiled entered
  have same : prev.node = last.node := by
    rw [← source, ChartDecl.source_of_compile compiled leaves known]
  cases (places.unique ends same once).2.2

namespace Branched

theorem fresh (chart : Chart) (facts : Facts) (host : σ) : (Session.fresh facts host).Branched chart where
  issued _ _ mem := nomatch mem
  counted := by
    rintro before rest entry ⟨strand, listed, -⟩
    cases listed
  behind _ held := nomatch held
  latest entered := nomatch entered.held

/-- What holds supports of edges, and the entries that do, have been there before. -/
theorem of_old (inv : session.Branched chart) (issued : after.Numbered)
    (counted : ∀ {before rest : List Entry} {entry : Entry}, after.Places before entry rest →
      entry.support.id.number ≤ after.supportCount)
    (held : ∀ {target : NodeRef} {support : Support} {ref : EdgeRef}, support.basis = .edge ref →
      support ∈ (after.activation.supports target).items →
      support ∈ (session.activation.supports target).items)
    (placed : ∀ {before rest : List Entry} {entry : Entry} {ref : EdgeRef},
      entry.support.basis = .edge ref → after.Places before entry rest →
      session.Places before entry rest) : after.Branched chart where
  issued := issued
  counted := counted
  behind places mem basis := inv.behind (placed basis places) (held basis mem) basis
  latest entered branch := by
    obtain ⟨ref, leaves, basis⟩ := entered.leaves
    obtain ⟨other, leavesToo, basisToo⟩ := branch.leaves
    obtain ⟨strand, listed, mem⟩ := entered.listed
    obtain ⟨before, rest, places⟩ := Places.of_mem listed mem
    exact inv.latest ⟨⟨held basis entered.held, ref, leaves, basis⟩, (placed basis places).mem⟩
      ⟨held basisToo branch.held, other, leavesToo, basisToo⟩

theorem congr (inv : session.Branched chart) (strands : after.strands = session.strands)
    (activation : after.activation = session.activation)
    (count : session.supportCount ≤ after.supportCount) : after.Branched chart := by
  have placed {before rest : List Entry} {entry : Entry} (places : after.Places before entry rest) :
      session.Places before entry rest := by
    obtain ⟨strand, listed, split⟩ := places
    exact ⟨strand, strands ▸ listed, split⟩
  exact inv.of_old (inv.issued.below (fun _ _ mem => activation ▸ mem) count)
    (fun places => (inv.counted (placed places)).trans count)
    (fun _ mem => activation ▸ mem) fun _ places => placed places

/-- A support from outside is for no edge. -/
theorem addSupport (inv : session.Branched chart) {support : Support} (outside : support.basis.Outside)
    (given : support.id.number ≤ session.supportCount) (node : NodeRef) :
    (session.addSupport node support).Branched chart := by
  refine inv.of_old ?_ inv.counted ?_ fun _ places => places
  · intro target held mem
    rcases Activation.mem_add.1 mem with old | ⟨-, rfl, -⟩
    · exact inv.issued target held old
    · exact given
  · intro target held ref basis mem
    rcases Activation.mem_add.1 mem with old | ⟨-, rfl, -⟩
    · exact old
    · rw [basis] at outside
      exact outside.elim

/-- Nor is the one with which a strand is opened. -/
theorem openStrand (inv : session.Branched chart) {support : Support} (outside : support.basis.Outside)
    (given : support.id.number ≤ session.supportCount)
    (new : session.strands.get? ⟨session.strandCount + 1⟩ = none) (node : NodeRef) (kind : NodeKind) :
    (session.openStrand node kind support).Branched chart := by
  have activation := activation_openStrand session node kind support
  have count := supportCount_openStrand session node kind support
  have placed {before rest : List Entry} {entry : Entry}
      (places : (session.openStrand node kind support).Places before entry rest) :
      session.Places before entry rest ∨ entry.support = support := by
    obtain ⟨strand, listed, split⟩ := places
    rw [items_openStrand new] at listed
    rcases List.mem_append.1 listed with old | last
    · exact .inl ⟨strand, old, split⟩
    · have mem : entry ∈ strand.entries := split ▸ List.mem_append_right before (List.mem_cons_self ..)
      rw [List.mem_singleton.1 last] at mem
      exact .inr (congrArg Entry.support (List.mem_singleton.1 mem))
  refine inv.of_old (inv.issued.below (fun _ _ mem => activation ▸ mem) count.ge) ?_
    (fun _ mem => activation ▸ mem) ?_
  · intro before rest entry places
    rw [count]
    rcases placed places with old | same
    · exact inv.counted old
    · exact same ▸ given
  · intro before rest entry ref basis places
    rcases placed places with old | same
    · exact old
    · rw [same] at basis
      rw [basis] at outside
      exact outside.elim

section Edge

variable {id : StrandId} {ref : EdgeRef} {edge : Edge} {source target : NodeRef} {entry : Entry}

/-- An entry does not hold the support that is minted next. -/
theorem held_of_add (inv : session.Branched chart) {before rest : List Entry}
    (places : session.Places before entry rest)
    (held : entry.support ∈
      ((session.activation.add target (session.nextSupport (.edge ref))).supports entry.node).items) :
    entry.support ∈ (session.activation.supports entry.node).items := by
  rcases Activation.mem_add.1 held with old | ⟨-, same, -⟩
  · exact old
  · have bound := inv.counted places
    rw [same] at bound
    exact absurd bound (Nat.not_succ_le_self _)

/-- The support for an edge from a frontier is newer than others, but no entry behind the frontier holds
on to one that it could outdate. -/
theorem latest_of_add (inv : session.Branched engine.chart)
    (compiled : decl.compile = .ok engine.chart) (once : ∀ node, session.nodes.count node ≤ 1)
    (next : engine.nextEdge? session id = some (ref, edge))
    (entered : session.Entered engine.chart source entry) {support : Support}
    (held : support ∈
      ((session.activation.add edge.target (session.nextSupport (.edge ref))).supports target).items)
    (leaves : ∃ other ∈ engine.chart.outgoing source, support.basis = .edge other) :
    support.id.number ≤ entry.support.id.number := by
  rcases Activation.mem_add.1 held with old | ⟨-, rfl, -⟩
  · exact inv.latest entered ⟨old, leaves⟩
  · obtain ⟨other, leaves, basis⟩ := leaves
    cases basis
    exact absurd entered (inv.not_entered compiled next leaves (once source) entry)

theorem merging (inv : session.Branched engine.chart) (compiled : decl.compile = .ok engine.chart)
    (once : ∀ node, session.nodes.count node ≤ 1)
    (next : engine.nextEdge? session id = some (ref, edge)) :
    (session.merging ref edge.target).Branched engine.chart := by
  constructor
  · exact (inv.issued.joining id ref edge.target)
  · exact fun places => Nat.le_succ_of_le (inv.counted places)
  · exact fun places held basis => inv.behind places (inv.held_of_add places held) basis
  · intro source target entry support entered branch
    obtain ⟨strand, listed, mem⟩ := entered.listed
    obtain ⟨before, rest, places⟩ := Places.of_mem listed mem
    exact inv.latest_of_add compiled once next
      ⟨⟨inv.held_of_add places entered.held, entered.leaves⟩, entered.listed⟩ branch.held branch.leaves

theorem placed_of_joining {before rest : List Entry}
    (places : (session.joining id ref target).Places before entry rest) :
    (∃ later, session.Places before entry later) ∨
      entry = ⟨target, session.nextSupport (.edge ref)⟩ ∧ before = session.entries id := by
  obtain ⟨strand, listed, split⟩ := places
  rcases Roster.mem_insert.1 listed with rfl | ⟨old, -⟩
  · rcases List.eq_nil_or_concat rest with rfl | ⟨later, last, rfl⟩
    · obtain ⟨front, here⟩ := List.append_inj' split rfl
      exact .inr ⟨(List.singleton_inj.1 here).symm, front.symm⟩
    · rw [List.concat_eq_append, ← List.cons_append, ← List.append_assoc] at split
      have within : session.entries id = before ++ entry :: later := (List.append_inj' split rfl).1
      have mem : entry ∈ session.entries id :=
        within ▸ List.mem_append_right before (List.mem_cons_self ..)
      obtain ⟨strand, live, rfl, -⟩ := exists_strand_of_mem_entries mem
      exact .inl ⟨later, strand, live, (entries_eq_iff_of_mem live).symm.trans within⟩
  · exact .inl ⟨rest, strand, old, split⟩

/-- The target of an edge from a frontier joins right behind it. -/
theorem joining (inv : session.Branched engine.chart) (compiled : decl.compile = .ok engine.chart)
    (once : ∀ node, session.nodes.count node ≤ 1)
    (next : engine.nextEdge? session id = some (ref, edge)) :
    (session.joining id ref edge.target).Branched engine.chart := by
  have issued := inv.issued.joining id ref edge.target
  constructor
  · exact issued
  · intro before rest entry places
    rcases placed_of_joining places with ⟨later, old⟩ | ⟨rfl, -⟩
    · exact Nat.le_succ_of_le (inv.counted old)
    · exact Nat.le_refl _
  · intro before rest entry other places held basis
    rcases placed_of_joining places with ⟨later, old⟩ | ⟨rfl, rfl⟩
    · exact inv.behind old (inv.held_of_add old held) basis
    · cases basis
      obtain ⟨front, last, -, split, source, known⟩ := exists_places_of_nextEdge? compiled next
      exact ⟨front, last, edge, split, known, source⟩
  · intro source target entry support entered branch
    obtain ⟨strand, listed, mem⟩ := entered.listed
    obtain ⟨before, rest, places⟩ := Places.of_mem listed mem
    rcases placed_of_joining places with ⟨later, old⟩ | ⟨rfl, -⟩
    · exact inv.latest_of_add compiled once next
        ⟨⟨inv.held_of_add old entered.held, entered.leaves⟩, old.mem⟩ branch.held branch.leaves
    · exact issued target support branch.held

end Edge

section Collapse

variable {id : StrandId} {kept : List (Entry × Bool)}

/-- An entry that is kept and holds on to its edge still stands behind the source of the edge, which was
found active as well. -/
theorem behind_of_collapsing (inv : session.Branched engine.chart)
    (live : session.strands.contains id = true)
    (collapsing : Collapsing engine id session (kept, after))
    (settled : ∀ mark ∈ kept, mark.2 = true) {before rest : List Entry} {entry : Entry} {ref : EdgeRef}
    (split : kept.map Prod.fst = before ++ entry :: rest)
    (held : entry.support ∈ (after.activation.supports entry.node).items)
    (basis : entry.support.basis = .edge ref) :
    ∃ front prev edge, before = front ++ [prev] ∧ engine.chart.edge? ref = some edge ∧
      edge.source = prev.node := by
  have sieved : (session.verdicts engine.chart id).filter Prod.snd = kept :=
    collapsing.filter_eq.symm.trans (List.filter_eq_self.2 settled)
  rw [← sieved] at split
  obtain ⟨earlier, later, swept, rfl⟩ := exists_split_of_filter split
  have places : session.Places (earlier.map Prod.fst) entry (later.map Prod.fst) := by
    obtain ⟨strand, found⟩ := Option.isSome_iff_exists.1 ((Roster.contains_eq_isSome _ _).symm.trans live)
    obtain ⟨listed, rfl⟩ := Roster.get?_eq_some found
    have read := map_fst_sweepEntries engine.chart session.facts session.activation
      (session.entries strand.id)
    refine ⟨strand, listed, ?_⟩
    rw [← entries_eq_iff_of_mem listed, ← read]
    exact (congrArg (List.map Prod.fst) swept).trans (List.map_append ..)
  -- In the strand as it was, the source of the edge stands right before the entry.
  obtain ⟨front, prev, edge, ends, known, source⟩ := inv.behind places (collapsing.below _ _ held) basis
  obtain ⟨marks, last, rfl, rfl, last_eq⟩ := List.map_eq_append_iff.1 ends
  obtain ⟨⟨prev, verdict⟩, none, rfl, rfl, none_eq⟩ := List.map_eq_cons_iff.1 last_eq
  cases List.map_eq_nil_iff.1 none_eq
  have whole := swept.trans (List.append_cons marks (prev, verdict) ((entry, true) :: later)).symm
  have active : verdict = true :=
    verdict_of_mem_sweepEntries whole (collapsing.below_swept _ _ held) basis known source
  subst active
  refine ⟨(marks.filter Prod.snd).map Prod.fst, prev, edge, ?_, known, source⟩
  rw [List.filter_append, List.map_append]
  rfl

/-- What is left of a strand that is collapsed was there before, in this order. -/
theorem placed_of_collapsing (inv : session.Orderly engine) (live : session.strands.contains id = true)
    (collapsing : Collapsing engine id session (kept, after)) {before rest : List Entry} {entry : Entry}
    (places : (after.tidy id).Places before entry rest) :
    session.Places before entry rest ∨
      kept.map Prod.fst = before ++ entry :: rest ∧ entry ∈ session.entries id := by
  have underway := Session.Underway.collapsing inv live collapsing
  obtain ⟨strand, listed, split⟩ := places
  have left := mem_strands_of_tidy listed
  by_cases same : strand.id = id
  · have entries := entries_eq_iff_of_mem left
    rw [same, underway.listed, split] at entries
    have mem : entry ∈ kept.map Prod.fst := entries ▸ List.mem_append_right before (List.mem_cons_self ..)
    obtain ⟨mark, marked, rfl⟩ := List.mem_map.1 mem
    refine .inr ⟨entries, ?_⟩
    rw [← map_fst_sweepEntries engine.chart session.facts session.activation (session.entries id)]
    exact List.mem_map_of_mem (collapsing.leaves.1 mark marked)
  · exact .inl ⟨strand, collapsing.leaves.2 strand left same, split⟩

theorem collapsed (inv : session.Branched engine.chart) (orderly : session.Orderly engine)
    (live : session.strands.contains id = true)
    (collapsing : Collapsing engine id session (kept, after))
    (settled : ∀ mark ∈ kept, mark.2 = true) : (after.tidy id).Branched engine.chart := by
  have count : (after.tidy id).supportCount = session.supportCount :=
    (supportCount_tidy after id).trans collapsing.supportCount_eq
  have below : (after.tidy id).activation.Below session.activation := by
    rw [activation_tidy]
    exact collapsing.below
  have placed {before rest : List Entry} {entry : Entry}
      (places : (after.tidy id).Places before entry rest) :
      ∃ front later, session.Places front entry later := by
    rcases placed_of_collapsing orderly live collapsing places with old | ⟨-, mem⟩
    · exact ⟨before, rest, old⟩
    · obtain ⟨strand, listed, -, mem⟩ := exists_strand_of_mem_entries mem
      exact Places.of_mem listed mem
  constructor
  · exact inv.issued.below below count.ge
  · intro before rest entry places
    obtain ⟨front, later, old⟩ := placed places
    rw [count]
    exact inv.counted old
  · intro before rest entry ref places held basis
    rcases placed_of_collapsing orderly live collapsing places with old | ⟨split, -⟩
    · exact inv.behind old (below _ _ held) basis
    · rw [activation_tidy] at held
      exact inv.behind_of_collapsing live collapsing settled split held basis
  · intro source target entry support entered branch
    obtain ⟨strand, listed, mem⟩ := entered.listed
    obtain ⟨before, rest, places⟩ := Places.of_mem listed mem
    obtain ⟨front, later, old⟩ := placed places
    exact inv.latest ⟨⟨below _ _ entered.held, entered.leaves⟩, old.mem⟩
      ⟨below _ _ branch.held, branch.leaves⟩

end Collapse

end Branched

end Session

section Strides

theorem Move.branched (move : Move engine session after) (compiled : decl.compile = .ok engine.chart)
    (nothing : engine.chart.CallsNothing) (lone : session.Lone engine)
    (inv : session.Branched engine.chart) : after.Branched engine.chart := by
  have once (node : NodeRef) : session.nodes.count node ≤ 1 := (lone.single node).once
  cases move with
  | collapsed live collapsing settled => exact inv.collapsed lone.toOrderly live collapsing settled
  | merged next => exact inv.merging compiled once next
  | @joined acted id ref edge next idle performs =>
      rcases performs.eq_calling_or with ⟨called, origin, kind, -⟩ | ⟨-, -, activation, strands⟩
      · exact absurd kind (nothing.ne_composed edge.target called)
      · exact (inv.joining compiled once next).congr strands activation performs.le_supportCount

theorem Stride.branched (stride : Stride engine session after)
    (compiled : decl.compile = .ok engine.chart) (nothing : engine.chart.CallsNothing)
    (lone : session.Lone engine) (inv : session.Branched engine.chart) : after.Branched engine.chart := by
  cases stride with
  | moved move => exact move.branched compiled nothing lone inv
  | quiet counts => exact inv.congr rfl rfl counts
  | @supported node kind support known fit granted active =>
      exact (inv.addSupport granted.1 granted.2 node).congr rfl rfl (Nat.le_refl _)
  | @opened node kind support known fit granted idle =>
      have given : (session.addSupport node support).Branched engine.chart :=
        inv.addSupport granted.1 granted.2 node
      have opened : ((session.addSupport node support).openStrand node kind support).Branched
          engine.chart := given.openStrand granted.1 granted.2 lone.toTracked.fresh node kind
      exact opened.congr rfl rfl (Nat.le_refl _)

end Strides

/-- In a chart without calls, wherever a run leads that only goes forward: of all entries, at most one
joined its strand by an edge from the node and still holds the support with which it joined, and no
support for an edge from the node is newer than that one. -/
theorem Engine.Reaches.one_entered_branch {facts : Facts} (compiled : decl.compile = .ok engine.chart)
    (nothing : engine.chart.CallsNothing) (source : engine.SourceGrants fun _ basis => basis.Outside)
    (reached : engine.Reaches (Operation.Forward engine) facts session) (node : NodeRef) :
    (∀ first second, session.Entered engine.chart node first →
        session.Entered engine.chart node second → first = second) ∧
      ∀ entry target support, session.Entered engine.chart node entry →
        session.Branch engine.chart node target support →
          support.id.number ≤ entry.support.id.number := by
  have inv : session.Lone engine ∧ session.Branched engine.chart := by
    refine reached.keep_strides
      (motive := fun session => session.Lone engine ∧ session.Branched engine.chart)
      nothing source ?_ ?_ ?_
    · exact fun host => ⟨.fresh engine facts host, .fresh engine.chart facts host⟩
    · exact fun inv stride =>
        ⟨stride.lone nothing inv.1, stride.branched compiled nothing inv.1 inv.2⟩
    · exact fun inv => ⟨inv.1.congr rfl rfl rfl rfl, inv.2.congr rfl rfl (Nat.le_refl _)⟩
  obtain ⟨lone, branched⟩ := inv
  refine ⟨fun first second here there => ?_, fun entry target support entered branch => ?_⟩
  · exact branched.entry_unique compiled (lone.single node).once here there
  · exact branched.latest entered branch

/-- One of two start nodes leads to a node of its own while a fact is known, and else to the node that the
other start node leads to. -/
def junctionDecl : ChartDecl :=
  ⟨[((((((FlowDecl.named "Main").addStart "S").addStart "T").addAction "A" .noop).addAction "B"
      .noop).addEdge "S" "A" (some (.known "p"))).addEdge "S" "B" none |>.addEdge "T" "B" none], []⟩

def junctionEngine : Engine Unit := ⟨junctionDecl.chart, ∅, .silent, .standard⟩

/-- The node that both lead to was active when the first was started, and now the fact is known. -/
def junctionKnown : Session Unit :=
  Operation.afterAll junctionEngine
    [.mint .unconditional, .begin ⟨1⟩ ⟨⟨1⟩, .unconditional⟩, .settle [], .mint .unconditional,
      .begin ⟨0⟩ ⟨⟨3⟩, .unconditional⟩, .settle [], .rewrite (Facts.put ∅ "p" (some .unknown)) ()]
    (junctionEngine.opened ∅ ())

def junctionSession : Session Unit := (Operation.settle ["p"]).after junctionEngine junctionKnown

theorem reaches_junction :
    junctionEngine.Reaches (Operation.Forward junctionEngine) ∅ junctionKnown := by
  have opened : junctionEngine.Reaches (Operation.Forward junctionEngine) ∅
      (junctionEngine.opened ∅ ()) := .opened (by decide +kernel)
  refine opened.afterAll ⟨⟨rfl, trivial, ?_⟩, ⟨rfl, ⟨trivial, ?_⟩, ?_⟩, ⟨rfl, trivial, ?_⟩,
    ⟨rfl, trivial, ?_⟩, ⟨rfl, ⟨trivial, ?_⟩, ?_⟩, ⟨rfl, trivial, ?_⟩, ⟨rfl, trivial, ?_⟩, trivial⟩
  all_goals decide +kernel

theorem succeeds_junction : (Operation.settle ["p"]).succeeds junctionEngine junctionKnown = true := by
  decide +kernel

theorem exists_entered_junction :
    ∃ entry, junctionSession.Entered junctionEngine.chart ⟨0⟩ entry := by
  have placed : (junctionSession.strands.items.any fun strand => strand.entries.any fun entry =>
      (junctionSession.activation.supports entry.node).items.any fun support =>
        entry.support.edge? = some ⟨0⟩ ∧ support.edge? = some ⟨0⟩ ∧
          support.id = entry.support.id) = true := by decide +kernel
  simp only [List.any_eq_true, decide_eq_true_eq] at placed
  obtain ⟨strand, listed, ⟨node, id, basis⟩, entered, ⟨other, basisToo⟩, held, first, second, same⟩ :=
    placed
  cases Support.edge?_eq_some_iff.1 first
  cases Support.edge?_eq_some_iff.1 second
  cases same
  exact ⟨_, ⟨held, ⟨0⟩, by decide +kernel, rfl⟩, strand, listed, entered⟩

/-- The strand has gone on by the first edge, and the support that it merged before is held still. -/
theorem one_entered_branch_junction :
    ∃ entry support, junctionSession.Entered junctionEngine.chart ⟨0⟩ entry ∧
      junctionSession.Branch junctionEngine.chart ⟨0⟩ ⟨3⟩ support ∧
      (∀ other, junctionSession.Entered junctionEngine.chart ⟨0⟩ other → other = entry) ∧
      support.id.number ≤ entry.support.id.number := by
  have compiled : junctionDecl.compile = .ok junctionDecl.chart :=
    junctionDecl.compile_of_isOk (by decide +kernel)
  have source : junctionEngine.SourceGrants fun _ basis => basis.Outside :=
    fun _ _ _ _ _ mem => nomatch mem
  have reached : junctionEngine.Reaches (Operation.Forward junctionEngine) ∅ junctionSession :=
    .after reaches_junction ⟨rfl, trivial, succeeds_junction⟩
  have nothing : junctionEngine.chart.CallsNothing := by decide +kernel
  obtain ⟨unique, latest⟩ :=
    Engine.Reaches.one_entered_branch compiled nothing source reached ⟨0⟩
  have merged : junctionSession.activation.holdsEdge ⟨3⟩ ⟨1⟩ = true := by decide +kernel
  obtain ⟨support, held, told⟩ := Activation.holdsEdge_iff.1 merged
  have branch : junctionSession.Branch junctionEngine.chart ⟨0⟩ ⟨3⟩ support :=
    ⟨held, ⟨1⟩, by decide +kernel, Support.edge?_eq_some_iff.1 told⟩
  obtain ⟨entry, entered⟩ := exists_entered_junction
  exact ⟨entry, support, entered, branch, fun other there => unique other entry there entered,
    latest entry ⟨3⟩ support entered branch⟩

/-- After the strand has gone on, two edges from one node have a support. -/
theorem two_branches_junction :
    junctionDecl.compile = .ok junctionEngine.chart ∧ junctionEngine.chart.CallsNothing ∧
      junctionEngine.Reaches (Operation.Forward junctionEngine) ∅ junctionKnown ∧
      (∃ report, junctionEngine.settle ["p"] junctionKnown = .ok report junctionSession) ∧
      ¬∀ node, ∀ first ∈ junctionEngine.chart.outgoing node,
        ∀ second ∈ junctionEngine.chart.outgoing node,
          (∃ target, junctionSession.activation.holdsEdge target first = true) →
            (∃ target, junctionSession.activation.holdsEdge target second = true) →
              first = second := by
  refine ⟨junctionDecl.compile_of_isOk (by decide +kernel), by decide +kernel, reaches_junction,
    Operation.exists_report_of_succeeds succeeds_junction, fun one => ?_⟩
  have same := one ⟨0⟩ ⟨0⟩ (by decide +kernel) ⟨1⟩ (by decide +kernel) ⟨⟨2⟩, by decide +kernel⟩
    ⟨⟨3⟩, by decide +kernel⟩
  cases same

end Flowchart
