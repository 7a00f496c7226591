import Flowchart.Proofs.Triggers

/-!
What a strand stands on when it goes on. A sweep judges the entries of a strand before any of them is
undone. So a collapse can leave an entry whose node is inactive after all: its node was swept a second
time and then found inactive, or its last support came from a call, and the composed node that made the
call has just been undone in the same strand. Where it leaves none of these, the strand goes on from
active nodes alone, and whatever joins it has a support that holds when its action runs.
-/
namespace Flowchart

variable {σ : Type} {engine : Engine σ} {chart : Chart} {decl : ChartDecl}

/-- The nodes of all entries of the strand are active. -/
def Session.Footed (id : StrandId) (session : Session σ) : Prop :=
  ∀ entry ∈ session.entries id, session.isActive entry.node = true

/-- The edge that the strand follows next leaves an active node, and if its target joins, the support
that it joins with holds when its action runs. -/
def Session.Firm (engine : Engine σ) (id : StrandId) (session : Session σ) : Prop :=
  ∀ ref edge, engine.nextEdge? session id = some (ref, edge) →
    session.isActive edge.source = true ∧
      (Basis.edge ref).holds engine.chart session.facts
        (session.joining id ref edge.target).activation = true

/-- A composed node among the entries that were found inactive has called the node. -/
def Session.Recalled (chart : Chart) (id : StrandId) (session : Session σ) (node : NodeRef) : Prop :=
  ∃ caller number, (caller, false) ∈ session.verdicts chart id ∧
    session.calls.at? caller.node = some (node, number)

/-- A sweep leaves no node inactive that was active, unless it has found so. -/
theorem isActive_or_mem_false {facts : Facts} {table : Activation} {entries : List Entry}
    {node : NodeRef} (active : table.isActive node = true) :
    (sweepEntries chart facts table entries).2.isActive node = true ∨
      ∃ entry, (entry, false) ∈ (sweepEntries chart facts table entries).1 ∧ entry.node = node := by
  induction entries generalizing table with
  | nil => exact .inl active
  | cons first rest ih =>
      rw [sweepEntries_cons]
      cases still : (table.sweep chart facts first.node).isActive node with
      | true =>
          rcases ih still with final | ⟨entry, mem, same⟩
          · exact .inl final
          · exact .inr ⟨entry, List.mem_cons_of_mem _ mem, same⟩
      | false =>
          obtain ⟨support, held⟩ := Activation.isActive_iff.1 active
          have swept : first.node = node := by
            by_contra apart
            exact Activation.isActive_eq_false_iff.1 still support
              (Activation.mem_sweep.2 ⟨held, fun same => absurd same apart⟩)
          subst swept
          rw [still]
          exact .inr ⟨first, List.mem_cons_self .., rfl⟩

section Collapse

variable {session after : Session σ} {id : StrandId} {node : NodeRef}

/-- Undoing an entry takes no support from a node but that of the call it has made. -/
theorem Reverts.active_or_called {acted : NodeRef} {number : SupportId}
    (idle : session.isActive acted = false)
    (reverts : Reverts engine acted (session.removeSupport acted number) after)
    (active : session.isActive node = true) :
    after.isActive node = true ∨ ∃ id, session.calls.at? acted = some (node, id) := by
  obtain ⟨support, held⟩ := Activation.isActive_iff.1 active
  have still := (Session.mem_removeSupport_of_idle idle number node support).2 held
  rcases reverts.eq_endCall_or with ⟨called, -, rfl⟩ | ⟨-, -, activation⟩
  · by_cases ended : session.calls.at? acted = some (node, support.id)
    · exact .inr ⟨_, ended⟩
    · exact .inl (Activation.isActive_iff.2 ⟨support, Session.mem_endCall.2 ⟨still, ended⟩⟩)
  · exact .inl (Activation.isActive_iff.2 ⟨support, activation ▸ still⟩)

/-- What is active after the sweep stays so until a call of it is ended. -/
theorem Collapsing.active_or_recalled {now : List (Entry × Bool) × Session σ}
    (collapsing : Collapsing engine id session now) (inv : session.Orderly engine)
    (live : session.strands.contains id = true)
    (active : (session.swept engine.chart id).isActive node = true) :
    now.2.isActive node = true ∨ session.Recalled engine.chart id node := by
  induction collapsing with
  | refl => exact .inl active
  | @tail now next first step ih =>
      cases step with
      | @entry before rest entry now reverted reverts =>
          have marked : (entry, false) ∈ before ++ (entry, false) :: rest :=
            List.mem_append_right _ (List.mem_cons_self ..)
          -- The node of a marked entry has no support left to lose, so only the end of its call counts.
          have idle := (Session.Underway.collapsing inv live first).idle entry marked
          rcases ih with still | recalled
          · rcases reverts.active_or_called idle still with kept | ⟨number, called⟩
            · exact .inl kept
            · exact .inr ⟨entry, number, (Collapsing.leaves first).1 _ marked,
                Collapsing.recorded first called⟩
          · exact .inr recalled

end Collapse

section Extend

variable {session acted : Session σ} {id : StrandId}

theorem Session.Footed.firm (footed : session.Footed id) (compiled : decl.compile = .ok engine.chart) :
    session.Firm engine id := by
  intro ref edge next
  obtain ⟨strand, frontier, -, -, -, known, satisfied⟩ := engine.nextEdge?_eq_some next
  obtain ⟨entry, mem, source⟩ := engine.exists_source_of_nextEdge? compiled next
  have active : session.isActive edge.source = true := source ▸ footed entry mem
  refine ⟨active, (Option.any_eq_true _ _).2 ⟨edge, known, ?_⟩⟩
  have joined := session.isActive_joining id ref edge.target edge.source
  rw [active, Bool.or_true] at joined
  exact Bool.and_eq_true_iff.2 ⟨joined, satisfied⟩

/-- A strand that a call opens begins with the node that it makes active. -/
theorem Performs.footed {node : NodeRef} (performs : Performs engine node session acted)
    (footed : session.Footed id) : acted.Footed id := by
  intro entry mem
  rcases performs.eq_calling_or with ⟨called, origin, -, -, -, rfl⟩ | ⟨-, -, activation, strands⟩
  · have opened := Session.entries_openStrand
      (session.countSupport.addSupport called (session.nextSupport (.caller node))) called origin
      (session.nextSupport (.caller node)) id
    rw [Session.isActive_calling, Bool.or_eq_true, decide_eq_true_eq]
    have listed : entry ∈ if (⟨session.strandCount + 1⟩ : StrandId) = id then
        [⟨called, session.nextSupport (.caller node)⟩] else session.entries id := opened ▸ mem
    split at listed
    · rw [List.mem_singleton.1 listed]
      exact .inl rfl
    · exact .inr (footed entry listed)
  · rw [Session.isActive, activation]
    rw [Session.entries, strands] at mem
    exact footed entry mem

/-- A node that joins is active, and so are the nodes that were there before. -/
theorem Session.Footed.joining (footed : session.Footed id) (ref : EdgeRef) (target : NodeRef) :
    (session.joining id ref target).Footed id := by
  intro entry mem
  rw [Session.joining, Session.entries_putStrand, if_pos rfl] at mem
  rw [Session.isActive_joining, Bool.or_eq_true, decide_eq_true_eq]
  rcases List.mem_append.1 mem with early | here
  · exact .inr (footed entry early)
  · rw [List.mem_singleton.1 here]
    exact .inl rfl

theorem Session.Footed.merging (footed : session.Footed id) (ref : EdgeRef) (target : NodeRef) :
    (session.merging ref target).Footed id := by
  intro entry mem
  have merged := session.activation.isActive_add target entry.node (session.nextSupport (.edge ref))
  rw [Session.isActive, Session.merging]
  exact merged.trans (Bool.or_eq_true_iff.2 (.inr (footed entry mem)))

/-- A strand that stands on active nodes goes on standing on active nodes. -/
theorem Session.Footed.extend (footed : session.Footed id) (compiled : decl.compile = .ok engine.chart)
    (fuel steps : Nat) :
    Follows engine
      (fun before later => Move engine before later ∧ later.Footed id ∧ later.Firm engine id)
      session (engine.extend id fuel steps session) := by
  induction fuel generalizing steps session with
  | zero => exact .refused (.unfinished .flowSteps)
  | succ fuel ih =>
      rcases engine.extend_cases id fuel steps session with
        ⟨-, ran⟩ | ⟨fault, ran⟩ | ⟨ref, edge, next, ⟨-, -, ran⟩ | ⟨active, lacks, ran⟩ |
          ⟨idle, acted, performs, ran⟩ | ⟨idle, acted, fault, refuses, ran⟩⟩
      · rw [ran]
        exact .done false
      · rw [ran]
        exact .refused fault
      · rw [ran]
        exact .done false
      · have merged := footed.merging ref edge.target
        rw [ran]
        exact .trans (.single ⟨.merged next active lacks, merged, merged.firm compiled⟩) (.done true)
      · have joined : (acted.leaveFootprint (.acted edge.target .perform true)).Footed id :=
          performs.footed (footed.joining ref edge.target)
        rw [ran]
        exact .trans (.single ⟨.joined next idle performs, joined, joined.firm compiled⟩)
          (.bind (ih joined (steps + 1)) fun _ _ _ => .done true)
      · rw [ran]
        exact ⟨session, .refl, .inr (.join next idle refuses)⟩

end Extend

/-- Wherever a settling has come to, a strand that has been collapsed has entries with active nodes, but
for nodes that were found inactive a second time or called by a composed node that the collapse has
undone. Without such an entry it goes on from active nodes, and all that joins it has a support that
holds when its action runs, whether the action succeeds or is refused. -/
theorem Engine.Reaches.footing (compiled : decl.compile = .ok engine.chart)
    {permits : Session σ → Operation σ → Prop} {facts : Facts} {start session after : Session σ}
    (reached : engine.Reaches permits facts start) (changes : Changes engine .all start session)
    {id : StrandId} (live : session.strands.contains id = true) {changed : Bool}
    (collapsed : engine.collapse id session = .ok changed after) :
    (∀ entry ∈ after.entries id, after.isActive entry.node = true ∨
      session.Recalled engine.chart id entry.node ∨
      ∃ twin, (twin, false) ∈ session.verdicts engine.chart id ∧ twin.node = entry.node) ∧
    (after.Footed id → after.Firm engine id ∧ ∀ fuel steps,
      Follows engine
        (fun before later => Move engine before later ∧ later.Footed id ∧ later.Firm engine id)
        after (engine.extend id fuel steps after)) := by
  have inv := reached.orderly.changes changes
  refine ⟨?_, fun footed => ⟨footed.firm compiled, footed.extend compiled⟩⟩
  rcases engine.collapse_cases id session with
    ⟨kept, last, collapsing, settled, ran⟩ | ⟨before, entry, rest, now, left, fault, -, -, ran⟩
  · cases ran.symm.trans collapsed
    intro entry mem
    rw [(Session.Underway.collapsing inv live collapsing).listed] at mem
    obtain ⟨⟨entry, verdict⟩, marked, rfl⟩ := List.mem_map.1 mem
    cases settled _ marked
    have judged := collapsing.leaves.1 _ marked
    rcases isActive_or_mem_false (isActive_of_mem_true judged) with active | twin
    · exact (collapsing.active_or_recalled inv live active).imp_right .inl
    · exact .inr (.inr twin)
  · cases ran.symm.trans collapsed

/-- The composed node calls the start that its own strand began at, and an edge past it stays open. -/
def returnDecl : ChartDecl :=
  ⟨[((((FlowDecl.named "Main").addStart "S").addComposed "C" "Main" "S").addAction "D" .noop).addEdge
      "S" "C" (some (.known "q")) |>.addEdge "S" "D" none],
    [⟨"go", "Main", "S", .known "q"⟩]⟩

def returnEngine : Engine Unit := .standard returnDecl.chart

/-- The fact that everything rests on has been forgotten. -/
def returnSession : Session Unit :=
  Operation.afterAll returnEngine
    [.rewrite (Facts.put ∅ "q" (some .unknown)) (), .settle ["q"], .rewrite ∅ ()]
    (returnEngine.opened ∅ ())

/-- The start is left in the strand without a support, as its own call was all that kept it active. -/
example : (match returnEngine.collapse ⟨1⟩ returnSession with
    | .ok _ after => (after.entries ⟨1⟩).map Entry.node == [⟨0⟩] && !after.isActive ⟨0⟩
    | .error _ _ => false) = true := by decide +kernel

end Flowchart
