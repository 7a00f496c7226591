import Flowchart.Proofs.Change.Deed
import Flowchart.Proofs.Session
import Mathlib.Data.List.SplitBy

/-!
The turn of a strand as changes: its collapse is one change, and each edge that it follows after that
is another.
-/
namespace Flowchart

variable {σ α β : Type}

/-- How the undoing of entries ends: with the entries kept that are to be kept, or with one of the
others still there because its action was refused. -/
def Unwinds (engine : Engine σ) (id : StrandId) (marks : List (Entry × Bool)) (session : Session σ)
    (kept : List (Entry × Bool)) : EStateM.Result Fault (Session σ) α → Prop
  | .ok _ after => Relation.ReflTransGen (Undoes engine id) (marks, session) (kept, after)
  | .error _ after =>
    ∃ before entry rest now left,
      Relation.ReflTransGen (Undoes engine id) (marks, session) (before ++ (entry, false) :: rest, now) ∧
      Refuses engine entry.node .revert (now.removeSupport entry.node entry.support.id) left ∧
      after = left.leaveFootprint (.acted entry.node .revert false)

namespace Unwinds

variable {engine : Engine σ} {id : StrandId} {marks between kept : List (Entry × Bool)}
  {session : Session σ}

theorem trans {now : Session σ} {result : EStateM.Result Fault (Session σ) α}
    (first : Relation.ReflTransGen (Undoes engine id) (marks, session) (between, now))
    (rest : Unwinds engine id between now kept result) :
    Unwinds engine id marks session kept result := by
  cases result with
  | ok a after => exact Relation.ReflTransGen.trans first rest
  | error fault after =>
      obtain ⟨before, entry, later, last, left, steps, refused⟩ := rest
      exact ⟨before, entry, later, last, left, first.trans steps, refused⟩

theorem bind {x : SessionM σ α} {f : α → SessionM σ β}
    (first : Unwinds engine id marks session between (x session))
    (rest : ∀ a now, Unwinds engine id between now kept (f a now)) :
    Unwinds engine id marks session kept ((x >>= f) session) := by
  cases ran : x session with
  | ok a now =>
      rw [ran] at first
      rw [SessionM.bind_of_ok ran]
      exact trans first (rest a now)
  | error fault now =>
      rw [ran] at first
      rw [SessionM.bind_of_error ran]
      exact first

end Unwinds

/-- Neighbours with one verdict make a run with one verdict. -/
theorem exists_verdict_of_isChain {run : List (Entry × Bool)}
    (chain : run.IsChain fun a b => (a.2 == b.2) = true) :
    ∃ verdict, ∀ mark ∈ run, mark.2 = verdict := by
  induction run with
  | nil => exact ⟨true, fun _ mem => by cases mem⟩
  | cons first rest ih =>
      cases rest with
      | nil => exact ⟨first.2, fun mark mem => by rw [List.mem_singleton.1 mem]⟩
      | cons second rest =>
          rw [List.isChain_cons_cons, beq_iff_eq] at chain
          obtain ⟨verdict, same⟩ := ih chain.2
          refine ⟨verdict, List.forall_mem_cons.2 ⟨?_, same⟩⟩
          exact chain.1.trans (same second (List.mem_cons_self ..))

namespace Engine

theorem undoRun_unwinds (engine : Engine σ) (id : StrandId) (before after : List (Entry × Bool))
    (latest : List Entry) (session : Session σ) :
    Unwinds engine id (before ++ latest.reverse.map (·, false) ++ after) session (before ++ after)
      (engine.undoRun id (before.map Prod.fst) (after.map Prod.fst) latest session) := by
  induction latest generalizing session with
  | nil =>
      rw [List.reverse_nil, List.map_nil, List.append_nil]
      exact Relation.ReflTransGen.refl
  | cons entry earlier ih =>
      have marked : before ++ (entry :: earlier).reverse.map (·, false) ++ after =
          (before ++ earlier.reverse.map (·, false)) ++ (entry, false) :: after := by simp
      have taken : (modify fun session => session.removeSupport entry.node entry.support.id :
          SessionM σ PUnit) session =
        .ok ⟨⟩ (session.removeSupport entry.node entry.support.id) := rfl
      rw [marked, undoRun, SessionM.bind_of_ok taken]
      rcases revert_cases engine entry.node (session.removeSupport entry.node entry.support.id) with
        ⟨reverted, reverts, ran⟩ | ⟨left, fault, refuses, ran⟩
      · rw [SessionM.bind_of_ok ran]
        refine .trans (.single (.entry reverts)) ?_
        have listed : before.map Prod.fst ++ earlier.reverse ++ after.map Prod.fst =
            (before ++ earlier.reverse.map (·, false) ++ after).map Prod.fst := by
          simp [Function.comp_def]
        rw [listed]
        exact ih _
      · rw [SessionM.bind_of_error ran]
        exact ⟨_, entry, after, session, left, .refl, refuses, rfl⟩

theorem undoRuns_unwinds (engine : Engine σ) (id : StrandId) (before : List (Entry × Bool))
    (runs : List (List (Entry × Bool)))
    (alike : ∀ run ∈ runs, ∃ verdict, ∀ mark ∈ run, mark.2 = verdict) (session : Session σ) :
    Unwinds engine id (before ++ runs.flatten) session (before ++ runs.flatten.filter Prod.snd)
      (engine.undoRuns id (before.map Prod.fst) runs session) := by
  induction runs generalizing before session with
  | nil => exact Relation.ReflTransGen.refl
  | cons run rest ih =>
      rw [List.forall_mem_cons] at alike
      obtain ⟨⟨verdict, same⟩, others⟩ := alike
      rw [undoRuns, List.flatten_cons, List.filter_append]
      cases verdict with
      | true =>
          have kept : run.filter Prod.snd = run := List.filter_eq_self.2 same
          rw [if_pos (List.all_eq_true.2 same), kept, ← List.append_assoc, ← List.append_assoc,
            ← List.map_append]
          exact ih _ others session
      | false =>
          have dropped : run.filter Prod.snd = [] :=
            List.filter_eq_nil_iff.2 fun mark mem => by simp [same mark mem]
          have marked : (run.map Prod.fst).reverse.reverse.map (·, false) = run := by
            rw [List.reverse_reverse, List.map_map]
            refine Eq.trans (List.map_congr_left fun mark mem => ?_) (List.map_id run)
            exact Prod.ext rfl (same mark mem).symm
          rw [dropped, List.nil_append]
          split
          · rename_i nothing
            have empty : run = [] := List.eq_nil_iff_forall_not_mem.2 fun mark mem => by
              simpa [same mark mem] using List.all_eq_true.1 nothing mark mem
            rw [empty, List.map_nil, List.append_nil, List.nil_append]
            exact ih _ others session
          · have undone := undoRun_unwinds engine id before rest.flatten
              (run.map Prod.fst).reverse session
            rw [marked, List.append_assoc] at undone
            exact undone.bind fun _ now => ih _ others now

/-- A collapse either undoes all entries that were found inactive, or breaks off at one of them. -/
theorem collapse_cases (engine : Engine σ) (id : StrandId) (session : Session σ) :
    (∃ kept after, Collapsing engine id session (kept, after) ∧ (∀ mark ∈ kept, mark.2 = true) ∧
      engine.collapse id session =
        .ok ((session.verdicts engine.chart id).any fun mark => !mark.2) after) ∨
    (∃ before entry rest now left fault,
      Collapsing engine id session (before ++ (entry, false) :: rest, now) ∧
      Refuses engine entry.node .revert (now.removeSupport entry.node entry.support.id) left ∧
      engine.collapse id session =
        .error fault (left.leaveFootprint (.acted entry.node .revert false))) := by
  have alike : ∀ run ∈ (session.verdicts engine.chart id).splitBy fun a b => a.2 == b.2,
      ∃ verdict, ∀ mark ∈ run, mark.2 = verdict :=
    fun run mem => exists_verdict_of_isChain (List.isChain_of_mem_splitBy mem)
  have unwinds := undoRuns_unwinds engine id [] _ alike (session.swept engine.chart id)
  have read : engine.collapse id session =
      (engine.undoRuns id [] ((session.verdicts engine.chart id).splitBy fun a b => a.2 == b.2) >>=
        fun _ => pure ((session.verdicts engine.chart id).any fun mark => !mark.2))
        (session.swept engine.chart id) := rfl
  rw [List.flatten_splitBy, List.nil_append, List.nil_append, List.map_nil] at unwinds
  cases ran : engine.undoRuns id []
      ((session.verdicts engine.chart id).splitBy fun a b => a.2 == b.2)
      (session.swept engine.chart id) with
  | ok u after =>
      rw [ran] at unwinds
      refine .inl ⟨_, after, unwinds, fun mark mem => (List.mem_filter.1 mem).2, ?_⟩
      rw [read, SessionM.bind_of_ok ran]
      rfl
  | error fault after =>
      rw [ran] at unwinds
      obtain ⟨before, entry, rest, now, left, steps, refuses, rfl⟩ := unwinds
      refine .inr ⟨before, entry, rest, now, left, fault, steps, refuses, ?_⟩
      rw [read, SessionM.bind_of_error ran]

/-- The edge that a strand follows next leaves its frontier and is satisfied. -/
theorem nextEdge?_eq_some {engine : Engine σ} {id : StrandId} {session : Session σ} {ref : EdgeRef}
    {edge : Edge} (next : engine.nextEdge? session id = some (ref, edge)) :
    ∃ strand frontier, session.strands.get? id = some strand ∧ strand.frontier? = some frontier ∧
      ref ∈ engine.chart.outgoing frontier ∧ engine.chart.edge? ref = some edge ∧
      (Condition.evalGuard session.facts edge.condition).isSatisfied = true := by
  unfold nextEdge? at next
  simp only [Option.bind_eq_bind, Option.bind_eq_some_iff] at next
  obtain ⟨strand, found, frontier, last, next⟩ := next
  refine ⟨strand, frontier, found, last, ?_⟩
  split at next
  · cases next
  · obtain ⟨other, leaves, chosen⟩ := List.exists_of_findSome?_eq_some next
    obtain ⟨candidate, resolved, chosen⟩ := Option.bind_eq_some_iff.1 chosen
    split at chosen
    · cases chosen
      exact ⟨leaves, resolved, ‹_›⟩
    · cases chosen

theorem merge_cases (ref : EdgeRef) (target : NodeRef) (session : Session σ) :
    (session.activation.holdsEdge target ref = true ∧
      merge ref target session = .ok (.merged false) session) ∨
    (session.activation.holdsEdge target ref = false ∧
      merge ref target session = .ok (.merged true) (session.merging ref target)) := by
  have read : merge ref target session = (if session.activation.holdsEdge target ref then
      pure (.merged false) else do
        let support ← SessionM.mint (.edge ref)
        modify fun session => session.addSupport target support
        return .merged true : SessionM σ Step) session := rfl
  cases held : session.activation.holdsEdge target ref with
  | true =>
      rw [read, if_pos held]
      exact .inl ⟨rfl, rfl⟩
  | false =>
      rw [read, if_neg (Bool.eq_false_iff.1 held)]
      exact .inr ⟨rfl, rfl⟩

theorem join_cases (engine : Engine σ) (id : StrandId) (ref : EdgeRef) (target : NodeRef)
    (session : Session σ) :
    (∃ after, Performs engine target (session.joining id ref target) after ∧
      engine.join id ref target session =
        .ok .joined (after.leaveFootprint (.acted target .perform true))) ∨
    (∃ after fault, Refuses engine target .perform (session.joining id ref target) after ∧
      engine.join id ref target session = .error fault
        ((after.leaveFootprint (.acted target .perform false)).parting session id target)) := by
  have joined : engine.join id ref target session =
      ((engine.perform target).onFault (fun acted => acted.parting session id target) >>=
        fun _ => pure .joined) (session.joining id ref target) := rfl
  rcases perform_cases engine target (session.joining id ref target) with
    ⟨after, performs, ran⟩ | ⟨after, fault, refuses, ran⟩
  · refine .inl ⟨after, performs, ?_⟩
    rw [joined, SessionM.bind_of_ok (SessionM.onFault_of_ok ran)]
    rfl
  · refine .inr ⟨after, fault, refuses, ?_⟩
    rw [joined, SessionM.bind_of_error (SessionM.onFault_of_error ran)]

/-- An edge from the frontier leads to an active target, which has its support already or gets it
now, or to an inactive one, which joins the strand or is refused. -/
theorem follow_cases (engine : Engine σ) (id : StrandId) (ref : EdgeRef) (edge : Edge)
    (session : Session σ) :
    (session.isActive edge.target = true ∧ session.activation.holdsEdge edge.target ref = true ∧
      engine.follow id ref edge session = .ok (.merged false) session) ∨
    (session.isActive edge.target = true ∧ session.activation.holdsEdge edge.target ref = false ∧
      engine.follow id ref edge session = .ok (.merged true) (session.merging ref edge.target)) ∨
    (session.isActive edge.target = false ∧
      ∃ after, Performs engine edge.target (session.joining id ref edge.target) after ∧
        engine.follow id ref edge session =
          .ok .joined (after.leaveFootprint (.acted edge.target .perform true))) ∨
    (session.isActive edge.target = false ∧
      ∃ after fault, Refuses engine edge.target .perform (session.joining id ref edge.target) after ∧
        engine.follow id ref edge session = .error fault
          ((after.leaveFootprint (.acted edge.target .perform false)).parting session id edge.target)) := by
  have read : engine.follow id ref edge session =
      (if session.isActive edge.target then merge ref edge.target
        else engine.join id ref edge.target) session := rfl
  cases active : session.isActive edge.target with
  | true =>
      rw [read, if_pos active]
      rcases merge_cases ref edge.target session with ⟨held, ran⟩ | ⟨lacks, ran⟩
      · exact .inl ⟨rfl, held, ran⟩
      · exact .inr (.inl ⟨rfl, lacks, ran⟩)
  | false =>
      rw [read, if_neg (Bool.eq_false_iff.1 active)]
      rcases join_cases engine id ref edge.target session with joined | refused
      · exact .inr (.inr (.inl ⟨rfl, joined⟩))
      · exact .inr (.inr (.inr ⟨rfl, refused⟩))

theorem checkLimit_cases (loop : Loop) (limit : Option UInt64) (wanted : Nat) (session : Session σ) :
    SessionM.checkLimit loop limit wanted session = .ok () session ∨
      ∃ fault, SessionM.checkLimit loop limit wanted session = .error fault session := by
  cases limit with
  | none => exact .inl rfl
  | some bound =>
      by_cases beyond : bound.toNat < wanted
      · exact .inr ⟨.limit loop bound, by simp only [SessionM.checkLimit, if_pos beyond]; rfl⟩
      · exact .inl (by simp only [SessionM.checkLimit, if_neg beyond]; rfl)

/-- How one step of an extension goes: the strand has to wait, is over its limit, merges, or lets the
target of an edge join and goes on from there. -/
theorem extend_cases (engine : Engine σ) (id : StrandId) (fuel steps : Nat) (session : Session σ) :
    (engine.nextEdge? session id = none ∧
      engine.extend id (fuel + 1) steps session = .ok false session) ∨
    (∃ fault, engine.extend id (fuel + 1) steps session = .error fault session) ∨
    ∃ ref edge, engine.nextEdge? session id = some (ref, edge) ∧
      ((session.isActive edge.target = true ∧ session.activation.holdsEdge edge.target ref = true ∧
        engine.extend id (fuel + 1) steps session = .ok false session) ∨
      (session.isActive edge.target = true ∧ session.activation.holdsEdge edge.target ref = false ∧
        engine.extend id (fuel + 1) steps session = .ok true (session.merging ref edge.target)) ∨
      (session.isActive edge.target = false ∧
        ∃ after, Performs engine edge.target (session.joining id ref edge.target) after ∧
          engine.extend id (fuel + 1) steps session =
            (engine.extend id fuel (steps + 1) >>= fun _ => pure true)
              (after.leaveFootprint (.acted edge.target .perform true))) ∨
      (session.isActive edge.target = false ∧
        ∃ after fault, Refuses engine edge.target .perform (session.joining id ref edge.target) after ∧
          engine.extend id (fuel + 1) steps session = .error fault
            ((after.leaveFootprint (.acted edge.target .perform false)).parting session id
              edge.target))) := by
  have got : (get : SessionM σ (Session σ)) session = .ok session session := rfl
  rw [extend, SessionM.bind_of_ok got]
  cases next : engine.nextEdge? session id with
  | none => exact .inl ⟨rfl, rfl⟩
  | some selected =>
      obtain ⟨ref, edge⟩ := selected
      rcases checkLimit_cases .flowSteps engine.config.maxFlowSteps (steps + 1) session with
        passed | ⟨fault, beyond⟩
      · refine .inr (.inr ⟨ref, edge, rfl, ?_⟩)
        simp only [SessionM.bind_of_ok passed]
        rcases follow_cases engine id ref edge session with
          ⟨active, held, ran⟩ | ⟨active, lacks, ran⟩ | ⟨idle, after, performs, ran⟩ |
          ⟨idle, after, fault, refuses, ran⟩
        · exact .inl ⟨active, held, SessionM.bind_of_ok ran⟩
        · exact .inr (.inl ⟨active, lacks, SessionM.bind_of_ok ran⟩)
        · exact .inr (.inr (.inl ⟨idle, after, performs, SessionM.bind_of_ok ran⟩))
        · exact .inr (.inr (.inr ⟨idle, after, fault, refuses, SessionM.bind_of_error ran⟩))
      · exact .inr (.inl ⟨fault, SessionM.bind_of_error beyond⟩)

theorem extend_follows (engine : Engine σ) (id : StrandId) (fuel steps : Nat) (session : Session σ) :
    Follows engine (Move engine) session (engine.extend id fuel steps session) := by
  induction fuel generalizing steps session with
  | zero => exact .refused (.unfinished .flowSteps)
  | succ fuel ih =>
      rcases extend_cases engine id fuel steps session with
        ⟨-, ran⟩ | ⟨fault, ran⟩ | ⟨ref, edge, next, ⟨-, -, ran⟩ | ⟨active, lacks, ran⟩ |
          ⟨idle, after, performs, ran⟩ | ⟨idle, after, fault, refuses, ran⟩⟩
      · rw [ran]
        exact .done false
      · rw [ran]
        exact .refused fault
      · rw [ran]
        exact .done false
      · rw [ran]
        exact .trans (.single (.merged next active lacks)) (.done true)
      · rw [ran]
        exact .trans (.single (.joined next idle performs))
          (.bind (ih (steps + 1) _) fun _ _ _ => .done true)
      · rw [ran]
        exact ⟨session, .refl, .inr (.join next idle refuses)⟩

end Engine

theorem Session.tidy_of_ne_nil {session : Session σ} {id : StrandId} (filled : session.entries id ≠ []) :
    session.tidy id = session := by
  simp [Session.tidy, filled]

theorem Session.entries_openStrand (session : Session σ) (node : NodeRef) (kind : NodeKind)
    (support : Support) (id : StrandId) :
    (session.openStrand node kind support).entries id =
      if (⟨session.strandCount + 1⟩ : StrandId) = id then [⟨node, support⟩]
      else session.entries id := by
  have arrived : ({ session with strandCount := session.strandCount + 1 }.arriveAt node kind).entries id =
      session.entries id := by
    unfold Session.arriveAt
    split <;> rfl
  rw [Session.openStrand, Session.entries_putStrand, arrived]

/-- An action never empties a strand. -/
theorem Performs.entries_ne_nil {engine : Engine σ} {node : NodeRef} {id : StrandId}
    {session after : Session σ} (performs : Performs engine node session after)
    (filled : session.entries id ≠ []) : after.entries id ≠ [] := by
  cases performs with
  | started | idled | reached | assigned => exact filled
  | invoked reacts =>
      obtain ⟨facts, host, rfl⟩ := reacts.exists_eq
      exact filled
  | @called called origin _ _ _ =>
      have opened := Session.entries_openStrand
        (session.countSupport.addSupport called (session.nextSupport (.caller node))) called origin
        (session.nextSupport (.caller node)) id
      intro empty
      refine absurd (opened.symm.trans empty) ?_
      split
      · exact List.cons_ne_nil _ _
      · exact filled

namespace Engine

variable {engine : Engine σ}

theorem extend_of_empty {id : StrandId} {session : Session σ} (empty : session.entries id = [])
    (fuel steps : Nat) : engine.extend id (fuel + 1) steps session = .ok false session := by
  have got : (get : SessionM σ (Session σ)) session = .ok session session := rfl
  have stuck : engine.nextEdge? session id = none := by
    unfold nextEdge?
    cases found : session.strands.get? id with
    | none => rfl
    | some strand =>
        have bare : strand.entries = [] := by simpa [Session.entries, found] using empty
        simp [Strand.frontier?, Strand.nodes, bare]
  rw [extend, SessionM.bind_of_ok got, stuck]
  rfl

theorem entries_ne_nil_of_extend {id : StrandId} {fuel steps : Nat} {session after : Session σ}
    {changed : Bool} (filled : session.entries id ≠ [])
    (run : engine.extend id fuel steps session = .ok changed after) : after.entries id ≠ [] := by
  induction fuel generalizing steps session changed with
  | zero => cases run
  | succ fuel ih =>
      rcases extend_cases engine id fuel steps session with
        ⟨-, ran⟩ | ⟨fault, ran⟩ | ⟨ref, edge, -, ⟨-, -, ran⟩ | ⟨-, -, ran⟩ | ⟨-, acted, performs, ran⟩ |
          ⟨-, left, fault, -, ran⟩⟩
      · cases ran.symm.trans run
        exact filled
      · cases ran.symm.trans run
      · cases ran.symm.trans run
        exact filled
      · cases ran.symm.trans run
        exact filled
      · obtain ⟨later, last, extended, rest⟩ := SessionM.bind_eq_ok.1 (ran.symm.trans run)
        cases rest
        have joined : (session.joining id ref edge.target).entries id ≠ [] := by
          rw [Session.joining, Session.entries_putStrand, if_pos rfl]
          exact List.append_ne_nil_of_right_ne_nil _ (List.cons_ne_nil _ _)
        have acting : (acted.leaveFootprint (.acted edge.target .perform true)).entries id ≠ [] :=
          performs.entries_ne_nil joined
        exact ih acting extended
      · cases ran.symm.trans run

theorem dropIfEmpty_eq (id : StrandId) (session : Session σ) :
    SessionM.dropIfEmpty id session = .ok (session.entries id).isEmpty (session.tidy id) := by
  have read : SessionM.dropIfEmpty id session =
      match if (session.entries id).isEmpty then (true, session.dropStrand id) else (false, session) with
      | (dropped, after) => .ok dropped after := rfl
  rw [read, Session.tidy]
  cases (session.entries id).isEmpty with
  | true | false => rfl

/-- A strand has its turn: it is collapsed, dropped if nothing is left of it, and else extended. -/
theorem advance_follows (engine : Engine σ) {id : StrandId} {session : Session σ}
    (live : session.strands.contains id = true) :
    match engine.advance id session with
    | .ok _ after => Relation.ReflTransGen (Move engine) session (after.tidy id)
    | .error fault after => Follows engine (Move engine) session
        (.error fault after : EStateM.Result Fault (Session σ) Unit) := by
  unfold advance
  rcases collapse_cases engine id session with
    ⟨kept, between, collapsing, settled, ran⟩ | ⟨before, entry, rest, now, left, fault, collapsing, refuses, ran⟩
  · have collapsed : Relation.ReflTransGen (Move engine) session (between.tidy id) :=
      .single (.collapsed live collapsing settled)
    rw [SessionM.bind_of_ok ran]
    by_cases empty : between.entries id = []
    · rw [SessionM.bind_of_ok (extend_of_empty empty _ 0)]
      exact collapsed
    · rw [Session.tidy_of_ne_nil empty] at collapsed
      have extended := extend_follows engine id (engine.chart.nodes.length + 1) 0 between
      cases ran : engine.extend id (engine.chart.nodes.length + 1) 0 between with
      | ok changed after =>
          rw [SessionM.bind_of_ok ran]
          have still := Session.tidy_of_ne_nil (entries_ne_nil_of_extend empty ran)
          rw [ran] at extended
          show Relation.ReflTransGen (Move engine) session (after.tidy id)
          rw [still]
          exact collapsed.trans extended
      | error fault after =>
          rw [SessionM.bind_of_error ran]
          rw [ran] at extended
          exact .trans collapsed extended
  · rw [SessionM.bind_of_error ran]
    exact ⟨session, .refl, .inr (.collapse live collapsing refuses)⟩

theorem moves_of_advance {id : StrandId} {session after : Session σ} {changed : Bool}
    (live : session.strands.contains id = true) (run : engine.advance id session = .ok changed after) :
    Relation.ReflTransGen (Move engine) session (after.tidy id) := by
  have follows := advance_follows engine live
  rw [run] at follows
  exact follows

end Engine

end Flowchart
