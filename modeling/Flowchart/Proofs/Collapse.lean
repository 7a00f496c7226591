import Flowchart.Proofs.Orderly
import Flowchart.Proofs.Sweep

/-!
What a collapse removes, and in which order. The collapse of a strand can be told by positions: ranges
of positions are found by looking the entries over once, and the entries at these positions, moved back
by as many as were removed before, are undone from the last of a range to its first. So told it never
leaves the strand, and it does what a collapse does: it undoes the entries that were found inactive,
each once, and keeps the others.
-/
namespace Flowchart

variable {σ : Type}

section Positions

/-- A difference of positions; none if it is below zero. -/
def less? (position count : Nat) : Option Nat :=
  if count ≤ position then some (position - count) else none

/-- Looks the entries over from left to right, sweeping the node of each, for the ranges of positions
at which the node is left inactive; `range` is the range that ends just before `position`. The entry
behind a range is looked at twice: once to end the range, and once for itself. -/
def findRanges (chart : Chart) (facts : Facts) :
    Activation → Nat → Option (Nat × Nat) → List Entry → List (Nat × Nat) × Activation
  | table, _, range, [] => (range.toList, table)
  | table, position, none, entry :: rest =>
    let swept := table.sweep chart facts entry.node
    if swept.isActive entry.node then findRanges chart facts swept (position + 1) none rest
    else findRanges chart facts swept (position + 1) (some (position, position)) rest
  | table, position, some (first, last), entry :: rest =>
    let swept := table.sweep chart facts entry.node
    if swept.isActive entry.node then
      let again := swept.sweep chart facts entry.node
      let (later, final) :=
        if again.isActive entry.node then findRanges chart facts again (position + 1) none rest
        else findRanges chart facts again (position + 1) (some (position, position)) rest
      ((first, last) :: later, final)
    else findRanges chart facts swept (position + 1) (some (first, last + 1)) rest

/-- The entries at the given positions, taken out one after the other, each with the entries that are
left without it; none if a position is not one of an entry. -/
def takeOut? (entries : List Entry) : List Nat → Option (List (Entry × List Entry) × List Entry)
  | [] => some ([], entries)
  | position :: rest => do
    let entry ← entries[position]?
    let (taken, left) ← takeOut? (entries.eraseIdx position) rest
    return ((entry, entries.eraseIdx position) :: taken, left)

/-- Takes out the entries of ranges of positions, counted before anything was removed. -/
def takeOutRanges? (entries : List Entry) (removed : Nat) :
    List (Nat × Nat) → Option (List (Entry × List Entry))
  | [] => some []
  | (first, last) :: rest => do
    let first ← less? first removed
    let last ← less? last removed
    let span ← less? last first
    let (taken, left) ← takeOut? entries (List.range' first (span + 1)).reverse
    let later ← takeOutRanges? left (removed + (span + 1)) rest
    return taken ++ later

/-- Undoes entries in the order given and leaves in the strand what is listed with each. -/
def Engine.undoEach (engine : Engine σ) (id : StrandId) : List (Entry × List Entry) → SessionM σ Unit
  | [] => pure ()
  | (entry, left) :: rest => do
    modify fun session => session.removeSupport entry.node entry.support.id
    engine.revert entry.node
    modify fun session => session.putStrand ⟨id, left⟩
    undoEach engine id rest

/-- The collapse of a strand told by positions; none if a position is computed below zero or is not one
of an entry. -/
def Engine.collapseByPosition? (engine : Engine σ) (id : StrandId) (session : Session σ) :
    Option (EStateM.Result Fault (Session σ) Bool) :=
  let entries := session.entries id
  let (ranges, swept) := findRanges engine.chart session.facts session.activation 0 none entries
  (takeOutRanges? entries 0 ranges).map fun steps =>
    (engine.undoEach id steps >>= fun _ => pure !ranges.isEmpty) { session with activation := swept }

end Positions

/-- The entries that a collapse undoes, in its order: from run to run, and within a run backwards. -/
def undoOrder (verdicts : List (Entry × Bool)) : List Entry :=
  (verdicts.splitBy fun a b => a.2 == b.2).flatMap fun run =>
    if run.all Prod.snd then [] else (run.map Prod.fst).reverse

/-- The entries were undone in the order given, each while its node was without supports and the strand
held it; each left the strand to the other entries. -/
inductive Undone (engine : Engine σ) (id : StrandId) : List Entry → Session σ → Session σ → Prop
  | nothing {session : Session σ} : Undone engine id [] session session
  | next {entry : Entry} {rest earlier later : List Entry} {session reverted after : Session σ}
      (listed : session.entries id = earlier ++ entry :: later)
      (idle : session.isActive entry.node = false)
      (ran : engine.revert entry.node (session.removeSupport entry.node entry.support.id) =
        .ok () reverted)
      (others : Undone engine id rest (reverted.putStrand ⟨id, earlier ++ later⟩) after) :
      Undone engine id (entry :: rest) session after

/-- What a collapse comes to in which no undoing fails. -/
structure Collapsed (engine : Engine σ) (id : StrandId) (session : Session σ) (changed : Bool)
    (after : Session σ) : Prop where
  undone : Undone engine id (undoOrder (session.verdicts engine.chart id))
    (session.swept engine.chart id) after
  kept : after.entries id = ((session.verdicts engine.chart id).filter Prod.snd).map Prod.fst
  deeds : after.trail =
    ((undoOrder (session.verdicts engine.chart id)).map fun entry =>
      Footprint.acted entry.node .revert true).reverse ++ session.trail
  changed_iff : changed = true ↔ ∃ verdict ∈ session.verdicts engine.chart id, verdict.2 = false

section Ranges

variable {chart : Chart} {facts : Facts}

/-- The ranges of positions with the verdict `false`; `range` is the one that ends just before
`position`. -/
def rangesOf : Nat → Option (Nat × Nat) → List (Entry × Bool) → List (Nat × Nat)
  | _, range, [] => range.toList
  | position, none, (_, true) :: rest => rangesOf (position + 1) none rest
  | position, none, (_, false) :: rest => rangesOf (position + 1) (some (position, position)) rest
  | position, some range, (_, true) :: rest => range :: rangesOf (position + 1) none rest
  | position, some (first, last), (_, false) :: rest =>
    rangesOf (position + 1) (some (first, last + 1)) rest

/-- The second look at the entry behind a range changes neither the table nor the verdict. -/
theorem findRanges_eq (table : Activation) (position : Nat) (range : Option (Nat × Nat))
    (entries : List Entry) :
    findRanges chart facts table position range entries =
      (rangesOf position range (sweepEntries chart facts table entries).1,
        (sweepEntries chart facts table entries).2) := by
  induction entries generalizing table position range with
  | nil => cases range <;> rfl
  | cons entry rest ih =>
      rw [sweepEntries_cons]
      cases active : (table.sweep chart facts entry.node).isActive entry.node with
      | false =>
          cases range with
          | none => rw [findRanges, active, if_neg Bool.false_ne_true, ih, rangesOf]
          | some range => rw [findRanges, active, if_neg Bool.false_ne_true, ih, rangesOf]
      | true =>
          cases range with
          | none => rw [findRanges, active, if_pos rfl, ih, rangesOf]
          | some range =>
              -- The sweep that ends the range has left what the sweep of the entry itself would leave.
              rw [findRanges]
              simp only [active, if_true, Activation.sweep_sweep, ih, rangesOf]

variable {position : Nat} {run rest : List (Entry × Bool)}

theorem rangesOf_true (same : ∀ mark ∈ run, mark.2 = true) :
    rangesOf position none (run ++ rest) = rangesOf (position + run.length) none rest := by
  induction run generalizing position with
  | nil => rfl
  | cons mark run ih =>
      obtain ⟨entry, verdict⟩ := mark
      obtain ⟨rfl, others⟩ := List.forall_mem_cons.1 same
      rw [List.cons_append, rangesOf, ih others, List.length_cons, Nat.add_right_comm]
      rfl

theorem rangesOf_false {first last : Nat} (same : ∀ mark ∈ run, mark.2 = false) :
    rangesOf position (some (first, last)) (run ++ rest) =
      rangesOf (position + run.length) (some (first, last + run.length)) rest := by
  induction run generalizing position last with
  | nil => rfl
  | cons mark run ih =>
      obtain ⟨entry, verdict⟩ := mark
      obtain ⟨rfl, others⟩ := List.forall_mem_cons.1 same
      rw [List.cons_append, rangesOf, ih others, List.length_cons, Nat.add_right_comm position,
        Nat.add_right_comm last]
      rfl

theorem less?_eq_some {position count left : Nat} (sum : left + count = position) :
    less? position count = some left := by
  rw [less?, if_pos (by omega), ← sum, Nat.add_sub_cancel]

/-- A range ends where a run of the other verdict begins, and at the end of the entries. -/
theorem rangesOf_end {range : Nat × Nat} (ends : ∀ mark, rest.head? = some mark → mark.2 = true) :
    rangesOf position (some range) rest = range :: rangesOf position none rest := by
  cases rest with
  | nil => rfl
  | cons mark rest =>
      obtain ⟨entry, verdict⟩ := mark
      obtain rfl : verdict = true := ends _ rfl
      rw [rangesOf, rangesOf]

/-- A run of inactive entries makes one range. -/
theorem rangesOf_run {mark : Entry × Bool} (same : ∀ other ∈ mark :: run, other.2 = false)
    (ends : ∀ mark, rest.head? = some mark → mark.2 = true) :
    rangesOf position none (mark :: run ++ rest) =
      (position, position + run.length) :: rangesOf (position + (run.length + 1)) none rest := by
  obtain ⟨entry, verdict⟩ := mark
  obtain ⟨rfl, others⟩ := List.forall_mem_cons.1 same
  rw [List.cons_append, rangesOf, rangesOf_false others, rangesOf_end ends, Nat.add_right_comm]
  rfl

theorem isEmpty_rangesOf (position : Nat) (range : Option (Nat × Nat)) (marks : List (Entry × Bool)) :
    (rangesOf position range marks).isEmpty = (range.isNone && marks.all Prod.snd) := by
  induction marks generalizing position range with
  | nil => cases range <;> rfl
  | cons mark rest ih =>
      obtain ⟨entry, verdict⟩ := mark
      cases verdict <;> cases range <;> simp [rangesOf, ih]

end Ranges

section Runs

/-- Runs of one verdict each, the next of the other verdict. -/
structure Alternate (runs : List (List (Entry × Bool))) : Prop where
  filled : [] ∉ runs
  alike : ∀ run ∈ runs, ∃ verdict, ∀ mark ∈ run, mark.2 = verdict
  turns : runs.IsChain fun run next =>
    ∃ filled other, ((run.getLast filled).2 == (next.head other).2) = false

theorem alternate_splitBy (marks : List (Entry × Bool)) :
    Alternate (marks.splitBy fun a b => a.2 == b.2) where
  filled := List.nil_notMem_splitBy _ marks
  alike _ mem := exists_verdict_of_isChain (List.isChain_of_mem_splitBy mem)
  turns := List.isChain_getLast_head_splitBy (fun a b => a.2 == b.2) marks

namespace Alternate

variable {run : List (Entry × Bool)} {rest : List (List (Entry × Bool))}

theorem tail (runs : Alternate (run :: rest)) : Alternate rest where
  filled mem := runs.filled (List.mem_cons_of_mem _ mem)
  alike other mem := runs.alike other (List.mem_cons_of_mem _ mem)
  turns := runs.turns.tail

/-- Since no run is empty, the verdict of a run tells which it is. -/
theorem not_all (runs : Alternate (run :: rest)) (same : ∀ mark ∈ run, mark.2 = false) :
    ¬run.all Prod.snd = true := by
  intro all
  refine runs.filled ?_
  have empty : run = [] := List.eq_nil_iff_forall_not_mem.2 fun mark mem => by
    simpa [same mark mem] using List.all_eq_true.1 all mark mem
  rw [empty]
  exact List.mem_cons_self

/-- Behind a run of inactive entries stands an active one, if any. -/
theorem head (runs : Alternate (run :: rest)) (same : ∀ mark ∈ run, mark.2 = false) :
    ∀ mark, rest.flatten.head? = some mark → mark.2 = true := by
  intro mark first
  cases rest with
  | nil => cases first
  | cons next rest =>
      obtain ⟨⟨filled, more, differ⟩, -⟩ := List.isChain_cons_cons.1 runs.turns
      have here : (next ++ rest.flatten).head? = some (next.head more) := by
        rw [List.head?_append_of_ne_nil _ more, List.head?_eq_some_head more]
      rw [List.flatten_cons, here, Option.some.injEq] at first
      rw [same _ (List.getLast_mem filled), first] at differ
      simpa using differ

end Alternate

/-- The undoing of a run between other entries, step by step; the run is given latest first. -/
def runSteps (before after : List Entry) : List Entry → List (Entry × List Entry)
  | [] => []
  | entry :: earlier => (entry, before ++ earlier.reverse ++ after) :: runSteps before after earlier

/-- The steps of undoing the runs that were found inactive, behind entries that are kept. -/
def undoSteps (before : List Entry) : List (List (Entry × Bool)) → List (Entry × List Entry)
  | [] => []
  | run :: rest =>
    if run.all Prod.snd then undoSteps (before ++ run.map Prod.fst) rest
    else
      runSteps before (rest.flatten.map Prod.fst) (run.map Prod.fst).reverse ++ undoSteps before rest

theorem takeOut?_run (before after latest : List Entry) :
    takeOut? (before ++ latest.reverse ++ after) (List.range' before.length latest.length).reverse =
      some (runSteps before after latest, before ++ after) := by
  induction latest with
  | nil => simp [takeOut?, runSteps]
  | cons entry earlier ih =>
      have places : (List.range' before.length (earlier.length + 1)).reverse =
          (before.length + earlier.length) :: (List.range' before.length earlier.length).reverse := by
        rw [List.range'_1_concat, List.reverse_concat]
      have placed : before ++ (entry :: earlier).reverse ++ after =
          (before ++ earlier.reverse) ++ entry :: after := by simp
      have index : (before ++ earlier.reverse).length = before.length + earlier.length := by simp
      rw [List.length_cons, places, placed, takeOut?, ← index, List.getElem?_append_right (Nat.le_refl _),
        Nat.sub_self, List.getElem?_cons_zero, List.eraseIdx_append_of_length_le (Nat.le_refl _),
        Nat.sub_self, List.eraseIdx_cons_zero]
      simp only [Option.bind_eq_bind, Option.bind_some, ih, runSteps]
      rfl

/-- The positions found are those of the runs, and what was removed before them is what they have to
be moved back by. -/
theorem takeOutRanges?_runs {runs : List (List (Entry × Bool))} (alternate : Alternate runs)
    (before : List Entry) (removed : Nat) :
    takeOutRanges? (before ++ runs.flatten.map Prod.fst) removed
        (rangesOf (before.length + removed) none runs.flatten) =
      some (undoSteps before runs) := by
  induction runs generalizing before removed with
  | nil => rfl
  | cons run rest ih =>
      obtain ⟨verdict, same⟩ := alternate.alike run List.mem_cons_self
      -- A position is that of an entry which is left plus the number of those removed before it.
      rw [List.flatten_cons, List.map_append, undoSteps]
      cases verdict with
      | true =>
          have moved : before.length + removed + run.length =
              (before ++ run.map Prod.fst).length + removed := by
            rw [List.length_append, List.length_map]
            omega
          rw [if_pos (List.all_eq_true.2 same), rangesOf_true same, moved, ← List.append_assoc]
          exact ih alternate.tail _ removed
      | false =>
          obtain ⟨mark, more, rfl⟩ := List.exists_cons_of_ne_nil fun empty =>
            alternate.filled (empty ▸ List.mem_cons_self)
          have taken := takeOut?_run before (rest.flatten.map Prod.fst)
            ((mark :: more).map Prod.fst).reverse
          rw [List.reverse_reverse, List.length_reverse, List.length_map, List.length_cons,
            List.append_assoc] at taken
          have later := ih alternate.tail before (removed + (more.length + 1))
          rw [← Nat.add_assoc before.length removed] at later
          have first : less? (before.length + removed) removed = some before.length :=
            less?_eq_some rfl
          have last : less? (before.length + removed + more.length) removed =
              some (before.length + more.length) := less?_eq_some (by omega)
          have span : less? (before.length + more.length) before.length = some more.length :=
            less?_eq_some (Nat.add_comm _ _)
          rw [if_neg (alternate.not_all same), rangesOf_run same (alternate.head same), takeOutRanges?]
          simp only [first, last, span, Option.bind_eq_bind, Option.bind_some, taken, later]
          rfl

theorem map_fst_runSteps (before after latest : List Entry) :
    (runSteps before after latest).map Prod.fst = latest := by
  induction latest with
  | nil => rfl
  | cons entry earlier ih => rw [runSteps, List.map_cons, ih]

theorem map_fst_undoSteps (before : List Entry) (runs : List (List (Entry × Bool))) :
    (undoSteps before runs).map Prod.fst =
      runs.flatMap fun run => if run.all Prod.snd then [] else (run.map Prod.fst).reverse := by
  induction runs generalizing before with
  | nil => rfl
  | cons run rest ih =>
      rw [undoSteps, List.flatMap_cons]
      split
      · rw [ih, List.nil_append]
      · rw [List.map_append, map_fst_runSteps, ih]

end Runs

namespace Engine

variable (engine : Engine σ) (id : StrandId)

theorem undoEach_cons (entry : Entry) (left : List Entry) (rest : List (Entry × List Entry))
    (session : Session σ) :
    engine.undoEach id ((entry, left) :: rest) session =
      (engine.revert entry.node >>= fun _ => (modify fun session => session.putStrand ⟨id, left⟩) >>=
        fun _ => engine.undoEach id rest) (session.removeSupport entry.node entry.support.id) := rfl

theorem undoEach_append (first second : List (Entry × List Entry)) :
    engine.undoEach id (first ++ second) =
      (engine.undoEach id first >>= fun _ => engine.undoEach id second) := by
  induction first with
  | nil => rfl
  | cons step rest ih =>
      obtain ⟨entry, left⟩ := step
      simp only [List.cons_append, undoEach, ih, bind_assoc]

theorem undoRun_eq_undoEach (before after latest : List Entry) :
    engine.undoRun id before after latest = engine.undoEach id (runSteps before after latest) := by
  induction latest with
  | nil => rfl
  | cons entry earlier ih => simp only [undoRun, runSteps, undoEach, ih]

theorem undoRuns_eq_undoEach (before : List Entry) (runs : List (List (Entry × Bool))) :
    engine.undoRuns id before runs = engine.undoEach id (undoSteps before runs) := by
  induction runs generalizing before with
  | nil => rfl
  | cons run rest ih =>
      rw [undoRuns, undoSteps]
      split
      · exact ih _
      · rw [undoEach_append, undoRun_eq_undoEach, ih]

/-- A collapse told step by step. -/
theorem collapse_eq_undoEach (session : Session σ) :
    engine.collapse id session =
      (engine.undoEach id (undoSteps []
          ((session.verdicts engine.chart id).splitBy fun a b => a.2 == b.2)) >>= fun _ =>
        pure ((session.verdicts engine.chart id).any fun mark => !mark.2))
        (session.swept engine.chart id) := by
  rw [← undoRuns_eq_undoEach]
  rfl

/-- No position is computed below zero, and none is one of another entry. -/
theorem collapseByPosition?_eq (session : Session σ) :
    engine.collapseByPosition? id session = some (engine.collapse id session) := by
  have listed : (session.verdicts engine.chart id).map Prod.fst = session.entries id :=
    map_fst_sweepEntries engine.chart session.facts session.activation _
  have taken := takeOutRanges?_runs (alternate_splitBy (session.verdicts engine.chart id)) [] 0
  rw [List.flatten_splitBy, listed, List.nil_append, List.length_nil] at taken
  have changed : (!(rangesOf 0 none (session.verdicts engine.chart id)).isEmpty) =
      (session.verdicts engine.chart id).any fun mark => !mark.2 := by
    rw [isEmpty_rangesOf, Option.isNone_none, Bool.true_and, List.not_all_eq_any_not]
  rw [collapseByPosition?, findRanges_eq, collapse_eq_undoEach, ← changed]
  exact congrArg (Option.map _) taken

end Engine

section Order

theorem undoOrder_perm (verdicts : List (Entry × Bool)) :
    (undoOrder verdicts).Perm ((verdicts.filter fun verdict => !verdict.2).map Prod.fst) := by
  have alternate := alternate_splitBy verdicts
  rw [undoOrder]
  nth_rewrite 2 [← List.flatten_splitBy (fun a b => a.2 == b.2) verdicts]
  generalize verdicts.splitBy (fun a b => a.2 == b.2) = runs at alternate
  induction runs with
  | nil => exact .nil
  | cons run rest ih =>
      obtain ⟨verdict, same⟩ := alternate.alike run List.mem_cons_self
      rw [List.flatMap_cons, List.flatten_cons, List.filter_append, List.map_append]
      refine List.Perm.append ?_ (ih alternate.tail)
      cases verdict with
      | true =>
          rw [if_pos (List.all_eq_true.2 same), List.filter_eq_nil_iff.2 fun mark mem => by
            simp [same mark mem]]
          exact .nil
      | false =>
          rw [if_neg (alternate.not_all same), List.filter_eq_self.2 fun mark mem => by
            simp [same mark mem]]
          exact List.reverse_perm _

theorem mem_undoOrder {verdicts : List (Entry × Bool)} {entry : Entry} :
    entry ∈ undoOrder verdicts ↔ (entry, false) ∈ verdicts := by
  rw [(undoOrder_perm verdicts).mem_iff]
  simp

/-- Entries leave a strand one after the other, each listed with the entries left without it. -/
inductive Leaves : List Entry → List (Entry × List Entry) → List Entry → Prop
  | nothing {entries : List Entry} : Leaves entries [] entries
  | next {earlier later kept : List Entry} {entry : Entry} {rest : List (Entry × List Entry)}
      (others : Leaves (earlier ++ later) rest kept) :
      Leaves (earlier ++ entry :: later) ((entry, earlier ++ later) :: rest) kept

theorem Leaves.trans {entries between kept : List Entry} {first second : List (Entry × List Entry)}
    (before : Leaves entries first between) (after : Leaves between second kept) :
    Leaves entries (first ++ second) kept := by
  induction before with
  | nothing => exact after
  | next _ ih => exact .next (ih after)

theorem leaves_runSteps (before after latest : List Entry) :
    Leaves (before ++ latest.reverse ++ after) (runSteps before after latest) (before ++ after) := by
  induction latest with
  | nil =>
      rw [List.reverse_nil, List.append_nil]
      exact .nothing
  | cons entry earlier ih =>
      have placed : before ++ (entry :: earlier).reverse ++ after =
          (before ++ earlier.reverse) ++ entry :: after := by simp
      rw [placed]
      exact .next ih

theorem leaves_undoSteps {runs : List (List (Entry × Bool))} (alternate : Alternate runs)
    (before : List Entry) :
    Leaves (before ++ runs.flatten.map Prod.fst) (undoSteps before runs)
      (before ++ (runs.flatten.filter Prod.snd).map Prod.fst) := by
  induction runs generalizing before with
  | nil => exact .nothing
  | cons run rest ih =>
      obtain ⟨verdict, same⟩ := alternate.alike run List.mem_cons_self
      have later := ih alternate.tail
      rw [List.flatten_cons, List.filter_append, List.map_append, List.map_append, undoSteps]
      cases verdict with
      | true =>
          rw [if_pos (List.all_eq_true.2 same), List.filter_eq_self.2 same, ← List.append_assoc,
            ← List.append_assoc]
          exact later _
      | false =>
          have dropped : run.filter Prod.snd = [] :=
            List.filter_eq_nil_iff.2 fun mark mem => by simp [same mark mem]
          have here := leaves_runSteps before (rest.flatten.map Prod.fst) (run.map Prod.fst).reverse
          rw [List.reverse_reverse, List.append_assoc] at here
          rw [if_neg (alternate.not_all same), dropped, List.map_nil, List.nil_append]
          exact here.trans (later before)

end Order

namespace Undone

variable {engine : Engine σ} {id : StrandId} {order : List Entry} {session after : Session σ}

/-- Each undoing is on the trail, and nothing else is that was not there before. -/
theorem trail (undone : Undone engine id order session after) :
    after.trail = (order.map fun entry => Footprint.acted entry.node .revert true).reverse ++
      session.trail := by
  induction undone with
  | nothing => rfl
  | @next entry rest earlier later session reverted after listed idle ran others ih =>
      rcases engine.revert_cases entry.node (session.removeSupport entry.node entry.support.id) with
        ⟨left, reverts, done⟩ | ⟨left, fault, refuses, failed⟩
      · cases ran.symm.trans done
        have same : left.trail = session.trail := reverts.leaves.1
        rw [ih, List.map_cons, List.reverse_cons, List.append_assoc]
        exact congrArg _ (congrArg _ same)
      · cases ran.symm.trans failed

end Undone

namespace Engine

variable (engine : Engine σ) (id : StrandId)

/-- Entries whose nodes are inactive are undone in the order given, up to the first that fails. -/
theorem undoEach_cases {entries kept : List Entry} {steps : List (Entry × List Entry)}
    (leaves : Leaves entries steps kept) {session : Session σ} (listed : session.entries id = entries)
    (idle : ∀ entry ∈ steps.map Prod.fst, session.isActive entry.node = false) :
    (∃ after, engine.undoEach id steps session = .ok () after ∧
      Undone engine id (steps.map Prod.fst) session after ∧ after.entries id = kept) ∨
    ∃ before entry rest now fault after, steps.map Prod.fst = before ++ entry :: rest ∧
      Undone engine id before session now ∧ now.isActive entry.node = false ∧
      engine.revert entry.node (now.removeSupport entry.node entry.support.id) = .error fault after ∧
      engine.undoEach id steps session = .error fault after := by
  induction leaves generalizing session with
  | nothing => exact .inl ⟨session, rfl, .nothing, listed⟩
  | @next earlier later kept entry rest others ih =>
      rw [List.map_cons, List.forall_mem_cons] at idle
      rw [undoEach_cons, List.map_cons]
      rcases revert_cases engine entry.node (session.removeSupport entry.node entry.support.id) with
        ⟨reverted, reverts, ran⟩ | ⟨left, fault, refuses, ran⟩
      · have fades := ((Session.Fades.removeSupport session entry.node entry.support.id).trans
          reverts.fades).leaveFootprint (.acted entry.node .revert true)
        -- Undoing only takes supports away, so the nodes that are still to come stay inactive.
        have calm : ∀ other ∈ rest.map Prod.fst, ((reverted.leaveFootprint
            (.acted entry.node .revert true)).putStrand ⟨id, earlier ++ later⟩).isActive other.node =
              false := fun other mem => Bool.eq_false_iff.2 fun active =>
          Bool.eq_false_iff.1 (idle.2 other mem) (fades.active other.node active)
        rw [SessionM.bind_of_ok ran]
        rcases ih (by rw [Session.entries_putStrand, if_pos rfl]) calm with
          ⟨after, went, undone, kept⟩ | ⟨before, failed, more, now, fault, after, order, undone, rest⟩
        · exact .inl ⟨after, went, .next listed idle.1 ran undone, kept⟩
        · refine .inr ⟨entry :: before, failed, more, now, fault, after, ?_,
            .next listed idle.1 ran undone, rest⟩
          rw [order, List.cons_append]
      · refine .inr ⟨[], entry, _, session, fault, _, rfl, .nothing, idle.1, ran, ?_⟩
        rw [SessionM.bind_of_error ran]

/-- A collapse undoes the entries that the sweep found inactive, each once and in the order of the runs,
keeps the others in their order, and tells whether there were any; unless an undoing fails, and then
those before it in the order were undone. The positions it can be told by are right at every step. -/
theorem collapse_undoes_inactive (session : Session σ) :
    engine.collapseByPosition? id session = some (engine.collapse id session) ∧
    (undoOrder (session.verdicts engine.chart id)).Perm
      (((session.verdicts engine.chart id).filter fun verdict => !verdict.2).map Prod.fst) ∧
    ((∃ changed after, engine.collapse id session = .ok changed after ∧
      Collapsed engine id session changed after) ∨
    ∃ before entry rest now fault after,
      undoOrder (session.verdicts engine.chart id) = before ++ entry :: rest ∧
      Undone engine id before (session.swept engine.chart id) now ∧
      now.isActive entry.node = false ∧
      engine.revert entry.node (now.removeSupport entry.node entry.support.id) = .error fault after ∧
      engine.collapse id session = .error fault after) := by
  refine ⟨engine.collapseByPosition?_eq id session, undoOrder_perm _, ?_⟩
  have leaves := leaves_undoSteps (alternate_splitBy (session.verdicts engine.chart id)) []
  have order : (undoSteps [] ((session.verdicts engine.chart id).splitBy
      fun a b => a.2 == b.2)).map Prod.fst = undoOrder (session.verdicts engine.chart id) :=
    map_fst_undoSteps [] _
  have listed : (session.swept engine.chart id).entries id =
      [] ++ (session.verdicts engine.chart id).map Prod.fst :=
    (map_fst_sweepEntries engine.chart session.facts session.activation _).symm
  have idle : ∀ entry ∈ undoOrder (session.verdicts engine.chart id),
      (session.swept engine.chart id).isActive entry.node = false :=
    fun entry mem => isActive_of_mem_false (mem_undoOrder.1 mem)
  rw [List.flatten_splitBy] at leaves
  rw [← order] at idle ⊢
  rw [collapse_eq_undoEach]
  rcases engine.undoEach_cases id leaves listed idle with
    ⟨after, ran, undone, kept⟩ | ⟨before, entry, rest, now, fault, after, split, undone, calm, ran, fails⟩
  · rw [order] at undone
    refine .inl ⟨_, after, SessionM.bind_of_ok ran, undone, kept, undone.trail, ?_⟩
    simp
  · exact .inr ⟨before, entry, rest, now, fault, after, split, undone, calm, ran,
      SessionM.bind_of_error fails⟩

end Engine

end Flowchart
