import Flowchart.Strand
import Flowchart.Proofs.Roster

/-!
What the writes to an activation table do to the supports and the activity of each node, and what a
sweep along a strand leaves. A sweep only ever takes supports away, and as long as it deactivates
nobody it judges every support in one and the same way.
-/
namespace Flowchart

namespace Activation

theorem supports_set (table : Activation) (node other : NodeRef) (held : Supports) :
    Activation.supports (table.set node held) other =
      if node = other then held else table.supports other := by
  simp only [supports, Listing.at?_set]
  split <;> rfl

theorem supports_add (table : Activation) (node other : NodeRef) (support : Support) :
    (table.add node support).supports other =
      if node = other then (table.supports node).insertNew support else table.supports other :=
  supports_set table node other _

theorem supports_of_absent {table : Activation} {node : NodeRef} (absent : table.at? node = none) :
    table.supports node = ∅ := by
  rw [supports, absent, Option.getD_none]

theorem supports_of_listed {table : Activation} {node : NodeRef} {held : Supports}
    (listed : table.at? node = some held) : table.supports node = held := by
  rw [supports, listed, Option.getD_some]

theorem exists_listed_of_mem {table : Activation} {node : NodeRef} {support : Support}
    (mem : support ∈ (table.supports node).items) :
    ∃ held : Supports, (node, held) ∈ table.items ∧ support ∈ held.items := by
  cases listed : table.at? node with
  | none => simp [supports_of_absent listed] at mem
  | some held =>
      rw [supports_of_listed listed] at mem
      exact ⟨held, Listing.at?_eq_some_iff.1 listed, mem⟩

theorem exists_row_of_mem {table : Activation} {node : NodeRef} {support : Support}
    (mem : support ∈ (table.supports node).items) : ∃ row ∈ table.items, support ∈ row.2.items := by
  obtain ⟨held, listed, here⟩ := exists_listed_of_mem mem
  exact ⟨(node, held), listed, here⟩

theorem mem_add {table : Activation} {node other : NodeRef} {support given : Support} :
    support ∈ ((table.add node given).supports other).items ↔
      support ∈ (table.supports other).items ∨
        (node = other ∧ support = given ∧ given.id ∉ (table.supports node).keys) := by
  rw [supports_add]
  by_cases same : node = other
  · subst same
    simp [Roster.mem_insertNew]
  · simp [same]

theorem retain_of_absent {table : Activation} {node : NodeRef} (keep : Support → Bool)
    (absent : table.at? node = none) : table.retain node keep = table := by
  rw [retain, absent]

theorem retain_of_listed {table : Activation} {node : NodeRef} {held : Supports}
    (keep : Support → Bool) (listed : table.at? node = some held) :
    table.retain node keep = table.set node (held.filter keep) := by
  rw [retain, listed]

theorem supports_retain (table : Activation) (node other : NodeRef) (keep : Support → Bool) :
    (table.retain node keep).supports other =
      if node = other then (table.supports node).filter keep else table.supports other := by
  cases listed : table.at? node with
  | none =>
      rw [retain_of_absent keep listed]
      split
      · rename_i same
        rw [← same, supports_of_absent listed]
        rfl
      · rfl
  | some held => rw [retain_of_listed keep listed, supports_set, supports_of_listed listed]

theorem mem_retain {table : Activation} {node other : NodeRef} {support : Support}
    {keep : Support → Bool} :
    support ∈ ((table.retain node keep).supports other).items ↔
      support ∈ (table.supports other).items ∧ (node = other → keep support = true) := by
  rw [supports_retain]
  by_cases same : node = other
  · subst same
    simp
  · simp [same]

/-- To remove the support of a number is to retain the others. -/
theorem remove_eq_retain (table : Activation) (node : NodeRef) (id : SupportId) :
    table.remove node id = table.retain node fun support => !decide (support.id = id) := rfl

theorem mem_remove {table : Activation} {node other : NodeRef} {support : Support} {id : SupportId} :
    support ∈ ((table.remove node id).supports other).items ↔
      support ∈ (table.supports other).items ∧ ¬(node = other ∧ support.id = id) := by
  simp [remove_eq_retain, mem_retain]

theorem mem_sweep {chart : Chart} {facts : Facts} {table : Activation} {node other : NodeRef}
    {support : Support} :
    support ∈ ((table.sweep chart facts node).supports other).items ↔
      support ∈ (table.supports other).items ∧
        (node = other → support.basis.holds chart facts table = true) := mem_retain

theorem isActive_iff {table : Activation} {node : NodeRef} :
    table.isActive node = true ↔ ∃ support, support ∈ (table.supports node).items := by
  rw [isActive, Bool.not_eq_true', Roster.isEmpty_eq_false_iff]

theorem isActive_eq_false_iff {table : Activation} {node : NodeRef} :
    table.isActive node = false ↔ ∀ support, support ∉ (table.supports node).items := by
  rw [← Bool.not_eq_true, isActive_iff]
  simp only [not_exists]

theorem isActive_of_absent {table : Activation} {node : NodeRef} (absent : table.at? node = none) :
    table.isActive node = false := by
  rw [isActive, supports_of_absent absent]
  rfl

theorem mem_keys_of_isActive {table : Activation} {node : NodeRef} (active : table.isActive node = true) :
    node ∈ table.keys := by
  by_contra absent
  rw [isActive_of_absent (Listing.at?_eq_none_iff.2 absent)] at active
  cases active

theorem mem_activeNodes {table : Activation} {node : NodeRef} :
    node ∈ table.activeNodes ↔ table.isActive node = true := by
  rw [activeNodes, List.mem_mergeSort, List.mem_filter, and_iff_right_of_imp mem_keys_of_isActive]

/-- Fewer supports, less activity. -/
theorem isActive_mono {table wider : Activation} {node : NodeRef}
    (within : ∀ support ∈ (table.supports node).items, support ∈ (wider.supports node).items)
    (active : table.isActive node = true) : wider.isActive node = true := by
  obtain ⟨support, mem⟩ := isActive_iff.1 active
  exact isActive_iff.2 ⟨support, within support mem⟩

/-- Every support in the table is in the wider one too. -/
def Below (table wider : Activation) : Prop :=
  ∀ node, ∀ support ∈ (table.supports node).items, support ∈ (wider.supports node).items

theorem isActive_congr {table other : Activation} {node : NodeRef}
    (same : ∀ support, support ∈ (table.supports node).items ↔ support ∈ (other.supports node).items) :
    table.isActive node = other.isActive node := by
  rw [Bool.eq_iff_iff, isActive_iff, isActive_iff]
  exact exists_congr same

/-- Adding a support activates its node, also when the node has a support of that number. -/
theorem isActive_add (table : Activation) (node other : NodeRef) (support : Support) :
    (table.add node support).isActive other = (decide (node = other) || table.isActive other) := by
  rw [Bool.eq_iff_iff, Bool.or_eq_true, isActive_iff, decide_eq_true_eq, isActive_iff]
  simp only [mem_add]
  constructor
  · rintro ⟨held, old | ⟨same, -, -⟩⟩
    · exact .inr ⟨held, old⟩
    · exact .inl same
  · rintro (rfl | ⟨held, old⟩)
    · by_cases present : support.id ∈ (table.supports node).keys
      · obtain ⟨held, mem, -⟩ := List.mem_map.1 present
        exact ⟨held, .inl mem⟩
      · exact ⟨support, .inr ⟨rfl, rfl, present⟩⟩
    · exact ⟨held, .inl old⟩

theorem isActive_remove_of_ne {table : Activation} {node other : NodeRef} (id : SupportId)
    (apart : node ≠ other) : (table.remove node id).isActive other = table.isActive other := by
  refine isActive_congr fun support => ?_
  simp [mem_remove, apart]

/-- Taking a support from an inactive node changes nothing. -/
theorem isActive_remove_of_inactive {table : Activation} {node : NodeRef} (id : SupportId)
    (idle : table.isActive node = false) (other : NodeRef) :
    (table.remove node id).isActive other = table.isActive other := by
  refine isActive_congr fun support => ?_
  rw [mem_remove, and_iff_left_iff_imp]
  rintro mem ⟨rfl, -⟩
  exact isActive_eq_false_iff.1 idle support mem

theorem isActive_of_isActive_sweep {chart : Chart} {facts : Facts} {table : Activation}
    {node other : NodeRef} (active : (table.sweep chart facts node).isActive other = true) :
    table.isActive other = true :=
  isActive_mono (fun _ mem => (mem_sweep.1 mem).1) active

/-- A node that survives its own sweep leaves all activity as it was. -/
theorem isActive_sweep_of_active {chart : Chart} {facts : Facts} {table : Activation}
    {node : NodeRef} (active : (table.sweep chart facts node).isActive node = true)
    (other : NodeRef) :
    (table.sweep chart facts node).isActive other = table.isActive other := by
  by_cases same : node = other
  · subst same
    rw [active, isActive_of_isActive_sweep active]
  · refine isActive_congr fun support => ?_
    simp [mem_sweep, same]

theorem holdsEdge_iff {table : Activation} {node : NodeRef} {ref : EdgeRef} :
    table.holdsEdge node ref = true ↔
      ∃ support ∈ (table.supports node).items, support.edge? = some ref := by
  simp only [holdsEdge, List.any_eq_true, beq_iff_eq]

end Activation

theorem Support.edge?_eq_some_iff {support : Support} {ref : EdgeRef} :
    support.edge? = some ref ↔ support.basis = .edge ref := by
  unfold Support.edge?
  split <;> simp_all

/-- Whether a basis holds depends on the table through the activity of nodes alone. -/
theorem Basis.holds_congr {table other : Activation} (chart : Chart) (facts : Facts)
    (same : ∀ node, table.isActive node = other.isActive node) (basis : Basis) :
    basis.holds chart facts table = basis.holds chart facts other := by
  cases basis <;> simp only [Basis.holds, same]

/-- What holds in a table holds in one where more is active. -/
theorem Basis.holds_mono {chart : Chart} {facts : Facts} {narrower wider : Activation}
    (active : ∀ node, narrower.isActive node = true → wider.isActive node = true) {basis : Basis}
    (holds : basis.holds chart facts narrower = true) : basis.holds chart facts wider = true := by
  cases basis with
  | unconditional | external => exact holds
  | edge ref =>
      obtain ⟨edge, known, passes⟩ := (Option.any_eq_true _ _).1 holds
      rw [Bool.and_eq_true] at passes
      refine (Option.any_eq_true _ _).2 ⟨edge, known, ?_⟩
      rw [Bool.and_eq_true]
      exact ⟨active _ passes.1, passes.2⟩
  | caller composed => exact active composed holds

section Sweep

variable {chart : Chart} {facts : Facts}

theorem sweepEntries_cons (table : Activation) (entry : Entry) (rest : List Entry) :
    sweepEntries chart facts table (entry :: rest) =
      ((entry, (table.sweep chart facts entry.node).isActive entry.node)
          :: (sweepEntries chart facts (table.sweep chart facts entry.node) rest).1,
        (sweepEntries chart facts (table.sweep chart facts entry.node) rest).2) := rfl

theorem map_fst_sweepEntries (chart : Chart) (facts : Facts) (table : Activation) (entries : List Entry) :
    (sweepEntries chart facts table entries).1.map Prod.fst = entries := by
  induction entries generalizing table with
  | nil => rfl
  | cons entry rest ih => rw [sweepEntries_cons, List.map_cons, ih]

theorem mem_of_mem_sweepEntries {table : Activation} {entries : List Entry} {node : NodeRef}
    {support : Support}
    (mem : support ∈ ((sweepEntries chart facts table entries).2.supports node).items) :
    support ∈ (table.supports node).items := by
  induction entries generalizing table with
  | nil => exact mem
  | cons entry rest ih => exact (Activation.mem_sweep.1 (ih mem)).1

theorem isActive_of_isActive_sweepEntries {table : Activation} {entries : List Entry}
    {node : NodeRef} (active : (sweepEntries chart facts table entries).2.isActive node = true) :
    table.isActive node = true :=
  Activation.isActive_mono (fun _ mem => mem_of_mem_sweepEntries mem) active

/-- A sweep drops no support that still holds at its end. -/
theorem mem_sweepEntries_of_holds {table : Activation} {entries : List Entry} {node : NodeRef}
    {support : Support} (mem : support ∈ (table.supports node).items)
    (holds : support.basis.holds chart facts (sweepEntries chart facts table entries).2 = true) :
    support ∈ ((sweepEntries chart facts table entries).2.supports node).items := by
  induction entries generalizing table with
  | nil => exact mem
  | cons entry rest ih =>
      have held : support.basis.holds chart facts table = true :=
        Basis.holds_mono (fun _ => isActive_of_isActive_sweepEntries) holds
      exact ih (Activation.mem_sweep.2 ⟨mem, fun _ => held⟩) holds

theorem mem_sweepEntries_of_not_mem {table : Activation} {entries : List Entry} {node : NodeRef}
    (apart : node ∉ entries.map Entry.node) (support : Support) :
    support ∈ ((sweepEntries chart facts table entries).2.supports node).items ↔
      support ∈ (table.supports node).items := by
  induction entries generalizing table with
  | nil => rfl
  | cons entry rest ih =>
      rw [List.map_cons, List.mem_cons, not_or] at apart
      rw [sweepEntries_cons, ih apart.2, Activation.mem_sweep]
      simp [Ne.symm apart.1]

theorem isActive_of_mem_true {table : Activation} {entries : List Entry} {entry : Entry}
    (mem : (entry, true) ∈ (sweepEntries chart facts table entries).1) :
    table.isActive entry.node = true := by
  induction entries generalizing table with
  | nil => cases mem
  | cons first rest ih =>
      rw [sweepEntries_cons] at mem
      rcases List.mem_cons.1 mem with here | later
      · obtain ⟨rfl, active⟩ := Prod.mk.injEq .. ▸ here
        exact Activation.isActive_of_isActive_sweep active.symm
      · exact Activation.isActive_of_isActive_sweep (ih later)

/-- An entry is found active by a support that holds. -/
theorem exists_holds_of_mem_true {table : Activation} {entries : List Entry} {entry : Entry}
    (mem : (entry, true) ∈ (sweepEntries chart facts table entries).1) :
    ∃ support ∈ (table.supports entry.node).items, support.basis.holds chart facts table = true := by
  induction entries generalizing table with
  | nil => cases mem
  | cons first rest ih =>
      rw [sweepEntries_cons] at mem
      rcases List.mem_cons.1 mem with here | later
      · obtain ⟨rfl, active⟩ := Prod.mk.injEq .. ▸ here
        obtain ⟨support, held⟩ := Activation.isActive_iff.1 active.symm
        obtain ⟨was, holds⟩ := Activation.mem_sweep.1 held
        exact ⟨support, was, holds rfl⟩
      · obtain ⟨support, held, holds⟩ := ih later
        exact ⟨support, (Activation.mem_sweep.1 held).1,
          Basis.holds_mono (fun _ => Activation.isActive_of_isActive_sweep) holds⟩

/-- A node that was found inactive stays so, since later sweeps only take supports away. -/
theorem isActive_of_mem_false {table : Activation} {entries : List Entry} {entry : Entry}
    (mem : (entry, false) ∈ (sweepEntries chart facts table entries).1) :
    (sweepEntries chart facts table entries).2.isActive entry.node = false := by
  induction entries generalizing table with
  | nil => cases mem
  | cons first rest ih =>
      rw [sweepEntries_cons] at mem ⊢
      rcases List.mem_cons.1 mem with here | later
      · obtain ⟨rfl, idle⟩ := Prod.mk.injEq .. ▸ here
        refine Bool.eq_false_iff.2 fun active => ?_
        exact Bool.false_ne_true (idle.trans (isActive_of_isActive_sweepEntries active))
      · exact ih later

/-- A sweep that finds every entry active leaves all activity as it was. -/
theorem isActive_sweepEntries_of_all {table : Activation} {entries : List Entry}
    (quiet : ∀ verdict ∈ (sweepEntries chart facts table entries).1, verdict.2 = true)
    (node : NodeRef) :
    (sweepEntries chart facts table entries).2.isActive node = table.isActive node := by
  induction entries generalizing table with
  | nil => rfl
  | cons entry rest ih =>
      rw [sweepEntries_cons, List.forall_mem_cons] at quiet
      exact (ih quiet.2).trans (Activation.isActive_sweep_of_active quiet.1 node)

/-- A sweep that finds every entry active keeps just those supports of the swept nodes that hold in
the table it began with. -/
theorem mem_sweepEntries_of_all {table : Activation} {entries : List Entry}
    (quiet : ∀ verdict ∈ (sweepEntries chart facts table entries).1, verdict.2 = true)
    (node : NodeRef) (support : Support) :
    support ∈ ((sweepEntries chart facts table entries).2.supports node).items ↔
      support ∈ (table.supports node).items ∧
        (node ∈ entries.map Entry.node → support.basis.holds chart facts table = true) := by
  induction entries generalizing table with
  | nil => simp [sweepEntries]
  | cons entry rest ih =>
      rw [sweepEntries_cons, List.forall_mem_cons] at quiet
      have judged := Basis.holds_congr chart facts
        (Activation.isActive_sweep_of_active quiet.1) support.basis
      rw [sweepEntries_cons, ih quiet.2, Activation.mem_sweep, judged, List.map_cons, List.mem_cons,
        eq_comm (a := entry.node)]
      tauto

end Sweep

end Flowchart
