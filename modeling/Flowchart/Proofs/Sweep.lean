import Flowchart.Proofs.Activation

/-!
The sweep of one node, and the look at one entry that it amounts to. The supports of a node are judged in
the very table from which they are then taken, and a node may support itself, along a loop or by way of
others. Still nothing is left for a second sweep to drop: a node that kept a support is as active as it
was, so every judgement stands; and of a node that kept none there is nothing left to judge.
-/
namespace Flowchart

variable {chart : Chart} {facts : Facts}

namespace Activation

variable {table : Activation} {node other : NodeRef}

theorem set_of_listed {held : Supports} (listed : table.at? node = some held) :
    table.set node held = table := by
  apply Roster.insert_of_get?
  exact Roster.get?_eq_some_iff.2 ⟨Listing.at?_eq_some_iff.1 listed, rfl⟩

theorem touch_of_listed {held : Supports} (listed : table.at? node = some held) :
    table.touch node = table := by
  rw [touch, supports_of_listed listed, set_of_listed listed]

section Retain

variable {keep : Support → Bool}

theorem keys_retain (table : Activation) (node : NodeRef) (keep : Support → Bool) :
    (table.retain node keep).keys = table.keys := by
  cases listed : table.at? node with
  | none => rw [retain_of_absent keep listed]
  | some held =>
      have present : node ∈ table.keys := List.mem_map.2 ⟨_, Listing.at?_eq_some_iff.1 listed, rfl⟩
      rw [retain_of_listed keep listed, Listing.set, Roster.keys_insert, if_pos present]

theorem at?_retain_of_ne (keep : Support → Bool) (apart : node ≠ other) :
    (table.retain node keep).at? other = table.at? other := by
  cases listed : table.at? node with
  | none => rw [retain_of_absent keep listed]
  | some held => rw [retain_of_listed keep listed, Listing.at?_set_of_ne _ apart]

/-- What is retained depends on the supports that the node holds alone. -/
theorem retain_congr {keep' : Support → Bool}
    (same : ∀ support ∈ (table.supports node).items, keep support = keep' support) :
    table.retain node keep = table.retain node keep' := by
  cases listed : table.at? node with
  | none => rw [retain_of_absent keep listed, retain_of_absent keep' listed]
  | some held =>
      rw [supports_of_listed listed] at same
      rw [retain_of_listed keep listed, retain_of_listed keep' listed]
      congr 1
      exact Roster.ext (List.filter_congr same)

theorem retain_of_all (all : ∀ support ∈ (table.supports node).items, keep support = true) :
    table.retain node keep = table := by
  cases listed : table.at? node with
  | none => exact retain_of_absent keep listed
  | some held =>
      rw [supports_of_listed listed] at all
      have kept : held.filter keep = held := Roster.ext (List.filter_eq_self.2 all)
      rw [retain_of_listed keep listed, kept, set_of_listed listed]

end Retain

/-- What a sweep leaves holds in the table that it leaves. -/
theorem holds_of_mem_sweep {support : Support}
    (mem : support ∈ ((table.sweep chart facts node).supports node).items) :
    support.basis.holds chart facts (table.sweep chart facts node) = true := by
  have active : (table.sweep chart facts node).isActive node = true := isActive_iff.2 ⟨support, mem⟩
  rw [Basis.holds_congr chart facts (isActive_sweep_of_active active)]
  exact (mem_sweep.1 mem).2 rfl

theorem sweep_sweep (table : Activation) (node : NodeRef) :
    (table.sweep chart facts node).sweep chart facts node = table.sweep chart facts node := by
  apply retain_of_all
  intro support mem
  exact holds_of_mem_sweep mem

/-- The numbers of the supports of a node that do not hold. -/
def stale (chart : Chart) (facts : Facts) (table : Activation) (node : NodeRef) : List SupportId :=
  ((table.supports node).items.filter fun support => !support.basis.holds chart facts table).map Support.id

/-- No two supports of a node share their number, so the number tells whether the support holds. -/
theorem mem_stale_iff {support : Support} (mem : support ∈ (table.supports node).items) :
    support.id ∈ table.stale chart facts node ↔ support.basis.holds chart facts table = false := by
  rw [stale, List.mem_map]
  constructor
  · rintro ⟨found, listed, same⟩
    obtain ⟨held, fails⟩ := List.mem_filter.1 listed
    obtain rfl := Roster.eq_of_key_eq held mem same
    simpa using fails
  · intro fails
    exact ⟨support, List.mem_filter.2 ⟨mem, by simpa using fails⟩, rfl⟩

theorem retain_stale (table : Activation) (node : NodeRef) :
    (table.retain node fun support => support.id ∉ table.stale chart facts node) =
      table.sweep chart facts node := by
  apply retain_congr
  intro support mem
  simp [mem_stale_iff mem]

/-- Drops the supports of a node by their numbers; the table is not written to where all of them hold. -/
def dropStale (chart : Chart) (facts : Facts) (table : Activation) (node : NodeRef) : Activation :=
  if table.stale chart facts node = [] then table
  else (table.touch node).retain node fun support => support.id ∉ table.stale chart facts node

theorem dropStale_eq_sweep {held : Supports} (listed : table.at? node = some held) :
    table.dropStale chart facts node = table.sweep chart facts node := by
  rw [dropStale, touch_of_listed listed]
  split
  · rename_i fine
    rw [← retain_stale, fine]
    symm
    apply retain_of_all
    simp
  · exact retain_stale table node

end Activation

namespace Entry

/-- Looks at an entry of a strand. The supports of its node that do not hold are noted by their numbers
before the first of them is dropped; where there are none, or where the node never held a support, the
table is not written to. True if the node is active afterwards. -/
def check (chart : Chart) (facts : Facts) (table : Activation) (entry : Entry) : Bool × Activation :=
  match table.at? entry.node with
  | none => (false, table)
  | some _ =>
    let after := table.dropStale chart facts entry.node
    (after.isActive entry.node, after)

/-- A look at an entry is a sweep of its node. -/
theorem check_eq_sweep (chart : Chart) (facts : Facts) (table : Activation) (entry : Entry) :
    entry.check chart facts table =
      ((table.sweep chart facts entry.node).isActive entry.node,
        table.sweep chart facts entry.node) := by
  cases listed : table.at? entry.node with
  | none =>
      rw [check, listed, Activation.sweep, Activation.retain_of_absent _ listed,
        Activation.isActive_of_absent listed]
  | some held => rw [check, listed, Activation.dropStale_eq_sweep listed]

/-- What a look at an entry comes to: a verdict, and the table that it leaves. -/
structure Checked (chart : Chart) (facts : Facts) (table : Activation) (entry : Entry) (verdict : Bool)
    (after : Activation) : Prop where
  kept : (after.supports entry.node).items =
    (table.supports entry.node).items.filter fun support => support.basis.holds chart facts table
  others : ∀ node, entry.node ≠ node → after.at? node = table.at? node
  listed : after.keys = table.keys
  verdict_iff : verdict = true ↔ after.isActive entry.node = true
  again : entry.check chart facts after = (verdict, after)
  along : ∀ rest, sweepEntries chart facts table (entry :: rest) =
    ((entry, verdict) :: (sweepEntries chart facts after rest).1, (sweepEntries chart facts after rest).2)

/-- A look at an entry keeps just those supports of its node that hold in the table it is given, in their
order, and changes no other row of the table and adds none. Its verdict is whether the node is active
then, and a second look says the same and changes nothing. A sweep along a strand consists of such looks,
each in the table that the one before it left. -/
theorem check_exact (chart : Chart) (facts : Facts) (table : Activation) (entry : Entry) :
    entry.Checked chart facts table (entry.check chart facts table).1
      (entry.check chart facts table).2 := by
  rw [check_eq_sweep]
  constructor
  · rw [Activation.sweep, Activation.supports_retain, if_pos rfl]
    rfl
  · intro node apart
    exact Activation.at?_retain_of_ne _ apart
  · exact Activation.keys_retain table entry.node _
  · rfl
  · rw [check_eq_sweep, Activation.sweep_sweep]
  · intro rest
    exact sweepEntries_cons table entry rest

/-- A node that has lost its outside support is kept by its own loop, since it is judged while it is
active. -/
example :
    let chart : Chart := ⟨[], [], [⟨⟨0⟩, ⟨0⟩, none⟩], [], ∅⟩
    let table : Activation :=
      ((∅ : Activation).add ⟨0⟩ ⟨⟨1⟩, .external none (.known "p")⟩).add ⟨0⟩ ⟨⟨2⟩, .edge ⟨0⟩⟩
    let (verdict, after) := check chart ∅ table ⟨⟨0⟩, ⟨⟨1⟩, .external none (.known "p")⟩⟩
    verdict = true ∧ (after.supports ⟨0⟩).keys = [⟨2⟩] := by decide

end Entry

end Flowchart
