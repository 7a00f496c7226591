import Flowchart.Roster
import Mathlib.Data.List.Nodup

/-!
What is in a roster after a write, and where: an item that is written over keeps its place, so the
items before and after it stay as they were.
-/
namespace Flowchart

namespace Roster

variable {α κ : Type} {key : α → κ}

theorem isEmpty_iff {r : Roster key} : r.isEmpty = true ↔ ∀ a, a ∉ r.items := by
  simp only [isEmpty, List.isEmpty_iff, List.eq_nil_iff_forall_not_mem]

theorem isEmpty_eq_false_iff {r : Roster key} : r.isEmpty = false ↔ ∃ a, a ∈ r.items := by
  rw [← Bool.not_eq_true, isEmpty_iff]
  simp only [not_forall, not_not]

@[simp] theorem not_mem_empty (a : α) : a ∉ (∅ : Roster key).items := List.not_mem_nil

@[simp] theorem mem_filter {r : Roster key} {keep : α → Bool} {a : α} :
    a ∈ (r.filter keep).items ↔ a ∈ r.items ∧ keep a = true := List.mem_filter

/-- No two items share their key. -/
theorem eq_of_key_eq {r : Roster key} {a b : α} (ha : a ∈ r.items) (hb : b ∈ r.items)
    (same : key a = key b) : a = b := List.inj_on_of_nodup_map r.distinct ha hb same

variable [DecidableEq κ]

@[simp] theorem mem_erase {r : Roster key} {k : κ} {a : α} :
    a ∈ (r.erase k).items ↔ a ∈ r.items ∧ key a ≠ k := by
  simp only [erase, mem_filter, Bool.not_eq_eq_eq_not, Bool.not_true, decide_eq_false_iff_not, ne_eq]

theorem get?_eq_some_iff {r : Roster key} {k : κ} {a : α} :
    r.get? k = some a ↔ a ∈ r.items ∧ key a = k := by
  refine ⟨get?_eq_some, fun ⟨mem, same⟩ => ?_⟩
  cases found : r.get? k with
  | none => exact absurd (List.mem_map.2 ⟨a, mem, same⟩) (get?_eq_none_iff.1 found)
  | some b =>
      obtain ⟨memb, sameb⟩ := get?_eq_some found
      rw [eq_of_key_eq memb mem (sameb.trans same.symm)]

theorem contains_eq_isSome (r : Roster key) (k : κ) : r.contains k = (r.get? k).isSome := by
  rw [Bool.eq_iff_iff, contains_iff, Option.isSome_iff_ne_none, ne_eq, get?_eq_none_iff, not_not]

/-- What stands before and after an item has other keys. -/
theorem exists_split_of_get? {r : Roster key} {k : κ} {b : α} (found : r.get? k = some b) :
    ∃ before after, r.items = before ++ b :: after ∧ (∀ c ∈ before, key c ≠ k) ∧
      ∀ c ∈ after, key c ≠ k := by
  obtain ⟨mem, rfl⟩ := get?_eq_some found
  obtain ⟨before, after, split⟩ := List.append_of_mem mem
  have distinct := r.distinct
  rw [split, List.map_append, List.map_cons, List.nodup_append, List.nodup_cons] at distinct
  obtain ⟨-, ⟨later, -⟩, apart⟩ := distinct
  refine ⟨before, after, split, fun c here => ?_, fun c here same => ?_⟩
  · exact apart _ (List.mem_map_of_mem here) _ (List.mem_cons_self ..)
  · exact later (List.mem_map.2 ⟨c, here, same⟩)

theorem items_insert_of_split {r : Roster key} {a b : α} {before after : List α}
    (split : r.items = before ++ b :: after) (same : key b = key a) (earlier : ∀ c ∈ before, key c ≠ key a)
    (later : ∀ c ∈ after, key c ≠ key a) : (r.insert a).items = before ++ a :: after := by
  have mem : b ∈ r.items := split ▸ List.mem_append_right before (List.mem_cons_self ..)
  rw [items_insert_of_mem (same ▸ List.mem_map_of_mem mem), split, List.map_append, List.map_cons,
    if_pos same]
  congr 1
  · exact (List.map_congr_left fun c here => if_neg (earlier c here)).trans (List.map_id _)
  · congr 1
    exact (List.map_congr_left fun c here => if_neg (later c here)).trans (List.map_id _)

/-- Writing over an item leaves the items before and after it in place. -/
theorem items_insert_of_get? {r : Roster key} {a b : α} (found : r.get? (key a) = some b) :
    ∃ before after, r.items = before ++ b :: after ∧ (r.insert a).items = before ++ a :: after := by
  obtain ⟨before, after, split, earlier, later⟩ := exists_split_of_get? found
  exact ⟨before, after, split, items_insert_of_split split (get?_eq_some found).2 earlier later⟩

/-- Erasing an item leaves the items before and after it in place. -/
theorem items_erase_of_get? {r : Roster key} {k : κ} {b : α} (found : r.get? k = some b) :
    ∃ before after, r.items = before ++ b :: after ∧ (r.erase k).items = before ++ after := by
  obtain ⟨before, after, split, earlier, later⟩ := exists_split_of_get? found
  refine ⟨before, after, split, ?_⟩
  simp only [erase, filter, split, List.filter_append, List.filter_cons, (get?_eq_some found).2,
    decide_true, Bool.not_true, Bool.false_eq_true, if_false]
  congr 1
  · exact List.filter_eq_self.2 fun c here => by simpa using earlier c here
  · exact List.filter_eq_self.2 fun c here => by simpa using later c here

/-- Writing an item where it stands already changes nothing. -/
theorem insert_of_get? {r : Roster key} {a : α} (found : r.get? (key a) = some a) : r.insert a = r := by
  obtain ⟨before, after, was, now⟩ := items_insert_of_get? found
  exact Roster.ext (now.trans was.symm)

theorem items_insert_of_fresh {r : Roster key} {a : α} (fresh : r.get? (key a) = none) :
    (r.insert a).items = r.items ++ [a] := items_insert_of_not_mem (get?_eq_none_iff.1 fresh)

@[simp] theorem mem_insert {r : Roster key} {a b : α} :
    b ∈ (r.insert a).items ↔ b = a ∨ (b ∈ r.items ∧ key b ≠ key a) := by
  by_cases present : key a ∈ r.keys
  · rw [items_insert_of_mem present, List.mem_map]
    constructor
    · rintro ⟨c, mem, rfl⟩
      split
      · exact .inl rfl
      · exact .inr ⟨mem, ‹_›⟩
    · rintro (rfl | ⟨mem, apart⟩)
      · obtain ⟨c, mem, same⟩ := List.mem_map.1 present
        exact ⟨c, mem, if_pos same⟩
      · exact ⟨b, mem, if_neg apart⟩
  · rw [items_insert_of_not_mem present, List.mem_append, List.mem_singleton]
    constructor
    · rintro (mem | rfl)
      · exact .inr ⟨mem, fun same => present (List.mem_map.2 ⟨b, mem, same⟩)⟩
      · exact .inl rfl
    · rintro (rfl | ⟨mem, -⟩)
      · exact .inr rfl
      · exact .inl mem

theorem mem_keys_insert {r : Roster key} {a : α} {k : κ} :
    k ∈ (r.insert a).keys ↔ k ∈ r.keys ∨ k = key a := by
  rw [keys_insert]
  split
  · rename_i present
    exact ⟨.inl, fun either => either.elim id fun same => same ▸ present⟩
  · rw [List.mem_append, List.mem_singleton]

theorem mem_keys_erase {r : Roster key} {k j : κ} : j ∈ (r.erase k).keys ↔ j ∈ r.keys ∧ j ≠ k := by
  rw [keys_erase, List.mem_filter, Bool.not_eq_true', decide_eq_false_iff_not]

/-- The later of two writes to one key counts. -/
theorem insert_insert (r : Roster key) {a b : α} (same : key b = key a) :
    (r.insert a).insert b = r.insert b := by
  have present : key b ∈ (r.insert a).keys := mem_keys_insert.2 (.inr same)
  apply Roster.ext
  rw [items_insert_of_mem present]
  by_cases held : key a ∈ r.keys
  · rw [items_insert_of_mem held, items_insert_of_mem (same ▸ held), List.map_map]
    refine List.map_congr_left fun c _ => ?_
    by_cases hit : key c = key a
    · simp [hit, same]
    · simp [hit, same]
  · rw [items_insert_of_not_mem held, items_insert_of_not_mem (same ▸ held), List.map_append]
    congr 1
    · refine (List.map_congr_left fun c mem => if_neg fun hit => held ?_).trans (List.map_id _)
      exact List.mem_map.2 ⟨c, mem, hit.trans same⟩
    · simp [same]

/-- Writes to different keys commute if the key of the second is present. -/
theorem insert_comm_of_mem {r : Roster key} {a b : α} (present : key b ∈ r.keys) (apart : key a ≠ key b) :
    (r.insert a).insert b = (r.insert b).insert a := by
  have still : key b ∈ (r.insert a).keys := mem_keys_insert.2 (.inl present)
  apply Roster.ext
  by_cases also : key a ∈ r.keys
  · have kept : key a ∈ (r.insert b).keys := mem_keys_insert.2 (.inl also)
    rw [items_insert_of_mem still, items_insert_of_mem also, items_insert_of_mem kept,
      items_insert_of_mem present, List.map_map, List.map_map]
    refine List.map_congr_left fun c _ => ?_
    by_cases first : key c = key a
    · simp [first, apart]
    · by_cases second : key c = key b
      · simp [second, apart.symm]
      · simp [first, second]
  · have new : key a ∉ (r.insert b).keys := fun mem => (mem_keys_insert.1 mem).elim also apart
    rw [items_insert_of_mem still, items_insert_of_not_mem also, items_insert_of_not_mem new,
      items_insert_of_mem present, List.map_append]
    simp [apart]

/-- Writes to different keys commute if one of the keys is present. -/
theorem insert_comm {r : Roster key} {a b : α} (present : key a ∈ r.keys ∨ key b ∈ r.keys)
    (apart : key a ≠ key b) : (r.insert a).insert b = (r.insert b).insert a := by
  rcases present with first | second
  · exact (insert_comm_of_mem first apart.symm).symm
  · exact insert_comm_of_mem second apart

theorem foldl_insert_comm {r : Roster key} {items : List α} {a : α}
    (present : key a ∈ r.keys ∨ ∀ b ∈ items, key b ∈ r.keys) (apart : ∀ b ∈ items, key b ≠ key a) :
    items.foldl insert (r.insert a) = (items.foldl insert r).insert a := by
  induction items generalizing r with
  | nil => rfl
  | cons b rest ih =>
      rw [List.forall_mem_cons] at present apart
      have grown {k : κ} (mem : k ∈ r.keys) : k ∈ (r.insert b).keys := mem_keys_insert.2 (.inl mem)
      rw [List.foldl_cons, List.foldl_cons, insert_comm (present.imp_right And.left) apart.1.symm]
      exact ih (present.imp grown fun held c here => grown (held.2 c here)) apart.2

theorem get?_foldl_insert_of_ne {r : Roster key} {items : List α} {k : κ}
    (apart : ∀ b ∈ items, key b ≠ k) : (items.foldl insert r).get? k = r.get? k := by
  induction items generalizing r with
  | nil => rfl
  | cons b rest ih =>
      rw [List.forall_mem_cons] at apart
      rw [List.foldl_cons, ih apart.2, get?_insert_of_ne apart.1]

/-- The roster with the items of another written over it, in their order. -/
def overlay (r s : Roster key) : Roster key := s.items.foldl insert r

theorem get?_overlay (r : Roster key) {s : Roster key} {k : κ} (present : k ∈ s.keys) :
    (r.overlay s).get? k = s.get? k := by
  cases found : s.get? k with
  | none => exact absurd present (get?_eq_none_iff.1 found)
  | some b =>
      obtain ⟨before, after, split, -, later⟩ := exists_split_of_get? found
      obtain ⟨-, rfl⟩ := get?_eq_some found
      rw [overlay, split, List.foldl_append, List.foldl_cons, get?_foldl_insert_of_ne later,
        get?_insert_self]

/-- What is written into the upper roster is written into the overlay. -/
theorem overlay_insert (r s : Roster key) (a : α) : r.overlay (s.insert a) = (r.overlay s).insert a := by
  cases found : s.get? (key a) with
  | none =>
      rw [overlay, overlay, items_insert_of_fresh found, List.foldl_append, List.foldl_cons,
        List.foldl_nil]
  | some old =>
      obtain ⟨before, after, split, earlier, later⟩ := exists_split_of_get? found
      have same : key old = key a := (get?_eq_some found).2
      have held : key a ∈ ((before.foldl insert r).insert old).keys := mem_keys_insert.2 (.inr same.symm)
      rw [overlay, overlay, items_insert_of_split split same earlier later, split, List.foldl_append,
        List.foldl_append, List.foldl_cons, List.foldl_cons, ← foldl_insert_comm (.inl held) later,
        insert_insert _ same.symm]

/-- Items that stand below as they are change nothing. -/
theorem overlay_filter (r : Roster key) (keep : α → Bool) : r.overlay (r.filter keep) = r := by
  have unchanged (items : List α) (below : ∀ a ∈ items, a ∈ r.items) : items.foldl insert r = r := by
    induction items with
    | nil => rfl
    | cons a rest ih =>
        rw [List.forall_mem_cons] at below
        rw [List.foldl_cons, insert_of_get? (get?_eq_some_iff.2 ⟨below.1, rfl⟩)]
        exact ih below.2
  exact unchanged _ fun a mem => (mem_filter.1 mem).1

/-- Items whose keys are present below can be written first. -/
theorem foldl_insert_filter {r : Roster key} {items : List α} {keep : α → Bool}
    (distinct : (items.map key).Nodup) (held : ∀ a ∈ items, keep a = true → key a ∈ r.keys) :
    (items.filter fun a => !keep a).foldl insert ((items.filter keep).foldl insert r) =
      items.foldl insert r := by
  induction items generalizing r with
  | nil => rfl
  | cons a rest ih =>
      rw [List.map_cons, List.nodup_cons] at distinct
      rw [List.forall_mem_cons] at held
      have still : ∀ b ∈ rest, keep b = true → key b ∈ (r.insert a).keys := fun b here kept =>
        mem_keys_insert.2 (.inl (held.2 b here kept))
      rw [List.foldl_cons, ← ih distinct.2 still]
      cases kept : keep a with
      | true => simp [kept]
      | false =>
          have apart : ∀ b ∈ rest.filter keep, key b ≠ key a := fun b here same =>
            distinct.1 (List.mem_map.2 ⟨b, (List.mem_filter.1 here).1, same⟩)
          have present : ∀ b ∈ rest.filter keep, key b ∈ r.keys := fun b here =>
            held.2 b (List.mem_filter.1 here).1 (List.mem_filter.1 here).2
          rw [foldl_insert_comm (.inr present) apart]
          simp [kept]

theorem foldl_insert_overlay_filter {r s : Roster key} {keep : α → Bool}
    (held : ∀ a ∈ s.items, keep a = true → key a ∈ r.keys) :
    (s.items.filter fun a => !keep a).foldl insert (r.overlay (s.filter keep)) = r.overlay s :=
  foldl_insert_filter s.distinct held

/-- An item whose key is present is not added. -/
theorem items_insertNew (r : Roster key) (a : α) :
    (r.insertNew a).items = if key a ∈ r.keys then r.items else r.items ++ [a] := by
  unfold insertNew
  by_cases present : key a ∈ r.keys
  · rw [if_pos (contains_iff.2 present), if_pos present]
  · rw [if_neg fun held => present (contains_iff.1 held), if_neg present,
      items_insert_of_not_mem present]

theorem mem_insertNew {r : Roster key} {a b : α} :
    b ∈ (r.insertNew a).items ↔ b ∈ r.items ∨ (b = a ∧ key a ∉ r.keys) := by
  rw [items_insertNew]
  split
  · rename_i present
    simp [present]
  · rename_i absent
    simp [absent]

end Roster

namespace Listing

variable {κ α : Type} [DecidableEq κ]

theorem at?_eq_some_iff {l : Listing κ α} {k : κ} {a : α} :
    l.at? k = some a ↔ (k, a) ∈ l.items := by
  simp only [at?, Option.map_eq_some_iff, Roster.get?_eq_some_iff]
  constructor
  · rintro ⟨⟨j, b⟩, ⟨mem, rfl⟩, rfl⟩
    exact mem
  · exact fun mem => ⟨(k, a), ⟨mem, rfl⟩, rfl⟩

theorem at?_eq_none_iff {l : Listing κ α} {k : κ} : l.at? k = none ↔ k ∉ l.keys := by
  rw [at?, Option.map_eq_none_iff, Roster.get?_eq_none_iff]

theorem at?_set (l : Listing κ α) (k j : κ) (a : α) :
    (l.set k a).at? j = if k = j then some a else l.at? j := by
  split
  · subst j
    exact at?_set_self l k a
  · exact at?_set_of_ne a ‹_›

theorem at?_erase (l : Listing κ α) (k j : κ) :
    at? (l.erase k) j = if k = j then none else l.at? j := by
  split
  · subst j
    exact at?_erase_self l k
  · exact at?_erase_of_ne ‹_›

end Listing

end Flowchart
