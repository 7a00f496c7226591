/-!
Insertion-ordered collections whose items carry distinct keys. The order of a roster is part of
its value: writing an item whose key is present keeps the place of that key, and erasing a key
keeps the order of the others.
-/
namespace Flowchart

/-- Items in the order their keys were first inserted, no key twice. -/
@[ext] structure Roster {α κ : Type} (key : α → κ) where
  items : List α
  distinct : (items.map key).Nodup

namespace Roster

variable {α κ : Type} {key : α → κ}

def empty : Roster key := ⟨[], .nil⟩

instance : EmptyCollection (Roster key) := ⟨empty⟩

instance : Inhabited (Roster key) := ⟨empty⟩

instance [DecidableEq α] : DecidableEq (Roster key) := fun r s =>
  decidable_of_iff (r.items = s.items) Roster.ext_iff.symm

/-- The keys in order. -/
def keys (r : Roster key) : List κ := r.items.map key

def size (r : Roster key) : Nat := r.items.length

def isEmpty (r : Roster key) : Bool := r.items.isEmpty

/-- The items that pass `keep`, in their order. -/
def filter (r : Roster key) (keep : α → Bool) : Roster key where
  items := r.items.filter keep
  distinct := r.distinct.sublist (List.filter_sublist.map key)

variable [DecidableEq κ]

def get? (r : Roster key) (k : κ) : Option α := r.items.find? fun a => decide (key a = k)

def contains (r : Roster key) (k : κ) : Bool := r.items.any fun a => decide (key a = k)

def erase (r : Roster key) (k : κ) : Roster key := r.filter fun a => !decide (key a = k)

/-- The item list with `a` written over the items of its key. -/
private def overwrite (key : α → κ) (a : α) (items : List α) : List α :=
  items.map fun b => if key b = key a then a else b

private theorem map_overwrite (a : α) (items : List α) :
    (overwrite key a items).map key = items.map key := by
  simp only [overwrite, List.map_map]
  refine List.map_congr_left fun b _ => ?_
  by_cases h : key b = key a <;> simp [h]

theorem contains_iff {r : Roster key} {k : κ} : r.contains k = true ↔ k ∈ r.keys := by
  simp [contains, keys]

/-- Writes `a` in the place of the item with its key, or at the end if there is none. -/
def insert (r : Roster key) (a : α) : Roster key :=
  if h : r.contains (key a) then
    ⟨overwrite key a r.items, by rw [map_overwrite]; exact r.distinct⟩
  else
    ⟨r.items ++ [a], by
      have fresh : key a ∉ r.items.map key := fun m => h (contains_iff.2 m)
      rw [List.map_append, List.nodup_append]
      refine ⟨r.distinct, by simp, ?_⟩
      intro x hx y hy same
      simp only [List.map_cons, List.map_nil, List.mem_singleton] at hy
      exact fresh (hy ▸ same ▸ hx)⟩

/-- Adds `a` at the end unless its key is present. -/
def insertNew (r : Roster key) (a : α) : Roster key :=
  if r.contains (key a) then r else r.insert a

def ofList (items : List α) : Roster key := items.foldl insert empty

theorem items_insert_of_mem {r : Roster key} {a : α} (present : key a ∈ r.keys) :
    (r.insert a).items = r.items.map fun b => if key b = key a then a else b := by
  unfold insert
  rw [dif_pos (contains_iff.2 present)]
  rfl

theorem items_insert_of_not_mem {r : Roster key} {a : α} (absent : key a ∉ r.keys) :
    (r.insert a).items = r.items ++ [a] := by
  unfold insert
  rw [dif_neg fun h => absent (contains_iff.1 h)]

theorem keys_insert (r : Roster key) (a : α) :
    (r.insert a).keys = if key a ∈ r.keys then r.keys else r.keys ++ [key a] := by
  by_cases h : key a ∈ r.keys
  · rw [if_pos h, keys, items_insert_of_mem h]
    exact map_overwrite a r.items
  · rw [if_neg h, keys, items_insert_of_not_mem h]
    simp [keys]

theorem keys_erase (r : Roster key) (k : κ) :
    (r.erase k).keys = r.keys.filter fun x => !decide (x = k) := by
  simp only [erase, filter, keys, List.filter_map]
  rfl

theorem get?_eq_some {r : Roster key} {k : κ} {a : α} (h : r.get? k = some a) :
    a ∈ r.items ∧ key a = k :=
  ⟨List.mem_of_find?_eq_some h, by simpa using List.find?_some h⟩

theorem get?_eq_none_iff {r : Roster key} {k : κ} : r.get? k = none ↔ k ∉ r.keys := by
  simp [get?, keys]

@[simp] theorem get?_insert_self (r : Roster key) (a : α) : (r.insert a).get? (key a) = some a := by
  have present : key a ∈ (r.insert a).keys := by
    rw [keys_insert]; split <;> simp_all
  cases h : (r.insert a).get? (key a) with
  | none => exact absurd present (get?_eq_none_iff.1 h)
  | some b =>
    obtain ⟨mem, same⟩ := get?_eq_some h
    congr 1
    by_cases held : key a ∈ r.keys
    · rw [items_insert_of_mem held] at mem
      obtain ⟨c, _, rfl⟩ := List.mem_map.1 mem
      by_cases hc : key c = key a
      · simp [hc]
      · simp [hc] at same
    · rw [items_insert_of_not_mem held] at mem
      rcases List.mem_append.1 mem with old | new
      · exact absurd (List.mem_map.2 ⟨b, old, same⟩) held
      · simpa using new

theorem get?_insert_of_ne {r : Roster key} {a : α} {k : κ} (other : key a ≠ k) :
    (r.insert a).get? k = r.get? k := by
  unfold get?
  by_cases held : key a ∈ r.keys
  · rw [items_insert_of_mem held]
    induction r.items with
    | nil => rfl
    | cons b rest ih =>
      by_cases hb : key b = key a
      · simp [hb, other, ih]
      · simp [hb, List.find?_cons, ih]
  · rw [items_insert_of_not_mem held]
    simp [List.find?_append, other]

@[simp] theorem get?_erase_self (r : Roster key) (k : κ) : (r.erase k).get? k = none := by
  rw [get?_eq_none_iff, keys_erase]; simp

theorem get?_erase_of_ne {r : Roster key} {k j : κ} (other : k ≠ j) :
    (r.erase k).get? j = r.get? j := by
  simp only [get?, erase, filter, List.find?_filter]
  congr 1
  funext a
  by_cases h : key a = j
  · simp [h, Ne.symm other]
  · simp [h]

end Roster

/-- A roster of values listed under keys. -/
abbrev Listing (κ α : Type) := Roster (Prod.fst : κ × α → κ)

namespace Listing

variable {κ α : Type} [DecidableEq κ]

/-- The value listed under `k`. -/
def at? (l : Listing κ α) (k : κ) : Option α := (l.get? k).map Prod.snd

/-- Lists `a` under `k`, keeping the place of a key that is present. -/
def set (l : Listing κ α) (k : κ) (a : α) : Listing κ α := l.insert (k, a)

@[simp] theorem at?_set_self (l : Listing κ α) (k : κ) (a : α) : (l.set k a).at? k = some a := by
  have h := Roster.get?_insert_self l (k, a)
  simp only [at?, set]
  exact congrArg (Option.map Prod.snd) h

theorem at?_set_of_ne {l : Listing κ α} {k j : κ} (a : α) (other : k ≠ j) :
    (l.set k a).at? j = l.at? j := by
  simp only [at?, set]
  exact congrArg (Option.map Prod.snd) (Roster.get?_insert_of_ne (r := l) (a := (k, a)) other)

@[simp] theorem at?_erase_self (l : Listing κ α) (k : κ) : at? (l.erase k) k = none := by
  simp [at?, Roster.get?_erase_self]

theorem at?_erase_of_ne {l : Listing κ α} {k j : κ} (other : k ≠ j) :
    at? (l.erase k) j = l.at? j := by
  simp [at?, Roster.get?_erase_of_ne other]

end Listing

end Flowchart
