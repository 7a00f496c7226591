import Flowchart.Json
import Mathlib.Data.List.Basic
import Mathlib.Data.List.Nodup

/-!
Documents whose fields stand in another order. Writers of documents differ in the order in which they
put the fields of an object. Where an object names no field twice, a reader that looks its fields up by
name does not see the difference.
-/
namespace Flowchart.Json

/-- A way to order the fields of an object. -/
structure FieldOrder where
  apply : List (String × Json) → List (String × Json)
  perm : ∀ fields, (apply fields).Perm fields

/-- The fields as they were written. -/
def FieldOrder.asWritten : FieldOrder := ⟨id, fun _ => .refl _⟩

mutual
/-- The document with the fields of all its objects ordered. -/
def arrange (order : FieldOrder) : Json → Json
  | .arr items => .arr (arrangeItems order items)
  | .obj fields => .obj (order.apply (arrangeFields order fields))
  | document => document

def arrangeItems (order : FieldOrder) : List Json → List Json
  | [] => []
  | item :: rest => item.arrange order :: arrangeItems order rest

def arrangeFields (order : FieldOrder) : List (String × Json) → List (String × Json)
  | [] => []
  | (name, value) :: rest => (name, value.arrange order) :: arrangeFields order rest
end

mutual
/-- No object in the document names a field twice. -/
def Distinct : Json → Prop
  | .arr items => DistinctItems items
  | .obj fields => (fields.map Prod.fst).Nodup ∧ DistinctFields fields
  | _ => True

def DistinctItems : List Json → Prop
  | [] => True
  | item :: rest => item.Distinct ∧ DistinctItems rest

def DistinctFields : List (String × Json) → Prop
  | [] => True
  | (_, value) :: rest => value.Distinct ∧ DistinctFields rest
end

section Arrange

variable (order : FieldOrder)

theorem arrangeItems_eq_map (items : List Json) :
    arrangeItems order items = items.map (arrange order) := by
  induction items with
  | nil => rfl
  | cons item rest ih => rw [arrangeItems, ih, List.map_cons]

theorem arrangeFields_eq_map (fields : List (String × Json)) :
    arrangeFields order fields = fields.map fun field => (field.1, field.2.arrange order) := by
  induction fields with
  | nil => rfl
  | cons field rest ih => rw [arrangeFields, ih, List.map_cons]

/-- The fields of an object in a document whose fields are ordered. -/
def FieldOrder.fields (fields : List (String × Json)) : List (String × Json) :=
  order.apply (arrangeFields order fields)

theorem arrange_obj (fields : List (String × Json)) :
    (obj fields).arrange order = obj (order.fields fields) := by
  rw [arrange, FieldOrder.fields]

mutual
theorem arrange_asWritten : ∀ document : Json, document.arrange .asWritten = document
  | .arr items => by rw [arrange, arrangeItems_asWritten items]
  | .obj fields => by
      rw [arrange, arrangeFields_asWritten fields]
      rfl
  | .null => rfl
  | .bool _ => rfl
  | .int _ => rfl
  | .decimal _ _ => rfl
  | .str _ => rfl

theorem arrangeItems_asWritten : ∀ items : List Json, arrangeItems .asWritten items = items
  | [] => rfl
  | item :: rest => by rw [arrangeItems, arrange_asWritten item, arrangeItems_asWritten rest]

theorem arrangeFields_asWritten :
    ∀ fields : List (String × Json), arrangeFields .asWritten fields = fields
  | [] => rfl
  | (name, value) :: rest => by
      rw [arrangeFields, arrange_asWritten value, arrangeFields_asWritten rest]
end

end Arrange

section Field

variable {name : String} {fields : List (String × Json)} {value : Json}

theorem mem_of_field?_eq_some (held : field? name fields = some value) : (name, value) ∈ fields := by
  induction fields with
  | nil => cases held
  | cons field rest ih =>
      rw [field?] at held
      split at held
      · next same =>
          rw [Option.some.injEq] at held
          rw [← same, ← held]
          exact List.mem_cons_self
      · exact List.mem_cons_of_mem _ (ih held)

/-- A field of an object that names it once is found, wherever it stands. -/
theorem field?_eq_some_iff (distinct : (fields.map Prod.fst).Nodup) :
    field? name fields = some value ↔ (name, value) ∈ fields := by
  refine ⟨mem_of_field?_eq_some, fun mem => ?_⟩
  induction fields with
  | nil => cases mem
  | cons field rest ih =>
      rw [List.map_cons, List.nodup_cons] at distinct
      rw [field?]
      obtain rfl | later := List.mem_cons.1 mem
      · exact if_pos rfl
      · have other : field.1 ≠ name := by
          rintro rfl
          exact distinct.1 (List.mem_map.2 ⟨_, later, rfl⟩)
        rw [if_neg other, ih distinct.2 later]

theorem field?_perm {others : List (String × Json)} (same : fields.Perm others)
    (distinct : (others.map Prod.fst).Nodup) : field? name fields = field? name others := by
  have distinct' : (fields.map Prod.fst).Nodup := (same.map Prod.fst).nodup_iff.2 distinct
  refine Option.ext fun value => ?_
  rw [field?_eq_some_iff distinct', field?_eq_some_iff distinct, same.mem_iff]

theorem field?_map (change : Json → Json) :
    field? name (fields.map fun field => (field.1, change field.2)) =
      (field? name fields).map change := by
  induction fields with
  | nil => rfl
  | cons field rest ih =>
      rw [List.map_cons, field?, field?, ih]
      split <;> rfl

/-- A field holds the same in every order, up to the order within it. -/
theorem field?_fields (order : FieldOrder) (distinct : (fields.map Prod.fst).Nodup) :
    field? name (order.fields fields) = (field? name fields).map (arrange order) := by
  have same : (order.fields fields).Perm (arrangeFields order fields) := order.perm _
  rw [arrangeFields_eq_map] at same
  rw [field?_perm same, field?_map]
  simpa [Function.comp_def] using distinct

/-- The fields of an object are nested less deeply than the object. -/
theorem depth_le_depthFields (held : field? name fields = some value) :
    value.depth ≤ depthFields fields := by
  induction fields with
  | nil => cases held
  | cons field rest ih =>
      rw [field?] at held
      rw [depthFields]
      split at held
      · rw [Option.some.injEq] at held
        rw [held]
        exact Nat.le_max_left _ _
      · exact Nat.le_trans (ih held) (Nat.le_max_right _ _)

end Field

/-- A reader takes back what a writer writes, whatever the order of the fields; and no object that is
written names a field twice. -/
structure Faithful {α : Type} (write : α → Json) (read? : Json → Option α) : Prop where
  read : ∀ a, read? (write a) = some a
  arranged : ∀ order a, read? ((write a).arrange order) = some a
  distinct : ∀ a, (write a).Distinct

namespace Faithful

variable {α : Type} {write : α → Json} {read? : Json → Option α}

theorem of_arranged (arranged : ∀ order a, read? ((write a).arrange order) = some a)
    (distinct : ∀ a, (write a).Distinct) : Faithful write read? where
  read a := by
    have taken := arranged .asWritten a
    rwa [arrange_asWritten] at taken
  arranged := arranged
  distinct := distinct

theorem str : Faithful .str str? := .of_arranged (fun _ _ => rfl) fun _ => trivial

theorem bool : Faithful .bool bool? := .of_arranged (fun _ _ => rfl) fun _ => trivial

theorem int64 : Faithful ofInt64 int64? := by
  refine .of_arranged (fun order n => ?_) fun _ => trivial
  have fits : Int64.minValue.toInt ≤ n.toInt ∧ n.toInt ≤ Int64.maxValue.toInt :=
    ⟨Int64.minValue_le_toInt n, Int64.toInt_le n⟩
  rw [ofInt64, arrange, int64?, if_pos fits, Int64.ofInt_toInt]
  all_goals exact nofun

theorem uint64 : Faithful ofUInt64 uint64? := by
  refine .of_arranged (fun order n => ?_) fun _ => trivial
  have fits : (0 : Int) ≤ (n.toNat : Int) ∧ (n.toNat : Int).toNat < UInt64.size :=
    ⟨Int.natCast_nonneg _, UInt64.toNat_lt_size n⟩
  rw [ofUInt64, arrange, uint64?, if_pos fits, Int.toNat_natCast, UInt64.ofNat_toNat]
  all_goals exact nofun

/-- A list is written as the array of what its items are written as. -/
theorem list (faithful : Faithful write read?) :
    Faithful (fun items : List α => .arr (items.map write)) (list? read?) := by
  refine .of_arranged (fun order items => ?_) fun items => ?_
  · rw [arrange, arrangeItems_eq_map, list?]
    induction items with
    | nil => rfl
    | cons item rest ih =>
        rw [List.map_cons, List.map_cons, List.mapM_cons, faithful.arranged order item, ih]
        rfl
  · rw [Distinct]
    induction items with
    | nil => trivial
    | cons item rest ih => exact ⟨faithful.distinct item, ih⟩

/-- Nothing is written as `null`, which stands for no value otherwise. -/
theorem orNull (faithful : Faithful write read?)
    (present : ∀ order a, (write a).arrange order ≠ .null) :
    Faithful (orNull write) (nullable read?) := by
  refine .of_arranged (fun order held => ?_) fun held => ?_
  · cases held with
    | none => rfl
    | some a =>
        rw [Json.orNull, nullable, faithful.arranged order a, Option.map_some]
        exact present order a
  · cases held with
    | none => trivial
    | some a => exact faithful.distinct a

section Record

variable {name : String} {fields : List (String × Json)} {a : α}
  (faithful : Faithful write read?) (order : FieldOrder) (distinct : (fields.map Prod.fst).Nodup)

include faithful distinct

theorem required_eq (held : field? name fields = some (write a)) :
    required name read? (order.fields fields) = some a := by
  rw [required, field?_fields order distinct, held, Option.map_some, Option.bind_some,
    faithful.arranged]

/-- A field that is left out when idle is read as it was, if that is what a missing field means. -/
theorem defaulting_eq {otherwise : α} (idle : Bool)
    (held : field? name fields = if idle then none else some (write a))
    (meant : idle = true → a = otherwise) :
    defaulting name otherwise read? (order.fields fields) = some a := by
  rw [defaulting, field?_fields order distinct, held]
  cases idle with
  | true => rw [if_pos rfl, Option.map_none, meant rfl]
  | false =>
      rw [if_neg Bool.false_ne_true, Option.map_some]
      exact faithful.arranged order a

theorem optional_eq {held : Option α} (present : ∀ order a, (write a).arrange order ≠ .null)
    (found : field? name fields = held.map write) :
    optional name read? (order.fields fields) = some held := by
  have left : field? name fields = if held.isNone then none else some (Json.orNull write held) := by
    rw [found]
    cases held <;> rfl
  exact (faithful.orNull present).defaulting_eq order distinct held.isNone left Option.isNone_iff_eq_none.1

end Record

end Faithful

end Flowchart.Json
