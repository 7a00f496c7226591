/-!
JSON documents and the two written forms of a record: an object that names its fields, and an
array that lists them in declaration order. Readers return `none` on a document that does not fit.
-/
namespace Flowchart

/-- A JSON document. A number written with a fraction is `decimal`, even when its value is whole. -/
inductive Json where
  | null
  | bool (b : Bool)
  | int (n : Int)
  | decimal (mantissa : Int) (places : Nat)
  | str (s : String)
  | arr (items : List Json)
  | obj (fields : List (String × Json))

namespace Json

instance : Inhabited Json := ⟨.null⟩

mutual
/-- The number of nested documents on the longest way down. -/
def depth : Json → Nat
  | .arr items => depthItems items + 1
  | .obj fields => depthFields fields + 1
  | _ => 1

def depthItems : List Json → Nat
  | [] => 0
  | item :: rest => max item.depth (depthItems rest)

def depthFields : List (String × Json) → Nat
  | [] => 0
  | (_, value) :: rest => max value.depth (depthFields rest)
end

def bool? : Json → Option Bool
  | .bool b => some b
  | _ => none

def str? : Json → Option String
  | .str s => some s
  | _ => none

/-- A number written without a fraction that fits 64 signed bits. -/
def int64? : Json → Option Int64
  | .int n =>
    if Int64.minValue.toInt ≤ n ∧ n ≤ Int64.maxValue.toInt then some (Int64.ofInt n) else none
  | _ => none

/-- A number written without a fraction that fits 64 unsigned bits. -/
def uint64? : Json → Option UInt64
  | .int n => if 0 ≤ n ∧ n.toNat < UInt64.size then some (UInt64.ofNat n.toNat) else none
  | _ => none

/-- An array all of whose items can be read. -/
def list? {α : Type} (item? : Json → Option α) : Json → Option (List α)
  | .arr items => items.mapM item?
  | _ => none

/-- The value of the named field of an object. -/
def field? (name : String) : List (String × Json) → Option Json
  | [] => none
  | (key, value) :: rest => if key = name then some value else field? name rest

/-- The named fields of a record. An object may have other fields besides; the items of an array
take the names in order, and there may be fewer of them, but not more. -/
def record? (names : List String) : Json → Option (List (String × Json))
  | .obj fields => some fields
  | .arr items => if items.length ≤ names.length then some (names.zip items) else none
  | _ => none

/-- Where a document stands: read for itself, or as a part of a tagged record or beside the fields
of a larger one. A part has more written forms: its tags may be numbers, and an empty object is as
good as `null` where nothing is to be said. -/
inductive Standing where
  | whole
  | part
  deriving DecidableEq, Repr

/-- A tag is written by name; in a part also by its place among the tags, counted from zero. -/
def tag? (standing : Standing) (tags : List String) : Json → Option String
  | .str tag => some tag
  | .int n => if standing = .part ∧ 0 ≤ n then tags[n.toNat]? else none
  | _ => none

/-- The tag of a tagged record, and what is left to read its fields from. An object holds the tag
under `name`; an array holds it first. -/
def tagged? (standing : Standing) (name : String) (tags : List String) :
    Json → Option (String × Json)
  | .obj fields => do
    let tag ← (field? name fields).bind (tag? standing tags)
    return (tag, .obj fields)
  | .arr (first :: rest) => do
    let tag ← tag? standing tags first
    return (tag, .arr rest)
  | _ => none

/-- A document that says nothing. -/
def isVoid : Standing → Json → Bool
  | _, .null => true
  | .part, .obj [] => true
  | _, _ => false

/-- A field that has to be there. -/
def required {α : Type} (name : String) (read? : Json → Option α) (fields : List (String × Json)) :
    Option α :=
  (field? name fields).bind read?

/-- A field that stands for `otherwise` when it is missing. -/
def defaulting {α : Type} (name : String) (otherwise : α) (read? : Json → Option α)
    (fields : List (String × Json)) : Option α :=
  match field? name fields with
  | none => some otherwise
  | some value => read? value

/-- A document in which `null` means that there is no value. -/
def nullable {α : Type} (read? : Json → Option α) : Json → Option (Option α)
  | .null => some none
  | value => (read? value).map some

/-- A field that has no value when it is missing or `null`. -/
def optional {α : Type} (name : String) (read? : Json → Option α) (fields : List (String × Json)) :
    Option (Option α) :=
  defaulting name none (nullable read?) fields

/-- A field of an object that is left out when it says nothing new. -/
def omittable (idle : Bool) (name : String) (value : Json) : List (String × Json) :=
  if idle then [] else [(name, value)]

/-- A field of an object that is left out when there is no value. -/
def ifPresent {α : Type} (name : String) (write : α → Json) : Option α → List (String × Json)
  | none => []
  | some a => [(name, write a)]

def orNull {α : Type} (write : α → Json) : Option α → Json
  | none => .null
  | some a => write a

def ofInt64 (n : Int64) : Json := .int n.toInt

def ofUInt64 (n : UInt64) : Json := .int n.toNat

end Json

end Flowchart
