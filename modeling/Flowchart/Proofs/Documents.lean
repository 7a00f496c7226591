import Flowchart.Config
import Flowchart.Json.Declaration
import Flowchart.Proofs.Arrangement

/-!
Documents of declarations. What is written of a value, a condition, a declaration or the limits of a
run is read back as just that, in whatever order the fields of the objects stand: what is left out
means what it was, and every record is told from the others by its tag.
-/
namespace Flowchart

open Json (FieldOrder Faithful)

namespace Json

variable (order : FieldOrder) {fields : List (String × Json)}

theorem record?_arrange (names : List String) :
    ((obj fields).arrange order).record? names = some (order.fields fields) := by
  rw [arrange_obj, record?]

/-- What an object holds is nested less deeply than the object. -/
theorem required_of_depth {order : FieldOrder} {fields : List (String × Json)}
    (distinct : (fields.map Prod.fst).Nodup) {name : String} {value : Json}
    (held : field? name fields = some value) {levels : Nat}
    (deep : ((obj fields).arrange order).depth ≤ levels + 1) {α : Type} {read? : Json → Option α}
    {a : α} (reads : (value.arrange order).depth ≤ levels → read? (value.arrange order) = some a) :
    required name read? (order.fields fields) = some a := by
  have found : field? name (order.fields fields) = _ := field?_fields order distinct
  rw [held, Option.map_some] at found
  rw [arrange_obj, depth] at deep
  rw [required, found]
  exact reads (Nat.le_trans (depth_le_depthFields found) (Nat.le_of_succ_le_succ deep))

theorem depth_pos (document : Json) : 0 < document.depth := by
  cases document with
  | arr | obj => exact Nat.succ_pos _
  | null | bool | int | decimal | str => exact Nat.one_pos

/-- A tagged record is told by its tag, wherever that stands. -/
theorem tagged?_arrange (distinct : (fields.map Prod.fst).Nodup) {name tag : String}
    (held : field? name fields = some (.str tag)) (standing : Standing) (tags : List String) :
    ((obj fields).arrange order).tagged? standing name tags =
      some (tag, .obj (order.fields fields)) := by
  have found : field? name (order.fields fields) = some (.str tag) := by
    rw [field?_fields order distinct, held, Option.map_some, arrange]
    all_goals exact nofun
  rw [arrange_obj, tagged?, found]
  rfl

end Json

namespace Value

theorem faithful : Faithful toJson ofJson? := by
  refine .of_arranged (fun order value => ?_) fun value => ?_
  · cases value with
    | bool b =>
        rw [toJson, Json.arrange_obj, ofJson?]
        simp [Json.field?_fields, Json.field?, Json.arrange, Json.bool?]
    | int n =>
        rw [toJson, Json.arrange_obj, ofJson?]
        simp [Json.field?_fields, Json.field?, Faithful.int64.arranged]
    | text s =>
        rw [toJson, Json.arrange_obj, ofJson?]
        simp [Json.field?_fields, Json.field?, Json.arrange, Json.str?]
  · cases value <;> simp [toJson, Json.Distinct, Json.DistinctFields, Json.ofInt64]

end Value

namespace Comparison

theorem read_arrange (order : FieldOrder) (standing : Json.Standing) (comparison : Comparison) :
    read standing (comparison.toJson.arrange order) = some comparison := by
  cases comparison <;> rfl

theorem faithful (standing : Json.Standing) : Faithful toJson (read standing) :=
  .of_arranged (fun order => read_arrange order standing) fun _ => trivial

end Comparison

namespace Condition

mutual
theorem distinct_toJson : ∀ condition : Condition, condition.toJson.Distinct
  | .always => by simp [toJson, Json.Distinct, Json.DistinctFields]
  | .known _ => by simp [toJson, Json.Distinct, Json.DistinctFields]
  | .isUnknown _ => by simp [toJson, Json.Distinct, Json.DistinctFields]
  | .equals _ value => by
      simp [toJson, Json.Distinct, Json.DistinctFields, Value.faithful.distinct value]
  | .oneOf _ values => by
      have listed := Value.faithful.list.distinct values
      rw [Json.Distinct] at listed
      simp [toJson, Json.Distinct, Json.DistinctFields, listed]
  | .compare _ comparison bound => by
      simp [toJson, Json.Distinct, Json.DistinctFields, Faithful.int64.distinct bound,
        (Comparison.faithful .part).distinct comparison]
  | .all terms => by simp [toJson, Json.Distinct, Json.DistinctFields, distinct_toJsonAll terms]
  | .any terms => by simp [toJson, Json.Distinct, Json.DistinctFields, distinct_toJsonAll terms]
  | .not term => by simp [toJson, Json.Distinct, Json.DistinctFields, distinct_toJson term]
  | .minOf min max terms => by
      cases max <;>
        simp [toJson, Json.Distinct, Json.DistinctFields, Json.ifPresent,
          Faithful.uint64.distinct, distinct_toJsonAll terms]

theorem distinct_toJsonAll : ∀ terms : List Condition, Json.DistinctItems (toJsonAll terms)
  | [] => trivial
  | term :: rest => ⟨distinct_toJson term, distinct_toJsonAll rest⟩
end

/-- A list of terms is read one level below the condition that holds it. -/
theorem required_terms {order : FieldOrder} {fields : List (String × Json)}
    (distinct : (fields.map Prod.fst).Nodup) {name : String} {terms : List Condition}
    (held : Json.field? name fields = some (.arr (toJsonAll terms))) {levels : Nat}
    (deep : ((Json.obj fields).arrange order).depth ≤ levels + 1)
    (reads : Json.depthItems (Json.arrangeItems order (toJsonAll terms)) ≤ levels →
      (Json.arrangeItems order (toJsonAll terms)).mapM (read levels .part) = some terms) :
    Json.required name (Json.list? (read levels .part)) (order.fields fields) = some terms := by
  refine Json.required_of_depth distinct held deep fun shallow => ?_
  rw [Json.arrange, Json.depth] at shallow
  rw [Json.arrange, Json.list?]
  exact reads (Nat.le_of_succ_le shallow)

mutual
/-- A condition is read back at any depth that its document does not exceed. -/
theorem read_arrange (order : FieldOrder) : ∀ (condition : Condition) (levels : Nat)
    (standing : Json.Standing), (condition.toJson.arrange order).depth ≤ levels →
    read levels standing (condition.toJson.arrange order) = some condition
  | condition, 0, standing, deep => absurd deep (Nat.not_le.2 (Json.depth_pos _))
  | .always, levels + 1, standing, deep => by
      have distinct := (distinct_toJson .always).1
      rw [toJson, read, Json.tagged?_arrange order distinct rfl]
      rfl
  | .known fact, levels + 1, standing, deep => by
      have distinct := (distinct_toJson (.known fact)).1
      have said : Json.required "fact" Json.str? (order.fields _) = some fact :=
        Faithful.str.required_eq order distinct rfl
      rw [toJson, read, Json.tagged?_arrange order distinct rfl]
      simp [Json.record?, said]
  | .isUnknown fact, levels + 1, standing, deep => by
      have distinct := (distinct_toJson (.isUnknown fact)).1
      have said : Json.required "fact" Json.str? (order.fields _) = some fact :=
        Faithful.str.required_eq order distinct rfl
      rw [toJson, read, Json.tagged?_arrange order distinct rfl]
      simp [Json.record?, said]
  | .equals fact value, levels + 1, standing, deep => by
      have distinct := (distinct_toJson (.equals fact value)).1
      have said : Json.required "fact" Json.str? (order.fields _) = some fact :=
        Faithful.str.required_eq order distinct rfl
      have valued : Json.required "value" Value.ofJson? (order.fields _) = some value :=
        Value.faithful.required_eq order distinct rfl
      rw [toJson, read, Json.tagged?_arrange order distinct rfl]
      simp [Json.record?, said, valued]
  | .oneOf fact values, levels + 1, standing, deep => by
      have distinct := (distinct_toJson (.oneOf fact values)).1
      have said : Json.required "fact" Json.str? (order.fields _) = some fact :=
        Faithful.str.required_eq order distinct rfl
      have valued : Json.required "values" (Json.list? Value.ofJson?) (order.fields _) = some values :=
        Value.faithful.list.required_eq order distinct rfl
      rw [toJson, read, Json.tagged?_arrange order distinct rfl]
      simp [Json.record?, said, valued]
  | .compare fact comparison bound, levels + 1, standing, deep => by
      have distinct := (distinct_toJson (.compare fact comparison bound)).1
      have said : Json.required "fact" Json.str? (order.fields _) = some fact :=
        Faithful.str.required_eq order distinct rfl
      have compared : Json.required "cmp" (Comparison.read .part) (order.fields _) = some comparison :=
        (Comparison.faithful .part).required_eq order distinct rfl
      have bounded : Json.required "value" Json.int64? (order.fields _) = some bound :=
        Faithful.int64.required_eq order distinct rfl
      rw [toJson, read, Json.tagged?_arrange order distinct rfl]
      simp [Json.record?, said, compared, bounded]
  | .all terms, levels + 1, standing, deep => by
      have distinct := (distinct_toJson (.all terms)).1
      have listed : Json.required "all" (Json.list? (read levels .part)) (order.fields _) =
          some terms :=
        required_terms distinct rfl deep (readAll_arrange order terms levels)
      rw [toJson, read, Json.tagged?_arrange order distinct rfl]
      simp [Json.record?, listed]
  | .any terms, levels + 1, standing, deep => by
      have distinct := (distinct_toJson (.any terms)).1
      have listed : Json.required "any" (Json.list? (read levels .part)) (order.fields _) =
          some terms :=
        required_terms distinct rfl deep (readAll_arrange order terms levels)
      rw [toJson, read, Json.tagged?_arrange order distinct rfl]
      simp [Json.record?, listed]
  | .not term, levels + 1, standing, deep => by
      have distinct := (distinct_toJson (.not term)).1
      have negated : Json.required "cond" (read levels .part) (order.fields _) = some term :=
        Json.required_of_depth distinct rfl deep (read_arrange order term levels .part)
      rw [toJson, read, Json.tagged?_arrange order distinct rfl]
      simp [Json.record?, negated]
  | .minOf min max terms, levels + 1, standing, deep => by
      have distinct := (distinct_toJson (.minOf min max terms)).1
      have least : Json.required "min" Json.uint64? (order.fields _) = some min :=
        Faithful.uint64.required_eq order distinct rfl
      have most : Json.optional "max" Json.uint64? (order.fields _) = some max :=
        Faithful.uint64.optional_eq order distinct (fun _ _ => nofun) (by cases max <;> rfl)
      have listed : Json.required "of" (Json.list? (read levels .part)) (order.fields _) =
          some terms :=
        required_terms distinct (by cases max <;> rfl) deep (readAll_arrange order terms levels)
      rw [toJson, read, Json.tagged?_arrange order distinct rfl]
      simp only [Json.record?, Option.bind_eq_bind, Option.bind_some, least, most, listed]
      rfl

theorem readAll_arrange (order : FieldOrder) : ∀ (terms : List Condition) (levels : Nat),
    Json.depthItems (Json.arrangeItems order (toJsonAll terms)) ≤ levels →
    (Json.arrangeItems order (toJsonAll terms)).mapM (read levels .part) = some terms
  | [], _, _ => rfl
  | term :: rest, levels, deep => by
      rw [toJsonAll, Json.arrangeItems, Json.depthItems, Nat.max_le] at deep
      rw [toJsonAll, Json.arrangeItems, List.mapM_cons, read_arrange order term levels .part deep.1,
        readAll_arrange order rest levels deep.2]
      rfl
end

theorem faithful : Faithful toJson ofJson? :=
  .of_arranged (fun order condition => read_arrange order condition _ .whole (Nat.le_refl _)) distinct_toJson

theorem toJson_ne_null (order : FieldOrder) (condition : Condition) :
    condition.toJson.arrange order ≠ .null := by
  cases condition <;> simp [toJson, Json.arrange]

end Condition

namespace Action

theorem read_arrange (order : FieldOrder) (standing : Json.Standing) (action : Action) :
    read standing (action.toJson.arrange order) = some action := by
  cases action with
  | noop =>
      have distinct : ([("type", Json.str "noop")].map Prod.fst).Nodup := by simp
      rw [toJson, read, Json.tagged?_arrange order distinct rfl]
      rfl
  | assign fact value =>
      have distinct : ([("type", Json.str "assign"), ("fact", .str fact),
          ("value", value.toJson)].map Prod.fst).Nodup := by simp
      have said : Json.required "fact" Json.str? (order.fields _) = some fact :=
        Faithful.str.required_eq order distinct rfl
      have valued : Json.required "value" Value.ofJson? (order.fields _) = some value :=
        Value.faithful.required_eq order distinct rfl
      rw [toJson, read, Json.tagged?_arrange order distinct rfl]
      simp [Json.record?, said, valued]
  | invoke handler =>
      have distinct : ([("type", Json.str "invoke"), ("name", .str handler)].map Prod.fst).Nodup := by
        simp
      have called : Json.required "name" Json.str? (order.fields _) = some handler :=
        Faithful.str.required_eq order distinct rfl
      rw [toJson, read, Json.tagged?_arrange order distinct rfl]
      simp [Json.record?, called]

theorem faithful (standing : Json.Standing) : Faithful toJson (read standing) := by
  refine .of_arranged (fun order => read_arrange order standing) fun action => ?_
  cases action with
  | noop => simp [toJson, Json.Distinct, Json.DistinctFields]
  | assign fact value =>
      simp [toJson, Json.Distinct, Json.DistinctFields, Value.faithful.distinct value]
  | invoke handler => simp [toJson, Json.Distinct, Json.DistinctFields]

end Action

namespace KindDecl

/-- A kind is read from an object that has all of its fields, whatever else the object has. -/
theorem read_of_fields {order : FieldOrder} {fields : List (String × Json)}
    (distinct : (fields.map Prod.fst).Nodup) (standing : Json.Standing) {kind : KindDecl}
    (held : ∀ name value, Json.field? name kind.fields = some value →
      Json.field? name fields = some value) :
    read standing ((Json.obj fields).arrange order) = some kind := by
  cases kind with
  | start =>
      rw [read, Json.tagged?_arrange order distinct (held "kind" _ rfl)]
      rfl
  | action a =>
      have done : Json.required "action" (Action.read .part) (order.fields fields) = some a :=
        (Action.faithful .part).required_eq order distinct (held _ _ rfl)
      rw [read, Json.tagged?_arrange order distinct (held "kind" _ rfl)]
      simp [Json.record?, done]
  | composed flow entry =>
      have called : Json.required "flow" Json.str? (order.fields fields) = some flow :=
        Faithful.str.required_eq order distinct (held _ _ rfl)
      have entered : Json.required "start" Json.str? (order.fields fields) = some entry :=
        Faithful.str.required_eq order distinct (held _ _ rfl)
      rw [read, Json.tagged?_arrange order distinct (held "kind" _ rfl)]
      simp [Json.record?, called, entered]
  | snapshot =>
      rw [read, Json.tagged?_arrange order distinct (held "kind" _ rfl)]
      rfl

theorem distinct_fields (kind : KindDecl) :
    (kind.fields.map Prod.fst).Nodup ∧ Json.DistinctFields kind.fields := by
  cases kind with
  | start => simp [fields, Json.DistinctFields, Json.Distinct]
  | action a => simp [fields, Json.DistinctFields, Json.Distinct, (Action.faithful .part).distinct a]
  | composed flow entry => simp [fields, Json.DistinctFields, Json.Distinct]
  | snapshot => simp [fields, Json.DistinctFields, Json.Distinct]

theorem faithful (standing : Json.Standing) : Faithful toJson (read standing) :=
  .of_arranged (fun _ kind => read_of_fields kind.distinct_fields.1 standing fun _ _ => id)
    fun kind => kind.distinct_fields

/-- No field of a kind takes the place of the name of the node. -/
theorem name_notMem_fields (kind : KindDecl) : "name" ∉ kind.fields.map Prod.fst := by
  cases kind <;> simp [fields]

end KindDecl

namespace NodeDecl

theorem distinct_fields (node : NodeDecl) :
    ((("name", Json.str node.name) :: node.kind.fields).map Prod.fst).Nodup := by
  rw [List.map_cons, List.nodup_cons]
  exact ⟨node.kind.name_notMem_fields, node.kind.distinct_fields.1⟩

theorem faithful : Faithful toJson ofJson? := by
  refine .of_arranged (fun order node => ?_) fun node => ?_
  · have named : Json.required "name" Json.str? (order.fields _) = some node.name :=
      Faithful.str.required_eq order node.distinct_fields rfl
    have sorted : KindDecl.read .part
        (.obj (order.fields (("name", .str node.name) :: node.kind.fields))) = some node.kind := by
      -- The kind is looked up beside the name, and no field of a kind is called that.
      rw [← Json.arrange_obj]
      refine KindDecl.read_of_fields node.distinct_fields .part fun name value held => ?_
      have other : "name" ≠ name := by
        rintro rfl
        exact node.kind.name_notMem_fields
          (List.mem_map_of_mem (Json.mem_of_field?_eq_some held))
      rw [Json.field?, if_neg other, held]
    rw [toJson, Json.arrange_obj, ofJson?, named]
    simp [sorted]
  · rw [toJson, Json.Distinct, Json.DistinctFields]
    exact ⟨node.distinct_fields, trivial, node.kind.distinct_fields.2⟩

end NodeDecl

namespace EdgeDecl

theorem faithful : Faithful toJson ofJson? := by
  have written : ∀ edge : EdgeDecl, edge.toJson.Distinct := fun ⟨_, _, condition⟩ => by
    cases condition <;>
      simp [toJson, Json.Distinct, Json.DistinctFields, Json.ifPresent, Condition.distinct_toJson]
  refine .of_arranged (fun order edge => ?_) written
  obtain ⟨source, target, condition⟩ := edge
  have distinct := (written ⟨source, target, condition⟩).1
  have left : Json.required "from" Json.str? (order.fields _) = some source :=
    Faithful.str.required_eq order distinct rfl
  have entered : Json.required "to" Json.str? (order.fields _) = some target :=
    Faithful.str.required_eq order distinct rfl
  have guarded : Json.optional "when" Condition.ofJson? (order.fields _) = some condition :=
    Condition.faithful.optional_eq order distinct Condition.toJson_ne_null (by cases condition <;> rfl)
  rw [toJson, ofJson?, Json.record?_arrange]
  simp only [Option.bind_eq_bind, Option.bind_some, left, entered, guarded]
  rfl

end EdgeDecl

namespace FlowDecl

theorem faithful : Faithful toJson ofJson? := by
  have nodes := NodeDecl.faithful.list
  have edges := EdgeDecl.faithful.list
  have written : ∀ flow : FlowDecl, flow.toJson.Distinct := fun flow => by
    have first := nodes.distinct flow.nodes
    have second := edges.distinct flow.edges
    rw [Json.Distinct] at first second
    rw [toJson]
    cases flow.autostart <;> cases flow.edges.isEmpty <;>
      simp [Json.Distinct, Json.DistinctFields, Json.omittable, first, second]
  refine .of_arranged (fun order flow => ?_) written
  have distinct := (written flow).1
  have named : Json.required "name" Json.str? (order.fields _) = some flow.name :=
    Faithful.str.required_eq order distinct rfl
  have started : Json.defaulting "autostart" false Json.bool? (order.fields _) = some flow.autostart :=
    Faithful.bool.defaulting_eq order distinct (!flow.autostart)
      (by cases flow.autostart <;> cases flow.edges.isEmpty <;> rfl) (by simp)
  have noded : Json.required "nodes" (Json.list? NodeDecl.ofJson?) (order.fields _) = some flow.nodes :=
    nodes.required_eq order distinct
      (by cases flow.autostart <;> cases flow.edges.isEmpty <;> rfl)
  have edged : Json.defaulting "edges" [] (Json.list? EdgeDecl.ofJson?) (order.fields _) = some flow.edges :=
    edges.defaulting_eq order distinct flow.edges.isEmpty
      (by cases flow.autostart <;> cases flow.edges.isEmpty <;> rfl) List.isEmpty_iff.1
  rw [toJson, ofJson?, Json.record?_arrange]
  simp only [Option.bind_eq_bind, Option.bind_some, named, started, noded, edged]
  rfl

end FlowDecl

namespace TriggerDecl

theorem faithful : Faithful toJson ofJson? := by
  have written : ∀ trigger : TriggerDecl, trigger.toJson.Distinct := fun trigger => by
    simp [toJson, Json.Distinct, Json.DistinctFields, Condition.distinct_toJson]
  refine .of_arranged (fun order trigger => ?_) written
  have distinct := (written trigger).1
  have named : Json.required "name" Json.str? (order.fields _) = some trigger.name :=
    Faithful.str.required_eq order distinct rfl
  have called : Json.required "flow" Json.str? (order.fields _) = some trigger.flow :=
    Faithful.str.required_eq order distinct rfl
  have entered : Json.required "start" Json.str? (order.fields _) = some trigger.start :=
    Faithful.str.required_eq order distinct rfl
  have guarded : Json.required "when" Condition.ofJson? (order.fields _) = some trigger.condition :=
    Condition.faithful.required_eq order distinct rfl
  rw [toJson, ofJson?, Json.record?_arrange]
  simp [named, called, entered, guarded]

end TriggerDecl

namespace ChartDecl

theorem faithful : Faithful toJson ofJson? := by
  have flows := FlowDecl.faithful.list
  have triggers := TriggerDecl.faithful.list
  have written : ∀ decl : ChartDecl, decl.toJson.Distinct := fun decl => by
    have first := flows.distinct decl.flows
    have second := triggers.distinct decl.triggers
    rw [Json.Distinct] at first second
    rw [toJson]
    cases decl.flows.isEmpty <;> cases decl.triggers.isEmpty <;>
      simp [Json.Distinct, Json.DistinctFields, Json.omittable, first, second]
  refine .of_arranged (fun order decl => ?_) written
  have distinct := (written decl).1
  have flowed : Json.defaulting "flows" [] (Json.list? FlowDecl.ofJson?) (order.fields _) =
      some decl.flows :=
    flows.defaulting_eq order distinct decl.flows.isEmpty
      (by cases decl.flows.isEmpty <;> cases decl.triggers.isEmpty <;> rfl) List.isEmpty_iff.1
  have triggered : Json.defaulting "triggers" [] (Json.list? TriggerDecl.ofJson?) (order.fields _) =
      some decl.triggers :=
    triggers.defaulting_eq order distinct decl.triggers.isEmpty
      (by cases decl.flows.isEmpty <;> cases decl.triggers.isEmpty <;> rfl) List.isEmpty_iff.1
  rw [toJson, ofJson?, Json.record?_arrange]
  simp only [Option.bind_eq_bind, Option.bind_some, flowed, triggered]
  rfl

end ChartDecl

namespace Config

/-- A limit that does not apply is written down as such: only a missing one is the standard limit. -/
theorem faithful : Faithful toJson ofJson? := by
  have limits : Faithful (Json.orNull Json.ofUInt64) (Json.nullable Json.uint64?) :=
    Faithful.uint64.orNull fun _ _ => nofun
  have written : ∀ config : Config, config.toJson.Distinct := fun config => by
    simp [toJson, Json.Distinct, Json.DistinctFields, limits.distinct]
  refine .of_arranged (fun order config => ?_) written
  have distinct := (written config).1
  have rounds : Json.defaulting "max_rounds" standard.maxRounds (Json.nullable Json.uint64?)
      (order.fields _) = some config.maxRounds :=
    limits.defaulting_eq order distinct false rfl nofun
  have steps : Json.defaulting "max_flow_steps" standard.maxFlowSteps (Json.nullable Json.uint64?)
      (order.fields _) = some config.maxFlowSteps :=
    limits.defaulting_eq order distinct false rfl nofun
  have started : Json.defaulting "autostart" standard.autostart Json.bool? (order.fields _) =
      some config.autostart :=
    Faithful.bool.defaulting_eq order distinct false rfl nofun
  rw [toJson, ofJson?, Json.record?_arrange]
  simp [rounds, steps, started]

end Config

/-- Everything that is written down is read back: values, comparisons, conditions of any depth, actions,
the parts of declarations, the limits of a run, and the numbers that references are written as. -/
theorem documents_faithful :
    Faithful Value.toJson Value.ofJson? ∧
    Faithful Comparison.toJson Comparison.ofJson? ∧
    Faithful Condition.toJson Condition.ofJson? ∧
    Faithful Action.toJson Action.ofJson? ∧
    Faithful KindDecl.toJson KindDecl.ofJson? ∧
    Faithful NodeDecl.toJson NodeDecl.ofJson? ∧
    Faithful EdgeDecl.toJson EdgeDecl.ofJson? ∧
    Faithful FlowDecl.toJson FlowDecl.ofJson? ∧
    Faithful TriggerDecl.toJson TriggerDecl.ofJson? ∧
    Faithful ChartDecl.toJson ChartDecl.ofJson? ∧
    Faithful Config.toJson Config.ofJson? ∧
    Faithful Json.ofUInt64 Json.uint64? ∧
    ∀ kind : KindDecl, "name" ∉ kind.fields.map Prod.fst :=
  ⟨Value.faithful, Comparison.faithful .whole, Condition.faithful, Action.faithful .whole,
    KindDecl.faithful .whole, NodeDecl.faithful, EdgeDecl.faithful, FlowDecl.faithful,
    TriggerDecl.faithful, ChartDecl.faithful, Config.faithful, Faithful.uint64,
    KindDecl.name_notMem_fields⟩

end Flowchart
