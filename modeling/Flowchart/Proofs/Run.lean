import Flowchart.Proofs.Change.Settle

/-!
Runs: what a host can do with a session that an engine launched, in any order and whether it succeeds
or fails. An invariant of runs is one that every single change keeps, also a change that broke off,
and that the few writes keep which a host makes itself.
-/
namespace Flowchart

variable {σ : Type}

/-- What a host can do with a session. `rewrite` stands for its direct access to the facts, and for
whatever befalls the host state in the meantime. -/
inductive Operation (σ : Type) where
  | mint (basis : Basis)
  | begin (node : NodeRef) (support : Support)
  | beginNamed (flow start : String) (support : Support)
  | enter (composed node : NodeRef) (support : Support)
  | withdraw (node : NodeRef) (id : SupportId)
  | settle (changed : List String)
  | rewrite (facts : Facts) (host : σ)

namespace Operation

def run (engine : Engine σ) : Operation σ → SessionM σ Unit
  | .mint basis => SessionM.mint basis >>= fun _ => pure ()
  | .begin node support => engine.begin node support >>= fun _ => pure ()
  | .beginNamed flow start support => engine.beginNamed flow start support >>= fun _ => pure ()
  | .enter composed node support => engine.enter composed node support >>= fun _ => pure ()
  | .withdraw node id => engine.withdraw node id >>= fun _ => pure ()
  | .settle changed => engine.settle changed >>= fun _ => pure ()
  | .rewrite facts host => modify fun session => { session with facts := facts, host := host }

/-- The session that an operation leaves behind, also when it fails. -/
def after (engine : Engine σ) (operation : Operation σ) (session : Session σ) : Session σ :=
  match operation.run engine session with
  | .ok _ after => after
  | .error _ after => after

def succeeds (engine : Engine σ) (operation : Operation σ) (session : Session σ) : Bool :=
  match operation.run engine session with
  | .ok _ _ => true
  | .error _ _ => false

/-- The session that operations leave behind one after the other. -/
def afterAll (engine : Engine σ) (operations : List (Operation σ)) (session : Session σ) : Session σ :=
  operations.foldl (fun session operation => operation.after engine session) session

/-- Each of the operations is permitted where it is its turn. -/
def Permitted (engine : Engine σ) (permits : Session σ → Operation σ → Prop) :
    Session σ → List (Operation σ) → Prop
  | _, [] => True
  | session, operation :: rest =>
    permits session operation ∧ Permitted engine permits (operation.after engine session) rest

theorem after_settle_of_ok {engine : Engine σ} {changed : List String} {report : Report}
    {session after : Session σ} (settled : engine.settle changed session = .ok report after) :
    (Operation.settle changed).after engine session = after := by
  have runs : (Operation.settle changed).run engine session =
      (engine.settle changed >>= fun _ => pure ()) session := rfl
  unfold Operation.after
  rw [runs, SessionM.bind_of_ok settled]
  rfl

theorem exists_report_of_succeeds {engine : Engine σ} {changed : List String} {session : Session σ}
    (succeeds : (Operation.settle changed).succeeds engine session = true) :
    ∃ report, engine.settle changed session =
      .ok report ((Operation.settle changed).after engine session) := by
  have runs : (Operation.settle changed).run engine session =
      (engine.settle changed >>= fun _ => pure ()) session := rfl
  unfold Operation.succeeds at succeeds
  unfold Operation.after
  rw [runs] at succeeds ⊢
  cases ran : engine.settle changed session with
  | ok report after =>
      rw [SessionM.bind_of_ok ran]
      exact ⟨report, rfl⟩
  | error fault after =>
      rw [SessionM.bind_of_error ran] at succeeds
      cases succeeds

/-- The supports that the operation gives to origins are granted. -/
def granted (grants : NodeRef → Basis → Prop) : Operation σ → Prop
  | .begin node support => grants node support.basis
  | .beginNamed _ _ support => ∀ node, grants node support.basis
  | .enter _ node support => grants node support.basis
  | _ => True

/-- The operation may give the supports that it gives to origins. -/
def offers (gives : NodeRef → Support → Prop) : Operation σ → Prop
  | .begin node support => gives node support
  | .beginNamed _ _ support => ∀ node, gives node support
  | .enter _ node support => gives node support
  | _ => True

theorem offers_all (operation : Operation σ) : operation.offers fun _ _ => True := by
  cases operation <;> simp [offers]

theorem offers.mono {gives wider : NodeRef → Support → Prop} {operation : Operation σ}
    (offers : operation.offers gives) (within : ∀ {node support}, gives node support → wider node support) :
    operation.offers wider := by
  cases operation with
  | begin | enter => exact within offers
  | beginNamed => exact fun node => within (offers node)
  | mint | withdraw | settle | rewrite => trivial

theorem granted.offers {grants : NodeRef → Basis → Prop} {operation : Operation σ}
    (granted : operation.granted grants) :
    operation.offers fun node support => grants node support.basis := by
  cases operation <;> exact granted

end Operation

/-- The sessions that runs of permitted operations lead to, from a launch over the given facts. -/
inductive Engine.Reaches (engine : Engine σ) (permits : Session σ → Operation σ → Prop)
    (facts : Facts) : Session σ → Prop
  | launched {host : σ} {session : Session σ} (launched : engine.launch facts host = .ok session) :
      Reaches engine permits facts session
  | after {session : Session σ} {operation : Operation σ} (reached : Reaches engine permits facts session)
      (permitted : permits session operation) :
      Reaches engine permits facts (operation.after engine session)

namespace Engine

/-- The session that is launched; a fresh one if the launch fails. -/
def opened (engine : Engine σ) (facts : Facts) (host : σ) : Session σ :=
  match engine.launch facts host with
  | .ok session => session
  | .error _ => .fresh facts host

namespace Reaches

variable {engine : Engine σ} {permits : Session σ → Operation σ → Prop} {facts : Facts}

theorem opened {host : σ} (launches : (engine.launch facts host).isOk = true) :
    engine.Reaches permits facts (engine.opened facts host) := by
  unfold Engine.opened
  cases launched : engine.launch facts host with
  | ok session => exact .launched launched
  | error fault =>
      rw [launched] at launches
      cases launches

theorem afterAll {session : Session σ} {operations : List (Operation σ)}
    (reached : engine.Reaches permits facts session)
    (permitted : Operation.Permitted engine permits session operations) :
    engine.Reaches permits facts (Operation.afterAll engine operations session) := by
  induction operations generalizing session with
  | nil => exact reached
  | cons operation rest ih => exact ih (.after reached permitted.1) permitted.2

end Reaches

end Engine

namespace Operation

variable {engine : Engine σ} {grants : Grants σ}

/-- An operation is a sequence of steps, or a write that the host makes itself. -/
theorem follows_or_of {step : Session σ → Session σ → Prop} (drives : engine.Drives step)
    {operation : Operation σ} {session : Session σ} {gives : NodeRef → Support → Prop}
    (minted : step session session.countSupport)
    (begun : ∀ {node support}, gives node support →
      Follows engine step session (engine.begin node support session))
    (entered : ∀ {composed node support}, gives node support →
      Follows engine step session (engine.enter composed node support session))
    (offers : operation.offers gives) :
    Follows engine step session (operation.run engine session) ∨
    (∃ node id, operation = .withdraw node id ∧
      operation.run engine session = .ok () (session.removeSupport node id)) ∨
    (∃ facts host, operation = .rewrite facts host ∧
      operation.run engine session = .ok () { session with facts := facts, host := host }) := by
  cases operation with
  | mint basis => exact .inl (.bind (.single minted) fun _ _ _ => .done ())
  | begin node support => exact .inl (.bind (begun offers) fun _ _ _ => .done ())
  | beginNamed flow start support =>
      refine .inl (.bind ?_ fun _ _ _ => .done ())
      unfold Engine.beginNamed
      cases engine.findStart flow start with
      | error fault => exact .refused fault
      | ok node => exact begun (offers node)
  | enter composed node support => exact .inl (.bind (entered offers) fun _ _ _ => .done ())
  | settle changed =>
      exact .inl (.bind (drives.settle_follows changed session) fun _ _ _ => .done ())
  | withdraw node id =>
      by_cases known : (engine.chart.node? node).isSome = true
      · refine .inr (.inl ⟨node, id, rfl, ?_⟩)
        simp only [run, Engine.withdraw, if_pos known]
        rfl
      · refine .inl ?_
        simp only [run, Engine.withdraw, if_neg known]
        exact .done ()
  | rewrite facts host => exact .inr (.inr ⟨facts, host, rfl, rfl⟩)

theorem follows_or_of_drives (drives : engine.Drives (Change engine grants)) {operation : Operation σ}
    {session : Session σ} (offers : operation.offers (grants.gives session)) :
    Follows engine (Change engine grants) session (operation.run engine session) ∨
    (∃ node id, operation = .withdraw node id ∧
      operation.run engine session = .ok () (session.removeSupport node id)) ∨
    (∃ facts host, operation = .rewrite facts host ∧
      operation.run engine session = .ok () { session with facts := facts, host := host }) :=
  follows_or_of drives (.offered .counted)
    (fun granted => (Engine.begin_follows (.given granted)).mono .offered)
    (fun granted => (Engine.enter_follows (.given granted)).mono .offered) offers

theorem follows_or (source : engine.SourceGrants grants.mints) {operation : Operation σ}
    {session : Session σ} (offers : operation.offers (grants.gives session)) :
    Follows engine (Change engine grants) session (operation.run engine session) ∨
    (∃ node id, operation = .withdraw node id ∧
      operation.run engine session = .ok () (session.removeSupport node id)) ∨
    (∃ facts host, operation = .rewrite facts host ∧
      operation.run engine session = .ok () { session with facts := facts, host := host }) :=
  follows_or_of_drives source.drives offers

end Operation

/-- What every step keeps that the operations are made of, and every change that broke off and every
write of the host, holds in every session that runs lead to. -/
theorem Engine.Reaches.keep {engine : Engine σ} {permits : Session σ → Operation σ → Prop}
    {step : Session σ → Session σ → Prop} {facts : Facts} {motive : Session σ → Prop}
    (launches : ∀ {host session}, engine.launch facts host = .ok session → motive session)
    (follows : ∀ {session operation}, permits session operation →
      Follows engine step session (operation.run engine session) ∨
      (∃ node id, operation = .withdraw node id ∧
        operation.run engine session = .ok () (session.removeSupport node id)) ∨
      (∃ facts host, operation = .rewrite facts host ∧
        operation.run engine session = .ok () { session with facts := facts, host := host }))
    (change : ∀ {session after}, motive session → step session after → motive after)
    (broken : ∀ {operation session fault between after}, permits session operation →
      operation.run engine session = .error fault after → motive between → Break engine between after →
      motive after)
    (withdrawn : ∀ {session node id}, permits session (.withdraw node id) → motive session →
      motive (session.removeSupport node id))
    (rewritten : ∀ {session facts host}, permits session (.rewrite facts host) → motive session →
      motive { session with facts := facts, host := host })
    {session : Session σ} (reached : engine.Reaches permits facts session) : motive session := by
  induction reached with
  | launched launched => exact launches launched
  | @after session operation _ permitted ih =>
      unfold Operation.after
      rcases follows permitted with follows | ⟨node, id, rfl, ran⟩ | ⟨facts, host, rfl, ran⟩
      · cases ran : operation.run engine session with
        | ok u after =>
            rw [ran] at follows
            exact Session.keep_of_steps follows change ih
        | error fault after =>
            rw [ran] at follows
            obtain ⟨between, path, rfl | broke⟩ := follows
            · exact Session.keep_of_steps path change ih
            · exact broken permitted ran (Session.keep_of_steps path change ih) broke
      · rw [ran]
        exact withdrawn permitted ih
      · rw [ran]
        exact rewritten permitted ih

/-- What every change keeps, broken off or not, and every write of the host, holds in every session
that runs lead to. -/
theorem Engine.Reaches.invariant {engine : Engine σ} {permits : Session σ → Operation σ → Prop}
    {grants : Grants σ} {facts : Facts} {motive : Session σ → Prop}
    (source : engine.SourceGrants grants.mints)
    (autostarts : ∀ node, grants.mints node .unconditional)
    (offers : ∀ {session operation}, permits session operation → operation.offers (grants.gives session))
    (fresh : ∀ host, motive (.fresh facts host))
    (change : ∀ {session after}, motive session → Change engine grants session after → motive after)
    (broken : ∀ {operation session fault between after}, permits session operation →
      operation.run engine session = .error fault after → motive between → Break engine between after →
      motive after)
    (withdrawn : ∀ {session node id}, permits session (.withdraw node id) → motive session →
      motive (session.removeSupport node id))
    (rewritten : ∀ {session facts host}, permits session (.rewrite facts host) → motive session →
      motive { session with facts := facts, host := host })
    {session : Session σ} (reached : engine.Reaches permits facts session) : motive session :=
  reached.keep
    (fun launched => (changes_of_launch source autostarts launched).keep change (fresh _))
    (fun permitted => Operation.follows_or source (offers permitted)) change broken withdrawn rewritten

end Flowchart
