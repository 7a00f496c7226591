import Flowchart.Proofs.Calls

/-!
The numbers of supports. A session numbers its supports so that no two share a number; a support with
the number of a call is then the support of that call, whichever node the host has passed it on to.
Calls need no more than this to take back no other support than the one they gave.
-/
namespace Flowchart

variable {σ : Type} {engine : Engine σ} {session after : Session σ}

/-- The host can have the support from the session: its number was given out, and if it is that of a
call on record, the support came from this call. -/
def Session.Issues (session : Session σ) (support : Support) : Prop :=
  support.id.number ≤ session.supportCount ∧
    ∀ composed record, session.calls.at? composed = some record → support.id = record.2 →
      support.basis = .caller composed

/-- The host gives supports of the session, on whatever they rest. -/
def Grants.native : Grants σ := ⟨fun session _ support => session.Issues support, fun _ _ => True⟩

/-- The operation gives no support that the session has not issued. -/
def Operation.Native (session : Session σ) (operation : Operation σ) : Prop :=
  operation.offers ((Grants.native : Grants σ).gives session)

/-- The numbers of all supports, and of those on record for calls, were given out, the latter to the
supports of these calls. -/
structure Session.Accounted (session : Session σ) : Prop where
  numbered : session.Numbered
  recorded : ∀ composed record, session.calls.at? composed = some record →
    record.2.number ≤ session.supportCount
  owned : session.Owned

namespace Session.Accounted

theorem fresh (facts : Facts) (host : σ) : (Session.fresh facts host).Accounted where
  numbered _ _ mem := nomatch mem
  recorded _ _ listed := nomatch listed
  owned _ _ listed := nomatch listed

theorem below (inv : session.Accounted) (below : after.activation.Below session.activation)
    (count : session.supportCount ≤ after.supportCount)
    (calls : ∀ composed record, after.calls.at? composed = some record →
      session.calls.at? composed = some record) : after.Accounted where
  numbered := inv.numbered.below below count
  recorded composed record listed := (inv.recorded composed record (calls composed record listed)).trans count
  owned := inv.owned.below calls below

/-- A support with a number that is new has not got the number of a call that was on record. -/
theorem owner (inv : session.Accounted) {composed : NodeRef} {record : NodeRef × SupportId}
    (listed : session.calls.at? composed = some record) {support : Support}
    (held : support ∈ (session.activation.supports record.1).items ∨
      session.supportCount < support.id.number) (same : support.id = record.2) :
    support.basis = .caller composed := by
  rcases held with old | new
  · exact inv.owned composed record listed support old same
  · have bound := inv.recorded composed record listed
    rw [← same] at bound
    exact absurd new (Nat.not_lt.2 bound)

end Session.Accounted

/-- The support of a new call has a number that no other support of the called node has. -/
theorem Session.Numbered.caller_of_calling (numbered : session.Numbered) {composed called : NodeRef}
    {origin : NodeKind} {support : Support}
    (mem : support ∈ ((session.calling composed called origin).activation.supports called).items)
    (same : support.id = (session.nextSupport (.caller composed)).id) :
    support.basis = .caller composed := by
  rw [Session.activation_calling] at mem
  rcases Activation.mem_add.1 mem with old | ⟨-, rfl, -⟩
  · exact absurd same (numbered.nextSupport_id_ne (.caller composed) old)
  · rfl

theorem Move.owned (move : Move engine session after) (inv : session.Accounted) : after.Owned := by
  intro composed record listed support mem same
  have gained := (move.gains mem).imp_right Session.Mints.new
  cases move with
  | collapsed live collapsing =>
      rw [Session.calls_tidy] at listed
      exact inv.owner (collapsing.recorded listed) gained same
  | merged => exact inv.owner listed gained same
  | @joined acted id ref edge next idle performs =>
      rcases performs.eq_calling_or with ⟨called, origin, -, -, -, rfl⟩ | ⟨-, calls, -, -⟩
      · change ((session.joining id ref edge.target).calling edge.target called
          origin).calls.at? composed = some record at listed
        rw [Session.calls_calling, Listing.at?_set] at listed
        split at listed
        · rename_i acts
          cases listed
          subst acts
          exact (inv.numbered.joining id ref edge.target).caller_of_calling mem same
        · exact inv.owner listed gained same
      · exact inv.owner ((congrArg (Listing.at? · composed) calls).symm.trans listed) gained same

theorem Offer.owned (offer : Offer engine .native session after) (inv : session.Accounted) :
    after.Owned := by
  intro composed record listed support mem same
  have known : session.calls.at? composed = some record := by rwa [offer.calls_eq] at listed
  rcases Change.gains (.offered offer) mem with old | issued | minted | minted
  · exact inv.owner known (.inl old) same
  · exact issued.2 composed record known same
  · exact inv.owner known (.inr minted.new) same
  · exact inv.owner known (.inr minted.new) same

theorem Change.recorded {grants : Grants σ} (change : Change engine grants session after)
    {composed : NodeRef} {record : NodeRef × SupportId}
    (listed : after.calls.at? composed = some record) :
    session.calls.at? composed = some record ∨
      session.supportCount < record.2.number ∧ record.2.number ≤ after.supportCount := by
  cases change with
  | moved move => exact move.recorded listed
  | offered offer => exact .inl (by rwa [offer.calls_eq] at listed)
  | heard => exact .inl listed

theorem Change.accounted (change : Change engine .native session after) (inv : session.Accounted) :
    after.Accounted where
  numbered := inv.numbered.change change And.left
  recorded composed record listed := by
    rcases change.recorded listed with old | ⟨-, counted⟩
    · exact (inv.recorded composed record old).trans change.le_supportCount
    · exact counted
  owned := by
    cases change with
    | moved move => exact move.owned inv
    | offered offer => exact offer.owned inv
    | heard => exact inv.owned

theorem Break.accounted (broke : Break engine session after) (inv : session.Accounted) :
    after.Accounted :=
  inv.below broke.below broke.le_supportCount fun _ _ listed => broke.recorded listed

/-- As long as the host gives supports of the session alone, its supports are accounted for. -/
theorem Engine.Reaches.accounted {facts : Facts}
    (reached : engine.Reaches Operation.Native facts session) : session.Accounted := by
  have source : engine.SourceGrants (Grants.native : Grants σ).mints := engine.sourceGrants_all
  refine Engine.Reaches.invariant source ?_ ?_ ?_ ?_ ?_ ?_ ?_ reached
  · exact fun _ => trivial
  · exact fun native => native
  · exact .fresh facts
  · exact fun inv change => change.accounted inv
  · exact fun _ _ inv broke => broke.accounted inv
  · exact fun _ inv => inv.below (Session.Fades.removeSupport _ _ _).below (Nat.le_refl _)
      fun _ _ listed => listed
  · exact fun _ inv => inv.below (fun _ _ mem => mem) (Nat.le_refl _) fun _ _ listed => listed

end Flowchart
