import LoanCheck.Proofs.Check.Reports
import LoanCheck.Proofs.Loan.Shift
import LoanCheck.Proofs.Scope.Joined

/-!
# The analysis of a unit inside another one

The statements of a unit are judged inside another one as they are on their own.
`Context.Embeds` says what the two analyses know of the places, and `State.Embeds` that their
states tell the same of them: the same ownership, the same borrows and the same reports, all
shifted.  Every rule keeps that, so every statement does.
-/

namespace LoanCheck

/-- A diagnostic of a unit before which there are so many statements and borrows. -/
def Diagnostic.moved (points borrows : Nat) (diagnostic : Diagnostic) : Diagnostic :=
  { diagnostic with
    point := diagnostic.point + points
    borrow := diagnostic.borrow.map (· + borrows) }

namespace ScopeTree.Embeds

variable {shift : Shift} {guest host : ScopeTree} (embeds : guest.Embeds shift host)
  {place : PlaceId} (known : place < guest.places.length)

include embeds known

theorem name_eq : host.name (place + shift.places) = guest.name place := by
  rw [name, embeds.places place known, name]
  cases guest.places[place]? <;> rfl

theorem scopeOf_eq : host.scopeOf (place + shift.places) = shift.scopes (guest.scopeOf place) := by
  rw [scopeOf, embeds.places place known, scopeOf, List.getElem?_eq_getElem known]
  rfl

theorem holdsReference_eq :
    host.holdsReference (place + shift.places) = guest.holdsReference place := by
  rw [holdsReference, embeds.places place known, holdsReference]
  cases guest.places[place]? <;> rfl

theorem freshRecord_eq : host.freshRecord (place + shift.places) = guest.freshRecord place := by
  rw [freshRecord, embeds.places place known, freshRecord]
  cases guest.places[place]? <;> rfl

end ScopeTree.Embeds

/-- The places of a target are among the first so many. -/
def Target.Within (bound : Nat) (target : Target) : Prop :=
  target.place < bound ∧ ∀ old, target.shadowed? = some old → old < bound

/-- The places of a statement are places of the tree, and a scope that it ends is an inner one. -/
structure Effect.Within (tree : ScopeTree) (effect : Effect) : Prop where
  source : ∀ use, effect.source? = some use → use.place < tree.places.length
  target : ∀ target, effect.target? = some target → target.Within tree.places.length
  closes : ∀ scope, effect.closes? = some scope → scope ≠ ScopeTree.rootId ∧
    scope < tree.scopes.length ∧ ∀ place ∈ tree.placesOf scope, place < tree.places.length

/-- Of the places of one unit the other analysis knows the same. -/
structure Context.Embeds (shift : Shift) (guest host : Context) : Prop where
  tree : guest.tree.Embeds shift host.tree
  liveness : ∀ place, place < guest.tree.places.length → ∀ point : Point,
    (host.liveness.any fun liveness =>
        !liveness.liveAfter (place + shift.places) (point + shift.points : Nat)) =
      guest.liveness.any fun liveness => !liveness.liveAfter place point

namespace Ownership

/-- Two records of the places of a unit tell the same of them. -/
def Agree (shift : Shift) (tree hostTree : ScopeTree) (ownership host : Ownership) : Prop :=
  ∀ place, place < tree.places.length →
    host.record hostTree (place + shift.places) = ownership.record tree place

namespace Agree

variable {shift : Shift} {tree hostTree : ScopeTree} {ownership host : Ownership}
  (agree : Agree shift tree hostTree ownership host)

include agree

theorem stateOf_eq {place : PlaceId} (known : place < tree.places.length) :
    host.stateOf hostTree (place + shift.places) = ownership.stateOf tree place := by
  rw [stateOf, agree place known, stateOf]

theorem isMutable_eq {place : PlaceId} (known : place < tree.places.length) :
    host.isMutable hostTree (place + shift.places) = ownership.isMutable tree place := by
  rw [isMutable, agree place known, isMutable]

theorem set (place : PlaceId) (record : OwnershipRecord) :
    Agree shift tree hostTree (Table.set ownership place record)
      (Table.set host (place + shift.places) record) := by
  intro other known
  rw [record_set, record_set, agree other known]
  simp only [Nat.add_right_cancel_iff]

theorem setState {place : PlaceId} (known : place < tree.places.length) (state : OwnershipState) :
    Agree shift tree hostTree (ownership.setState tree place state)
      (host.setState hostTree (place + shift.places) state) := by
  rw [Ownership.setState, Ownership.setState, agree place known]
  exact agree.set place _

theorem declare (embeds : tree.Embeds shift hostTree) {place : PlaceId}
    (known : place < tree.places.length) :
    Agree shift tree hostTree (ownership.declare tree place)
      (host.declare hostTree (place + shift.places)) := by
  rw [Ownership.declare, Ownership.declare, embeds.freshRecord_eq known]
  exact agree.set place _

theorem moveOut {place : PlaceId} (known : place < tree.places.length) :
    Agree shift tree hostTree (ownership.moveOut tree place)
      (host.moveOut hostTree (place + shift.places)) := by
  simp only [Ownership.moveOut, agree place known]
  split
  · exact agree
  · exact agree.setState known .movedOut

end Agree

end Ownership

namespace State

/-- Borrows end, and nothing else changes. -/
theorem retireDead_eq (context : Context) (state : State) (point : Point) :
    state.retireDead context point =
      { state with ledger := (state.retireDead context point).ledger } := by
  unfold retireDead
  split <;> rfl

/-- Two states tell the same of the places of a unit, before which the host was in an earlier
state. -/
structure Embeds (shift : Shift) (guest host : Context) (earlier state hostState : State) :
    Prop where
  ownership : Ownership.Agree shift guest.tree host.tree state.ownership hostState.ownership
  ledger : state.ledger.Embeds shift guest.tree.places.length hostState.ledger
  escapes : hostState.escapes = state.escapes.map (· + shift.places) ++ earlier.escapes
  noted : ∀ place ∈ state.escapes, place < guest.tree.places.length
  apart : ∀ place, place < guest.tree.places.length → place + shift.places ∉ earlier.escapes
  diagnostics : hostState.diagnostics.map Diagnostic.bare =
    earlier.diagnostics.map Diagnostic.bare ++ state.diagnostics.map fun diagnostic =>
      (diagnostic.moved shift.points shift.borrows).bare

namespace Embeds

variable {shift : Shift} {guest host : Context} {earlier state hostState : State}
  {place : PlaceId}
  (contexts : guest.Embeds shift host) (embeds : Embeds shift guest host earlier state hostState)

include embeds

theorem own {ownership hostOwnership : Ownership}
    (agree : Ownership.Agree shift guest.tree host.tree ownership hostOwnership) :
    Embeds shift guest host earlier { state with ownership }
      { hostState with ownership := hostOwnership } :=
  { embeds with ownership := agree }

theorem lent {ledger hostLedger : Ledger}
    (related : ledger.Embeds shift guest.tree.places.length hostLedger) :
    Embeds shift guest host earlier { state with ledger } { hostState with ledger := hostLedger } :=
  { embeds with ledger := related }

theorem report (violation : Violation) (point : Point) (name : Name) (borrow : Option BorrowId)
    (span : Span) (notes hostNotes : List String) :
    Embeds shift guest host earlier (state.report violation point name borrow span notes)
      (hostState.report violation (point + shift.points) name (borrow.map (· + shift.borrows)) span
        hostNotes) := by
  refine { embeds with diagnostics := ?_ }
  simp only [State.report, List.map_append, embeds.diagnostics, List.append_assoc]
  rfl

theorem reportBorrow (violation : Violation) (point : Point) (name : Name) (borrow : Borrow)
    (span : Span) :
    Embeds shift guest host earlier
      (state.reportBorrow guest.tree violation point name borrow span)
      (hostState.reportBorrow host.tree violation (point + shift.points) name
        (shift.borrow borrow) span) :=
  embeds.report violation point name (some borrow.id) span _ _

theorem retireHeldBy (holder : PlaceId) (point : Point) :
    Embeds shift guest host earlier (state.retireHeldBy holder point)
      (hostState.retireHeldBy (holder + shift.places) (point + shift.points)) :=
  embeds.lent (embeds.ledger.retireHeldBy holder point)

/-- Reports of several borrows, one after the other. -/
theorem foldl {report hostReport : State → Borrow → State} (borrows : List Borrow)
    (listed : ∀ borrow ∈ borrows, borrow.referent < guest.tree.places.length ∧
      borrow.holder < guest.tree.places.length)
    (each : ∀ {state hostState borrow}, borrow.referent < guest.tree.places.length →
      borrow.holder < guest.tree.places.length → Embeds shift guest host earlier state hostState →
        Embeds shift guest host earlier (report state borrow)
          (hostReport hostState (shift.borrow borrow))) :
    Embeds shift guest host earlier (borrows.foldl report state)
      ((borrows.map shift.borrow).foldl hostReport hostState) := by
  induction borrows generalizing state hostState with
  | nil => exact embeds
  | cons borrow rest inductionHypothesis =>
      obtain ⟨referent, holder⟩ := listed borrow List.mem_cons_self
      exact inductionHypothesis (each referent holder embeds)
        fun other later => listed other (List.mem_cons_of_mem _ later)

section Place

variable (known : place < guest.tree.places.length) (point : Point) (span : Span)

include known contexts

theorem requireOwned (action : String) :
    Embeds shift guest host earlier (requireOwned guest state place point action span).1
        (State.requireOwned host hostState (place + shift.places) (point + shift.points) action
          span).1 ∧
      (State.requireOwned host hostState (place + shift.places) (point + shift.points) action
          span).2 = (State.requireOwned guest state place point action span).2 := by
  simp only [State.requireOwned, embeds.ownership.stateOf_eq known, contexts.tree.name_eq known]
  cases state.ownership.stateOf guest.tree place with
  | movedOut => exact ⟨embeds.report _ point _ none span [] [], rfl⟩
  | uninitialized => exact ⟨embeds.report _ point _ none span [] [], rfl⟩
  | owned => exact ⟨embeds, rfl⟩
  | dropped => exact ⟨embeds, rfl⟩

theorem reportDuplicate (notes hostNotes : List String) :
    Embeds shift guest host earlier (reportDuplicate guest state place point span notes)
      (State.reportDuplicate host hostState (place + shift.places) (point + shift.points) span
        hostNotes) := by
  simp only [State.reportDuplicate, contexts.tree.name_eq known]
  exact embeds.report _ point _ none span _ _

theorem bindPlace (mutable copy : Flag) (fresh : Bool) (notes hostNotes : List String) :
    Embeds shift guest host earlier
      (bindPlace guest state place point mutable copy fresh span notes).1
      (State.bindPlace host hostState (place + shift.places) (point + shift.points) mutable copy
        fresh span hostNotes).1 := by
  simp only [State.bindPlace, embeds.ownership.stateOf_eq known]
  split
  · have reported := embeds.reportDuplicate contexts known point span notes hostNotes
    exact reported.own (reported.ownership.set place _)
  · exact embeds.own (embeds.ownership.set place _)

theorem assignPlace :
    Embeds shift guest host earlier (assignPlace guest state place point span).1
      (State.assignPlace host hostState (place + shift.places) (point + shift.points) span).1 := by
  simp only [State.assignPlace, embeds.ownership place known, contexts.tree.name_eq known]
  split
  · have reported := embeds.report (.assignedTwice (guest.tree.name place)) point
      (guest.tree.name place) none span [] []
    exact reported.own (reported.ownership.setState known .owned)
  · exact embeds.own (embeds.ownership.setState known .owned)

theorem checkReferent (kind : BorrowKind) :
    Embeds shift guest host earlier (checkReferent guest state kind place point span)
      (State.checkReferent host hostState kind (place + shift.places) (point + shift.points)
        span) := by
  have required := (embeds.requireOwned contexts known point span "borrow").1
  simp only [State.checkReferent, required.ownership.isMutable_eq known,
    contexts.tree.name_eq known]
  split
  · exact required.report _ point _ none span [] []
  · exact required

theorem consumeSource (action : String) :
    Embeds shift guest host earlier (consumeSource guest state place point span action)
      (State.consumeSource host hostState (place + shift.places) (point + shift.points) span
        action) := by
  have required := embeds.requireOwned contexts known point span action
  unfold State.consumeSource
  generalize State.requireOwned guest state place point action span = answer at required
  generalize State.requireOwned host hostState (place + shift.places) (point + shift.points)
    action span = hostAnswer at required
  obtain ⟨judged, owned⟩ := answer
  obtain ⟨hostJudged, hostOwned⟩ := hostAnswer
  obtain ⟨related, same⟩ := required
  simp only at related same ⊢
  subst same
  simp only [related.ledger.activeOn_eq known, related.ownership place known,
    contexts.tree.name_eq known]
  cases hostOwned with
  | false => exact related.own (related.ownership.moveOut known)
  | true =>
      cases judged.ledger.activeOn place with
      | nil => exact related.own (related.ownership.moveOut known)
      | cons borrow rest =>
          simp only [List.map_cons]
          split
          · exact related.own (related.ownership.moveOut known)
          · have told := related.reportBorrow (.movedWhileBorrowed (guest.tree.name place)) point
              (guest.tree.name place) borrow span
            exact told.own (told.ownership.moveOut known)

theorem reportOutliving {borrow : Borrow} (kept : borrow.holder < guest.tree.places.length) :
    Embeds shift guest host earlier (reportOutliving guest state place point span borrow)
      (State.reportOutliving host hostState (place + shift.places) (point + shift.points) span
        (shift.borrow borrow)) := by
  simp only [State.reportOutliving, Shift.holder_borrow, contexts.tree.name_eq known,
    contexts.tree.name_eq kept]
  exact (embeds.report _ point _ (some borrow.id) span _ _).lent
    ((embeds.ledger.markDangling borrow.id).retire borrow.id point)

theorem checkDrop :
    Embeds shift guest host earlier (checkDrop guest state place point span)
      (State.checkDrop host hostState (place + shift.places) (point + shift.points) span) := by
  simp only [State.checkDrop, embeds.ledger.activeOn_eq known]
  apply embeds.foldl
  · intro borrow listed
    exact embeds.ledger.inside borrow (embeds.ledger.guestConsistent.mem_activeOn.mp listed).1
  · intro state hostState borrow _ kept related
    exact related.reportOutliving contexts known point span kept

theorem dropPlace :
    Embeds shift guest host earlier (dropPlace guest state place point span)
      (State.dropPlace host hostState (place + shift.places) (point + shift.points) span) := by
  have checked := (embeds.retireHeldBy place point).checkDrop contexts known point span
  exact checked.own (checked.ownership.setState known .dropped)

theorem overwrite :
    Embeds shift guest host earlier (overwrite guest state place point span)
      (State.overwrite host hostState (place + shift.places) (point + shift.points) span) := by
  simp only [State.overwrite, embeds.ledger.activeOn_eq known, contexts.tree.name_eq known]
  cases state.ledger.activeOn place with
  | nil => exact embeds.retireHeldBy place point
  | cons borrow rest =>
      exact (embeds.reportBorrow _ point _ borrow span).retireHeldBy place point

theorem escapedUse :
    Embeds shift guest host earlier (escapedUse guest state place point span)
      (State.escapedUse host hostState (place + shift.places) (point + shift.points) span) := by
  have same : hostState.escapes.contains (place + shift.places) = state.escapes.contains place := by
    rw [Bool.eq_iff_iff, List.contains_iff_mem, List.contains_iff_mem, embeds.escapes]
    simp [embeds.apart place known]
  simp only [State.escapedUse, same, embeds.ledger.everHeldBy_eq known,
    contexts.tree.name_eq known]
  split
  · exact embeds
  · have noted : Embeds shift guest host earlier { state with escapes := place :: state.escapes }
        { hostState with escapes := (place + shift.places) :: hostState.escapes } := by
      refine { embeds with escapes := ?_, noted := ?_ }
      · rw [embeds.escapes]
        rfl
      · exact List.forall_mem_cons.mpr ⟨known, embeds.noted⟩
    have dangles : ((state.ledger.everHeldBy place).map shift.borrow).any Borrow.dangling =
        (state.ledger.everHeldBy place).any Borrow.dangling := by
      rw [List.any_map]
      rfl
    rw [dangles, List.getLast?_map]
    split
    · exact noted
    · cases (state.ledger.everHeldBy place).getLast? with
      | none => exact noted.report _ point _ none span _ _
      | some last =>
          have marked := noted.lent (embeds.ledger.markDangling last.id)
          exact marked.report _ point _ (some last.id) span _ _

theorem lend {holder : PlaceId} (kept : holder < guest.tree.places.length) (kind : BorrowKind) :
    Embeds shift guest host earlier (lend guest state place kind holder point span)
      (State.lend host hostState (place + shift.places) kind (holder + shift.places)
        (point + shift.points) span) := by
  simp only [State.lend, embeds.ledger.conflict?_eq known, contexts.tree.name_eq known,
    contexts.tree.name_eq kept]
  cases conflict : state.ledger.conflict? place kind with
  | some first => exact embeds.reportBorrow _ point _ first span
  | none =>
      exact embeds.lent
        (embeds.ledger.lend kept (contexts.tree.scopeOf_eq kept) point span known conflict)

theorem declareFresh {shadowed : Option PlaceId}
    (alsoKnown : ∀ old, shadowed = some old → old < guest.tree.places.length) :
    Embeds shift guest host earlier (declareFresh guest state place shadowed point span)
      (State.declareFresh host hostState (place + shift.places)
        (shadowed.map (· + shift.places)) (point + shift.points) span) := by
  cases shadowed with
  | none => exact embeds.own (embeds.ownership.declare contexts.tree known)
  | some old =>
      have dropped := embeds.dropPlace contexts (alsoKnown old rfl) point span
      exact dropped.own (dropped.ownership.declare contexts.tree known)

theorem writeThroughBorrow {borrow : Borrow}
    (lent : borrow.referent < guest.tree.places.length) :
    Embeds shift guest host earlier (writeThroughBorrow guest state place point span borrow)
      (State.writeThroughBorrow host hostState (place + shift.places) (point + shift.points) span
        (shift.borrow borrow)) := by
  have others : (hostState.ledger.activeOn (borrow.referent + shift.places)).filter
        (fun other => other.id != (shift.borrow borrow).id) =
      ((state.ledger.activeOn borrow.referent).filter
        fun other => other.id != borrow.id).map shift.borrow := by
    rw [embeds.ledger.activeOn_eq lent, List.filter_map]
    congr 1
    apply List.filter_congr
    intro other _
    simp [Shift.borrow, bne]
  simp only [State.writeThroughBorrow, Shift.referent_borrow, others,
    contexts.tree.name_eq known, contexts.tree.name_eq lent]
  have kind : (shift.borrow borrow).kind = borrow.kind := rfl
  rw [kind]
  cases borrow.kind with
  | shared => exact embeds.reportBorrow _ point _ borrow span
  | exclusive =>
      cases (state.ledger.activeOn borrow.referent).filter fun other => other.id != borrow.id with
      | nil => exact embeds
      | cons other rest => exact embeds.reportBorrow _ point _ other span

theorem writeOwned
    (alone : state.ledger.borrows.Pairwise fun borrow other =>
      borrow.isActive = true → other.isActive = true → borrow.holder ≠ other.holder) :
    Embeds shift guest host earlier (writeOwned guest state place point span)
      (State.writeOwned host hostState (place + shift.places) (point + shift.points) span) := by
  simp only [State.writeOwned, contexts.tree.name_eq known, contexts.tree.holdsReference_eq known,
    embeds.ownership.isMutable_eq known]
  cases guest.tree.holdsReference place with
  | true =>
      simp only [Bool.not_true, Bool.false_and, Bool.false_eq_true, if_false, if_true,
        embeds.ledger.activeOn_eq known, embeds.ledger.heldBy_eq known alone]
      cases state.ledger.activeOn place with
      | cons borrow rest => exact embeds.reportBorrow _ point _ borrow span
      | nil =>
          apply embeds.foldl
          · intro borrow listed
            have kept := embeds.ledger.guestConsistent.mem_heldBy.mp listed
            exact embeds.ledger.inside borrow kept.1
          · intro state hostState borrow lent _ related
            exact related.writeThroughBorrow contexts known point span lent
  | false =>
      simp only [Bool.not_false, Bool.true_and, Bool.false_eq_true, if_false]
      have judged : Embeds shift guest host earlier
          (if (!state.ownership.isMutable guest.tree place) = true then
            state.reportPlace (.writtenImmutable (guest.tree.name place)) point
              (guest.tree.name place) span
          else state)
          (if (!state.ownership.isMutable guest.tree place) = true then
            hostState.reportPlace (.writtenImmutable (guest.tree.name place))
              (point + shift.points) (guest.tree.name place) span
          else hostState) := by
        split
        · exact embeds.report _ point _ none span [] []
        · exact embeds
      rw [judged.ledger.activeOn_eq known]
      generalize (if (!state.ownership.isMutable guest.tree place) = true then
        state.reportPlace (.writtenImmutable (guest.tree.name place)) point
          (guest.tree.name place) span else state) = told at judged ⊢
      cases told.ledger.activeOn place with
      | nil => exact judged
      | cons borrow rest => exact judged.reportBorrow _ point _ borrow span

end Place

section Statements

variable (point : Point) (span : Span)

include contexts

theorem assignTarget {target : Target} (known : target.Within guest.tree.places.length) :
    Embeds shift guest host earlier (assignTarget guest state target point span)
      (State.assignTarget host hostState (shift.target target) (point + shift.points) span) := by
  obtain ⟨given, shadowed⟩ := known
  cases target with
  | existing place =>
      exact (embeds.overwrite contexts given point span).assignPlace contexts given point span
  | fresh place old rebinds =>
      have declared := embeds.declareFresh contexts given point span shadowed
      exact declared.own (declared.ownership.setState given .owned)

theorem rebindTarget {target : Target} (known : target.Within guest.tree.places.length)
    (mutable copy : Flag) :
    Embeds shift guest host earlier (rebindTarget guest state target mutable copy point span)
      (State.rebindTarget host hostState (shift.target target) mutable copy (point + shift.points)
        span) := by
  obtain ⟨given, shadowed⟩ := known
  cases target with
  | existing place =>
      have same : hostState.ownership.stateOf host.tree (place + shift.places) =
          state.ownership.stateOf guest.tree place := embeds.ownership.stateOf_eq given
      simp only [State.rebindTarget, Shift.target, same]
      split
      · exact (embeds.retireHeldBy place point).bindPlace contexts given point span mutable copy
          false _ _
      · exact embeds.bindPlace contexts given point span mutable copy false [] []
  | fresh place old rebinds =>
      simp only [State.rebindTarget, Shift.target]
      cases old with
      | none =>
          exact (embeds.declareFresh contexts given point span shadowed).bindPlace contexts given
            point span mutable copy true [] []
      | some old =>
          simp only [Option.map_some, embeds.ownership.stateOf_eq (shadowed old rfl)]
          split
          · have reported := embeds.reportDuplicate contexts (shadowed old rfl) point span
              (borrowNotes guest state old) (borrowNotes host hostState (old + shift.places))
            exact (reported.declareFresh contexts given point span shadowed).bindPlace contexts
              given point span mutable copy true [] []
          · exact (embeds.declareFresh contexts given point span shadowed).bindPlace contexts given
              point span mutable copy true [] []

theorem takeSource {source : Use} (known : source.place < guest.tree.places.length) :
    Embeds shift guest host earlier (takeSource guest state source point span).1
      (State.takeSource host hostState (shift.use source) (point + shift.points) span).1 := by
  obtain ⟨place, escaped⟩ := source
  cases escaped with
  | true => exact embeds.escapedUse contexts known point span
  | false => exact embeds.consumeSource contexts known point span "move"

theorem passOn {source : Use} {target : Target}
    (known : source.place < guest.tree.places.length)
    (given : target.place < guest.tree.places.length) :
    Embeds shift guest host earlier
      (if !source.escaped && guest.tree.holdsReference source.place then
        State.transfer guest state source.place target.place
      else state)
      (if !(shift.use source).escaped && host.tree.holdsReference (shift.use source).place then
        State.transfer host hostState (shift.use source).place (shift.target target).place
      else hostState) := by
  simp only [Shift.use, contexts.tree.holdsReference_eq known, shift.target_place]
  split
  · exact embeds.lent (embeds.ledger.transfer given (contexts.tree.scopeOf_eq given) known)
  · exact embeds

theorem bind {target : Target} {source : Option Use} (mutable copy : Flag)
    (given : target.Within guest.tree.places.length)
    (known : ∀ use, source = some use → use.place < guest.tree.places.length) :
    Embeds shift guest host earlier (bind guest state target source mutable copy point span)
      (State.bind host hostState (shift.target target) (source.map shift.use) mutable copy
        (point + shift.points) span) := by
  cases source with
  | none => exact embeds.rebindTarget contexts point span given mutable copy
  | some use =>
      rw [Option.map_some, bind_some, bind_some]
      have taken := embeds.takeSource contexts point span (known use rfl)
      exact (taken.rebindTarget contexts point span given mutable copy).passOn contexts
        (known use rfl) given.1

theorem move {target : Target} {source : Use} (given : target.Within guest.tree.places.length)
    (known : source.place < guest.tree.places.length) :
    Embeds shift guest host earlier (move guest state target source point span)
      (State.move host hostState (shift.target target) (shift.use source) (point + shift.points)
        span) := by
  rw [move_eq, move_eq]
  have taken := embeds.takeSource contexts point span known
  exact (taken.assignTarget contexts point span given).passOn contexts known given.1

theorem liveUse {source : Use} (known : source.place < guest.tree.places.length) :
    Embeds shift guest host earlier (liveUse guest state source point span).1
      (State.liveUse host hostState (shift.use source) (point + shift.points) span).1 := by
  obtain ⟨place, escaped⟩ := source
  cases escaped with
  | true => exact embeds.escapedUse contexts known point span
  | false => exact embeds

theorem borrow {target : Target} {source : Use} (kind : BorrowKind)
    (given : target.Within guest.tree.places.length)
    (known : source.place < guest.tree.places.length) :
    Embeds shift guest host earlier (borrow guest state kind target source point span)
      (State.borrow host hostState kind (shift.target target) (shift.use source)
        (point + shift.points) span) := by
  have used := embeds.liveUse contexts point span known
  rw [borrow_eq, borrow_eq, readyToLend, readyToLend, shift.target_place]
  have escaped : (shift.use source).escaped = source.escaped := rfl
  have place : (shift.use source).place = source.place + shift.places := rfl
  rw [escaped, place]
  split
  · exact used.assignTarget contexts point span given
  · have checked := used.checkReferent contexts known point span kind
    exact (checked.assignTarget contexts point span given).lend contexts known point span given.1
      kind

theorem read {source : Use} (known : source.place < guest.tree.places.length) :
    Embeds shift guest host earlier (read guest state source point span)
      (State.read host hostState (shift.use source) (point + shift.points) span) := by
  obtain ⟨place, escaped⟩ := source
  cases escaped with
  | true => exact embeds.escapedUse contexts known point span
  | false => exact (embeds.requireOwned contexts known point span "read").1

theorem write {source : Use} (known : source.place < guest.tree.places.length)
    (alone : state.ledger.borrows.Pairwise fun borrow other =>
      borrow.isActive = true → other.isActive = true → borrow.holder ≠ other.holder) :
    Embeds shift guest host earlier (write guest state source point span)
      (State.write host hostState (shift.use source) (point + shift.points) span) := by
  obtain ⟨place, escaped⟩ := source
  cases escaped with
  | true => exact embeds.escapedUse contexts known point span
  | false =>
      have same := embeds.ownership.stateOf_eq known
      simp only [State.write, State.liveUse, Shift.use, Bool.false_eq_true, if_false, if_true,
        State.requireOwned, same, contexts.tree.name_eq known]
      cases state.ownership.stateOf guest.tree place with
      | movedOut => exact embeds.report _ point _ none span [] []
      | uninitialized => exact embeds.report _ point _ none span [] []
      | owned => exact embeds.writeOwned contexts known point span alone
      | dropped => exact embeds.writeOwned contexts known point span alone

theorem consume {source : Use} (known : source.place < guest.tree.places.length) :
    Embeds shift guest host earlier (consume guest state source point span)
      (State.consume host hostState (shift.use source) (point + shift.points) span) := by
  obtain ⟨place, escaped⟩ := source
  cases escaped with
  | true => exact embeds.escapedUse contexts known point span
  | false =>
      have consumed := embeds.consumeSource contexts known point span "consume"
      have retired := consumed.retireHeldBy place (point + 1)
      rw [Nat.add_right_comm] at retired
      exact retired

omit contexts in
theorem foldl_retireHeldBy (places : List PlaceId) :
    Embeds shift guest host earlier
      (places.foldl (fun state place => state.retireHeldBy place point) state)
      ((places.map (· + shift.places)).foldl
        (fun state place => state.retireHeldBy place (point + shift.points)) hostState) := by
  induction places generalizing state hostState with
  | nil => exact embeds
  | cons place rest inductionHypothesis =>
      exact inductionHypothesis (embeds.retireHeldBy place point)

theorem foldl_dropPlace {places : List PlaceId}
    (known : ∀ place ∈ places, place < guest.tree.places.length) :
    Embeds shift guest host earlier
      (places.foldl (fun state place => State.dropPlace guest state place point span) state)
      ((places.map (· + shift.places)).foldl
        (fun state place => State.dropPlace host state place (point + shift.points) span)
        hostState) := by
  induction places generalizing state hostState with
  | nil => exact embeds
  | cons place rest inductionHypothesis =>
      exact inductionHypothesis
        (embeds.dropPlace contexts (known place List.mem_cons_self) point span)
        fun other later => known other (List.mem_cons_of_mem _ later)

theorem exitScope {scope : ScopeId} (notRoot : scope ≠ ScopeTree.rootId)
    (inside : scope < guest.tree.scopes.length)
    (known : ∀ place ∈ guest.tree.placesOf scope, place < guest.tree.places.length) :
    Embeds shift guest host earlier (exitScope guest state scope point span)
      (State.exitScope host hostState (shift.scopes scope) (point + shift.points) span) := by
  have live : ((host.tree.placesOf (shift.scopes scope)).filter fun place =>
        hostState.ownership.stateOf host.tree place != .dropped) =
      ((guest.tree.placesOf scope).filter fun place =>
        state.ownership.stateOf guest.tree place != .dropped).map (· + shift.places) := by
    rw [contexts.tree.lists scope notRoot inside, List.filter_map]
    congr 1
    apply List.filter_congr
    intro place listed
    rw [Function.comp_apply, embeds.ownership.stateOf_eq (known place listed)]
  simp only [State.exitScope, live, ← List.map_reverse]
  apply (embeds.foldl_retireHeldBy point _).foldl_dropPlace contexts
  intro place listed
  exact known place (List.mem_of_mem_filter (List.mem_reverse.mp listed))

end Statements

/-- A statement is judged in both in the same way. -/
theorem step {resolution : Resolution} (known : resolution.effect.Within guest.tree)
    (alone : state.ledger.borrows.Pairwise fun borrow other =>
      borrow.isActive = true → other.isActive = true → borrow.holder ≠ other.holder)
    (contexts : guest.Embeds shift host) :
    Embeds shift guest host earlier (state.step guest resolution)
      (hostState.step host (shift.resolution resolution)) := by
  obtain ⟨point, scope, span, effect⟩ := resolution
  obtain ⟨source, target, closes⟩ := known
  cases effect with
  | enter => exact embeds
  | exit scope =>
      obtain ⟨notRoot, inside, listed⟩ := closes scope rfl
      exact embeds.exitScope contexts point span notRoot inside listed
  | bind given use mutable copy =>
      exact embeds.bind contexts point span mutable copy (target given rfl) source
  | declare given =>
      obtain ⟨known, shadowed⟩ := target given rfl
      have declared := embeds.declareFresh contexts known point span shadowed
      cases given <;> exact declared
  | move given use => exact embeds.move contexts point span (target given rfl) (source use rfl)
  | borrow kind given use =>
      exact embeds.borrow contexts point span kind (target given rfl) (source use rfl)
  | write use => exact embeds.write contexts point span (source use rfl) alone
  | read use => exact embeds.read contexts point span (source use rfl)
  | consume use => exact embeds.consume contexts point span (source use rfl)

theorem retireDead (contexts : guest.Embeds shift host) (point : Point) :
    Embeds shift guest host earlier (state.retireDead guest point)
      (hostState.retireDead host (point + shift.points)) := by
  have guestRetired := retireDead_becomes guest state point
  have hostRetired := retireDead_becomes host hostState (point + shift.points)
  have inOrder := embeds.ledger.guestConsistent
  have hostInOrder := embeds.ledger.hostConsistent
  have hostBorrows := hostRetired.borrows hostInOrder
  rw [Nat.add_right_comm] at hostBorrows
  rw [retireDead_eq guest, retireDead_eq host]
  refine embeds.lent (embeds.ledger.ended (guestRetired.consistent inOrder)
    (hostRetired.consistent hostInOrder) (guestRetired.borrows inOrder) hostBorrows ?_)
  intro borrow listed
  exact contexts.liveness borrow.holder (embeds.ledger.inside borrow listed).2 point

theorem advance {resolution : Resolution} (known : resolution.effect.Within guest.tree)
    (alone : state.ledger.borrows.Pairwise fun borrow other =>
      borrow.isActive = true → other.isActive = true → borrow.holder ≠ other.holder)
    (contexts : guest.Embeds shift host) :
    Embeds shift guest host earlier (guest.advance state resolution)
      (host.advance hostState (shift.resolution resolution)) :=
  (embeds.step known alone contexts).retireDead contexts resolution.point

end Embeds

end State

end LoanCheck
