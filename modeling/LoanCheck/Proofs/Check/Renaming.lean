import LoanCheck.Check.Run
import LoanCheck.Proofs.Check.Settlement
import LoanCheck.Proofs.Loan.Origin
import LoanCheck.Proofs.Scope.Renaming
import Mathlib.Logic.Equiv.Basic

/-!
# Names are only shown

The rules know places by their numbers.  Names, and where statements stand in the source, go
into what is told and nowhere else.  So two analyses that know the same of all places, but for
their names, stay in step: `State.Renames` says that their states differ in what is shown
alone, and every rule keeps that.  Whether a place holds a reference is asked of the operand of
a statement only, so that is all that has to agree.
-/

namespace LoanCheck

/-- The same report, about a place that may have another name, in other words and perhaps at
another place in the source. -/
structure Diagnostic.Renames (rename : Name → Name) (first second : Diagnostic) : Prop where
  kind : second.kind = first.kind
  point : second.point = first.point
  place : second.place = rename first.place
  borrow : second.borrow = first.borrow

/-- Two analyses that know the same of all places, but for their names. -/
structure Context.Renames (rename : Name → Name) (first second : Context) : Prop where
  names : ∀ place, second.tree.name place = rename (first.tree.name place)
  scopes : second.tree.scopeOf = first.tree.scopeOf
  records : second.tree.freshRecord = first.tree.freshRecord
  lists : second.tree.placesOf = first.tree.placesOf
  liveness : second.liveness = first.liveness

namespace Ownership

variable {tree other : ScopeTree} (records : other.freshRecord = tree.freshRecord)
  (ownership : Ownership)

include records

theorem record_of_records : ownership.record other = ownership.record tree := by
  funext place
  rw [record, record, records]

theorem stateOf_of_records : ownership.stateOf other = ownership.stateOf tree := by
  funext place
  rw [stateOf, stateOf, record_of_records records]

theorem isMutable_of_records : ownership.isMutable other = ownership.isMutable tree := by
  funext place
  rw [isMutable, isMutable, record_of_records records]

theorem setState_of_records : ownership.setState other = ownership.setState tree := by
  funext place state
  rw [setState, setState, record_of_records records]

theorem moveOut_of_records : ownership.moveOut other = ownership.moveOut tree := by
  funext place
  simp only [moveOut, record_of_records records, setState_of_records records]

theorem declare_of_records : ownership.declare other = ownership.declare tree := by
  funext place
  rw [declare, declare, records]

end Ownership

namespace State

/-- Two states that differ in what is shown alone. -/
structure Renames (rename : Name → Name) (first second : State) : Prop where
  ownership : second.ownership = first.ownership
  ledger : second.ledger.unplaced = first.ledger.unplaced
  escapes : second.escapes = first.escapes
  diagnostics : List.Forall₂ (Diagnostic.Renames rename) first.diagnostics second.diagnostics

theorem renames_empty (rename : Name → Name) : Renames rename {} {} := ⟨rfl, rfl, rfl, .nil⟩

namespace Renames

variable {rename : Name → Name} {first second : Context} {state other : State}
  (contexts : first.Renames rename second) (renames : Renames rename state other)

section Parts

include renames

theorem own {ownership otherOwnership : Ownership} (same : otherOwnership = ownership) :
    Renames rename { state with ownership } { other with ownership := otherOwnership } :=
  { renames with ownership := same }

theorem lent {ledger otherLedger : Ledger} (same : otherLedger.unplaced = ledger.unplaced) :
    Renames rename { state with ledger } { other with ledger := otherLedger } :=
  { renames with ledger := same }

theorem diagnostics_eq_nil_iff : other.diagnostics = [] ↔ state.diagnostics = [] := by
  rw [← List.length_eq_zero_iff, ← renames.diagnostics.length_eq, List.length_eq_zero_iff]

theorem activeOn (place : PlaceId) :
    List.Forall₂ Borrow.Alike (state.ledger.activeOn place) (other.ledger.activeOn place) := by
  apply Borrow.forall₂_alike
  rw [← Ledger.activeOn_unplaced, ← Ledger.activeOn_unplaced, renames.ledger]

/-- The other active borrows of a referent. -/
theorem rivals (borrow : Borrow) :
    List.Forall₂ Borrow.Alike
      ((state.ledger.activeOn borrow.referent).filter fun rival => rival.id != borrow.id)
      ((other.ledger.activeOn borrow.referent).filter fun rival => rival.id != borrow.id) := by
  have commutes : ∀ borrows : List Borrow,
      (borrows.filter fun rival => rival.id != borrow.id).map Borrow.unplaced =
        (borrows.map Borrow.unplaced).filter fun rival => rival.id != borrow.id := by
    intro borrows
    rw [List.filter_map]
    rfl
  apply Borrow.forall₂_alike
  rw [commutes, commutes, ← Ledger.activeOn_unplaced, ← Ledger.activeOn_unplaced, renames.ledger]

theorem heldBy (holder : PlaceId) :
    List.Forall₂ Borrow.Alike (state.ledger.heldBy holder) (other.ledger.heldBy holder) := by
  apply Borrow.forall₂_alike
  rw [← Ledger.heldBy_unplaced, ← Ledger.heldBy_unplaced, renames.ledger]

theorem everHeldBy (holder : PlaceId) :
    (other.ledger.everHeldBy holder).map Borrow.unplaced =
      (state.ledger.everHeldBy holder).map Borrow.unplaced := by
  rw [← Ledger.everHeldBy_unplaced, ← Ledger.everHeldBy_unplaced, renames.ledger]

theorem any_dangling (holder : PlaceId) :
    (other.ledger.everHeldBy holder).any Borrow.dangling =
      (state.ledger.everHeldBy holder).any Borrow.dangling := by
  rw [← Borrow.any_dangling_map, renames.everHeldBy, Borrow.any_dangling_map]

theorem lastHeldBy (holder : PlaceId) :
    Option.Rel Borrow.Alike (state.ledger.everHeldBy holder).getLast?
      (other.ledger.everHeldBy holder).getLast? := by
  apply Borrow.rel_alike
  rw [← List.getLast?_map, ← List.getLast?_map, renames.everHeldBy]

theorem conflict? (referent : PlaceId) (kind : BorrowKind) :
    Option.Rel Borrow.Alike (state.ledger.conflict? referent kind)
      (other.ledger.conflict? referent kind) := by
  apply Borrow.rel_alike
  rw [← Ledger.conflict?_unplaced, ← Ledger.conflict?_unplaced, renames.ledger]

theorem retireHeldBy (holder : PlaceId) (point : Point) :
    Renames rename (state.retireHeldBy holder point) (other.retireHeldBy holder point) := by
  apply renames.lent
  rw [Ledger.unplaced_retireHeldBy, Ledger.unplaced_retireHeldBy, renames.ledger]

theorem foldl_retireHeldBy (places : List PlaceId) (point : Point) :
    Renames rename (places.foldl (fun state place => state.retireHeldBy place point) state)
      (places.foldl (fun state place => state.retireHeldBy place point) other) := by
  induction places generalizing state other with
  | nil => exact renames
  | cons place rest inductionHypothesis =>
      exact inductionHypothesis (renames.retireHeldBy place point)

/-- The same is done for borrows that differ in where they were taken. -/
theorem foldl {told otherTold : State → Borrow → State} {borrows others : List Borrow}
    (alike : List.Forall₂ Borrow.Alike borrows others)
    (each : ∀ {state other borrow twin}, Borrow.Alike borrow twin → Renames rename state other →
      Renames rename (told state borrow) (otherTold other twin)) :
    Renames rename (borrows.foldl told state) (others.foldl otherTold other) := by
  induction alike generalizing state other with
  | nil => exact renames
  | cons same rest inductionHypothesis => exact inductionHypothesis (each same renames)

end Parts

section Reports

variable (point : Point) (span otherSpan : Span)

include renames

theorem report {violation otherViolation : Violation} {name otherName : Name}
    {borrow otherBorrow : Option BorrowId} {notes otherNotes : List String}
    (renamed : otherName = rename name) (same : otherBorrow = borrow)
    (kind : otherViolation.kind = violation.kind) :
    Renames rename (state.report violation point name borrow span notes)
      (other.report otherViolation point otherName otherBorrow otherSpan otherNotes) := by
  have told : List.Forall₂ (Diagnostic.Renames rename)
      [{ kind := violation.kind, message := violation.message, point, place := name, borrow, span,
         notes }]
      [{ kind := otherViolation.kind, message := otherViolation.message, point,
         place := otherName, borrow := otherBorrow, span := otherSpan, notes := otherNotes }] :=
    .cons ⟨kind, rfl, renamed, same⟩ .nil
  exact { renames with diagnostics := List.rel_append renames.diagnostics told }

include contexts

/-- A report about a place. -/
theorem reportPlace {violation otherViolation : Violation} (place : PlaceId)
    (kind : otherViolation.kind = violation.kind) :
    Renames rename (state.reportPlace violation point (first.tree.name place) span)
      (other.reportPlace otherViolation point (second.tree.name place) otherSpan) :=
  renames.report point span otherSpan (contexts.names place) rfl kind

/-- A report about a place that a borrow explains. -/
theorem reportBorrow {violation otherViolation : Violation} {borrow twin : Borrow}
    (place : PlaceId) (alike : borrow.Alike twin)
    (kind : otherViolation.kind = violation.kind) :
    Renames rename
      (state.reportBorrow first.tree violation point (first.tree.name place) borrow span)
      (other.reportBorrow second.tree otherViolation point (second.tree.name place) twin
        otherSpan) :=
  renames.report point span otherSpan (contexts.names place) (congrArg some alike.id) kind

end Reports

section Rules

variable (place : PlaceId) (point : Point) (span otherSpan : Span)

include contexts renames

theorem requireOwned (action : String) :
    Renames rename (requireOwned first state place point action span).1
        (State.requireOwned second other place point action otherSpan).1 ∧
      (State.requireOwned second other place point action otherSpan).2 =
        (State.requireOwned first state place point action span).2 := by
  simp only [State.requireOwned, renames.ownership, Ownership.stateOf_of_records contexts.records]
  cases state.ownership.stateOf first.tree place with
  | movedOut => exact ⟨renames.reportPlace contexts point span otherSpan place rfl, rfl⟩
  | uninitialized => exact ⟨renames.reportPlace contexts point span otherSpan place rfl, rfl⟩
  | owned => exact ⟨renames, rfl⟩
  | dropped => exact ⟨renames, rfl⟩

theorem reportDuplicate (notes otherNotes : List String) :
    Renames rename (reportDuplicate first state place point span notes)
      (State.reportDuplicate second other place point otherSpan otherNotes) :=
  renames.report point span otherSpan (contexts.names place) rfl rfl

theorem bindPlace (mutable copy : Flag) (fresh : Bool) (notes otherNotes : List String) :
    Renames rename (bindPlace first state place point mutable copy fresh span notes).1
      (State.bindPlace second other place point mutable copy fresh otherSpan otherNotes).1 := by
  simp only [State.bindPlace, renames.ownership, Ownership.stateOf_of_records contexts.records]
  split
  · have reported := renames.reportDuplicate contexts place point span otherSpan notes otherNotes
    exact reported.own (congrArg (Ownership.rebind · place mutable copy) reported.ownership)
  · exact renames.own (congrArg (Ownership.rebind · place mutable copy) renames.ownership)

theorem assignPlace :
    Renames rename (assignPlace first state place point span).1
      (State.assignPlace second other place point otherSpan).1 := by
  have filled : other.ownership.fill second.tree place = state.ownership.fill first.tree place := by
    rw [Ownership.fill, Ownership.setState_of_records contexts.records, renames.ownership]
    rfl
  simp only [State.assignPlace, renames.ownership, Ownership.record_of_records contexts.records]
  split
  · exact (renames.reportPlace contexts point span otherSpan place (by rfl)).own filled
  · exact renames.own filled

theorem checkReferent (kind : BorrowKind) :
    Renames rename (checkReferent first state kind place point span)
      (State.checkReferent second other kind place point otherSpan) := by
  have required := (renames.requireOwned contexts place point span otherSpan "borrow").1
  simp only [State.checkReferent, required.ownership,
    Ownership.isMutable_of_records contexts.records]
  split
  · exact required.reportPlace contexts point span otherSpan place rfl
  · exact required

theorem moveOut :
    Renames rename { state with ownership := state.ownership.moveOut first.tree place }
      { other with ownership := other.ownership.moveOut second.tree place } := by
  apply renames.own
  rw [Ownership.moveOut_of_records contexts.records, renames.ownership]

theorem consumeSource (action : String) :
    Renames rename (consumeSource first state place point span action)
      (State.consumeSource second other place point otherSpan action) := by
  have required := renames.requireOwned contexts place point span otherSpan action
  unfold State.consumeSource
  generalize State.requireOwned first state place point action span = answer at required
  generalize State.requireOwned second other place point action otherSpan = otherAnswer
    at required
  obtain ⟨judged, owned⟩ := answer
  obtain ⟨otherJudged, otherOwned⟩ := otherAnswer
  obtain ⟨judgedAlike, same⟩ := required
  simp only at judgedAlike same ⊢
  subst same
  have borrowed := judgedAlike.activeOn place
  have record : otherJudged.ownership.record second.tree place =
      judged.ownership.record first.tree place := by
    rw [Ownership.record_of_records contexts.records, judgedAlike.ownership]
  simp only [record]
  generalize judged.ledger.activeOn place = borrows at borrowed
  generalize otherJudged.ledger.activeOn place = otherBorrows at borrowed
  cases otherOwned with
  | false => exact judgedAlike.moveOut contexts place
  | true =>
      cases borrowed with
      | nil => exact judgedAlike.moveOut contexts place
      | cons alike rest =>
          simp only
          split
          · exact judgedAlike.moveOut contexts place
          · exact (judgedAlike.reportBorrow contexts point span otherSpan place alike
              (by rfl)).moveOut contexts place

theorem reportOutliving {borrow twin : Borrow} (alike : borrow.Alike twin) :
    Renames rename (reportOutliving first state place point span borrow)
      (State.reportOutliving second other place point otherSpan twin) := by
  have named : second.tree.name twin.holder = rename (first.tree.name borrow.holder) := by
    rw [alike.holder]
    exact contexts.names borrow.holder
  apply (renames.report point span otherSpan named (congrArg some alike.id) (by rfl)).lent
  rw [Ledger.unplaced_retire, Ledger.unplaced_markDangling, Ledger.unplaced_retire,
    Ledger.unplaced_markDangling, alike.id, renames.ledger]

theorem checkDrop :
    Renames rename (checkDrop first state place point span)
      (State.checkDrop second other place point otherSpan) := by
  apply renames.foldl (renames.activeOn place)
  intro state other borrow twin alike related
  exact related.reportOutliving contexts place point span otherSpan alike

theorem dropPlace :
    Renames rename (dropPlace first state place point span)
      (State.dropPlace second other place point otherSpan) := by
  have checked := (renames.retireHeldBy place point).checkDrop contexts place point span otherSpan
  apply checked.own
  rw [Ownership.drop, Ownership.setState_of_records contexts.records, checked.ownership]
  rfl

theorem foldl_dropPlace (places : List PlaceId) :
    Renames rename
      (places.foldl (fun state place => State.dropPlace first state place point span) state)
      (places.foldl (fun state place => State.dropPlace second state place point otherSpan)
        other) := by
  induction places generalizing state other with
  | nil => exact renames
  | cons place rest inductionHypothesis =>
      exact inductionHypothesis (renames.dropPlace contexts place point span otherSpan)

theorem overwrite :
    Renames rename (overwrite first state place point span)
      (State.overwrite second other place point otherSpan) := by
  have borrowed := renames.activeOn place
  unfold State.overwrite
  generalize state.ledger.activeOn place = borrows at borrowed
  generalize other.ledger.activeOn place = others at borrowed
  cases borrowed with
  | nil => exact renames.retireHeldBy place point
  | cons alike rest =>
      exact (renames.reportBorrow contexts point span otherSpan place alike
        (by rfl)).retireHeldBy place point

theorem escapedUse :
    Renames rename (escapedUse first state place point span)
      (State.escapedUse second other place point otherSpan) := by
  have noted : Renames rename { state with escapes := place :: state.escapes }
      { other with escapes := place :: other.escapes } :=
    { renames with escapes := congrArg (place :: ·) renames.escapes }
  have last := renames.lastHeldBy place
  rw [renames.escapes] at noted
  simp only [State.escapedUse, renames.escapes, renames.any_dangling]
  split
  · exact renames
  · split
    · exact noted
    · generalize (state.ledger.everHeldBy place).getLast? = kept at last
      generalize (other.ledger.everHeldBy place).getLast? = otherKept at last
      cases last with
      | none => exact noted.report point span otherSpan (contexts.names place) rfl rfl
      | some alike =>
          refine (noted.lent ?_).report point span otherSpan (contexts.names place)
            (congrArg some alike.id) rfl
          rw [Ledger.unplaced_markDangling, Ledger.unplaced_markDangling, alike.id, renames.ledger]

theorem lend (kind : BorrowKind) (holder : PlaceId) :
    Renames rename (lend first state place kind holder point span)
      (State.lend second other place kind holder point otherSpan) := by
  have conflict := renames.conflict? place kind
  unfold State.lend
  generalize state.ledger.conflict? place kind = found at conflict
  generalize other.ledger.conflict? place kind = otherFound at conflict
  cases conflict with
  | none =>
      apply renames.lent
      rw [Ledger.unplaced_lend _ rfl, renames.ledger,
        Ledger.unplaced_lend _ (congrFun contexts.scopes holder)]
  | some alike =>
      cases kind with
      | shared => exact renames.reportBorrow contexts point span otherSpan holder alike rfl
      | exclusive => exact renames.reportBorrow contexts point span otherSpan holder alike rfl

theorem declareFresh (shadowed : Option PlaceId) :
    Renames rename (declareFresh first state place shadowed point span)
      (State.declareFresh second other place shadowed point otherSpan) := by
  have declared : ∀ {state other : State}, Renames rename state other →
      Renames rename { state with ownership := state.ownership.declare first.tree place }
        { other with ownership := other.ownership.declare second.tree place } := by
    intro state other related
    apply related.own
    rw [Ownership.declare_of_records contexts.records, related.ownership]
  cases shadowed with
  | none => exact declared renames
  | some old => exact declared (renames.dropPlace contexts old point span otherSpan)

theorem writeThroughBorrow {borrow twin : Borrow} (alike : borrow.Alike twin) :
    Renames rename (writeThroughBorrow first state place point span borrow)
      (State.writeThroughBorrow second other place point otherSpan twin) := by
  have rivals := renames.rivals borrow
  simp only [State.writeThroughBorrow, alike.kind, alike.referent, alike.id]
  cases borrow.kind with
  | shared => exact renames.reportBorrow contexts point span otherSpan place alike rfl
  | exclusive =>
      generalize (state.ledger.activeOn borrow.referent).filter
        (fun rival => rival.id != borrow.id) = found at rivals
      generalize (other.ledger.activeOn borrow.referent).filter
        (fun rival => rival.id != borrow.id) = otherFound at rivals
      cases rivals with
      | nil => exact renames
      | cons rival rest => exact renames.reportBorrow contexts point span otherSpan place rival rfl

theorem writeOwned
    (references : second.tree.holdsReference place = first.tree.holdsReference place) :
    Renames rename (writeOwned first state place point span)
      (State.writeOwned second other place point otherSpan) := by
  simp only [State.writeOwned, references, renames.ownership,
    Ownership.isMutable_of_records contexts.records]
  generalize (!first.tree.holdsReference place &&
    !state.ownership.isMutable first.tree place) = immutable
  have judged : Renames rename
      (if immutable then state.reportPlace (.writtenImmutable (first.tree.name place)) point
        (first.tree.name place) span else state)
      (if immutable then other.reportPlace (.writtenImmutable (second.tree.name place)) point
        (second.tree.name place) otherSpan else other) := by
    split
    · exact renames.reportPlace contexts point span otherSpan place rfl
    · exact renames
  generalize (if immutable then state.reportPlace (.writtenImmutable (first.tree.name place)) point
    (first.tree.name place) span else state) = told at judged
  generalize (if immutable then other.reportPlace (.writtenImmutable (second.tree.name place)) point
    (second.tree.name place) otherSpan else other) = otherTold at judged
  have borrowed := judged.activeOn place
  generalize told.ledger.activeOn place = borrows at borrowed
  generalize otherTold.ledger.activeOn place = others at borrowed
  cases first.tree.holdsReference place with
  | true =>
      cases borrowed with
      | cons alike rest => exact judged.reportBorrow contexts point span otherSpan place alike rfl
      | nil =>
          apply judged.foldl (judged.heldBy place)
          intro state other borrow twin alike related
          exact related.writeThroughBorrow contexts place point span otherSpan alike
  | false =>
      cases borrowed with
      | cons alike rest => exact judged.reportBorrow contexts point span otherSpan place alike rfl
      | nil => exact judged

end Rules

section Statements

variable (point : Point) (span otherSpan : Span)

include contexts renames

theorem assignTarget (target : Target) :
    Renames rename (assignTarget first state target point span)
      (State.assignTarget second other target point otherSpan) := by
  cases target with
  | existing place =>
      exact (renames.overwrite contexts place point span otherSpan).assignPlace contexts place point
        span otherSpan
  | fresh place shadowed rebinds =>
      have declared := renames.declareFresh contexts place point span otherSpan shadowed
      apply declared.own
      rw [Ownership.fill, Ownership.setState_of_records contexts.records, declared.ownership]
      rfl

theorem rebindTarget (target : Target) (mutable copy : Flag) :
    Renames rename (rebindTarget first state target mutable copy point span)
      (State.rebindTarget second other target mutable copy point otherSpan) := by
  have states : other.ownership.stateOf second.tree = state.ownership.stateOf first.tree := by
    rw [Ownership.stateOf_of_records contexts.records, renames.ownership]
  cases target with
  | existing place =>
      simp only [State.rebindTarget, states]
      split
      · exact (renames.retireHeldBy place point).bindPlace contexts place point span otherSpan
          mutable copy false _ _
      · exact renames.bindPlace contexts place point span otherSpan mutable copy false [] []
  | fresh place shadowed rebinds =>
      simp only [State.rebindTarget, states]
      apply bindPlace contexts
      apply declareFresh contexts
      cases shadowed with
      | none => exact renames
      | some old =>
          simp only
          split
          · exact renames.reportDuplicate contexts old point span otherSpan _ _
          · exact renames

theorem takeSource (source : Use) :
    Renames rename (takeSource first state source point span).1
      (State.takeSource second other source point otherSpan).1 := by
  obtain ⟨place, escaped⟩ := source
  cases escaped with
  | true => exact renames.escapedUse contexts place point span otherSpan
  | false => exact renames.consumeSource contexts place point span otherSpan "move"

omit renames in
theorem passOn (renames : Renames rename state other) {source : Use} (target : Target)
    (references : second.tree.holdsReference source.place =
      first.tree.holdsReference source.place) :
    Renames rename
      (if !source.escaped && first.tree.holdsReference source.place then
        State.transfer first state source.place target.place
      else state)
      (if !source.escaped && second.tree.holdsReference source.place then
        State.transfer second other source.place target.place
      else other) := by
  rw [references]
  split
  · apply renames.lent
    rw [Ledger.unplaced_transfer _ rfl, renames.ledger,
      Ledger.unplaced_transfer _ (congrFun contexts.scopes target.place)]
  · exact renames

theorem bind (target : Target) {source : Option Use} (mutable copy : Flag)
    (references : ∀ use, source = some use →
      second.tree.holdsReference use.place = first.tree.holdsReference use.place) :
    Renames rename (bind first state target source mutable copy point span)
      (State.bind second other target source mutable copy point otherSpan) := by
  cases source with
  | none => exact renames.rebindTarget contexts point span otherSpan target mutable copy
  | some use =>
      rw [bind_some, bind_some]
      have taken := renames.takeSource contexts point span otherSpan use
      exact (taken.rebindTarget contexts point span otherSpan target mutable copy).passOn contexts
        target (references use rfl)

theorem move (target : Target) {source : Use}
    (references : second.tree.holdsReference source.place =
      first.tree.holdsReference source.place) :
    Renames rename (move first state target source point span)
      (State.move second other target source point otherSpan) := by
  rw [move_eq, move_eq]
  have taken := renames.takeSource contexts point span otherSpan source
  exact (taken.assignTarget contexts point span otherSpan target).passOn contexts target references

theorem liveUse (source : Use) :
    Renames rename (liveUse first state source point span).1
      (State.liveUse second other source point otherSpan).1 := by
  obtain ⟨place, escaped⟩ := source
  cases escaped with
  | true => exact renames.escapedUse contexts place point span otherSpan
  | false => exact renames

theorem borrow (kind : BorrowKind) (target : Target) (source : Use) :
    Renames rename (borrow first state kind target source point span)
      (State.borrow second other kind target source point otherSpan) := by
  have used := renames.liveUse contexts point span otherSpan source
  rw [borrow_eq, borrow_eq, readyToLend, readyToLend]
  split
  · exact used.assignTarget contexts point span otherSpan target
  · have checked := used.checkReferent contexts source.place point span otherSpan kind
    exact (checked.assignTarget contexts point span otherSpan target).lend contexts source.place
      point span otherSpan kind target.place

theorem read (source : Use) :
    Renames rename (read first state source point span)
      (State.read second other source point otherSpan) := by
  obtain ⟨place, escaped⟩ := source
  cases escaped with
  | true => exact renames.escapedUse contexts place point span otherSpan
  | false => exact (renames.requireOwned contexts place point span otherSpan "read").1

theorem write {source : Use}
    (references : second.tree.holdsReference source.place =
      first.tree.holdsReference source.place) :
    Renames rename (write first state source point span)
      (State.write second other source point otherSpan) := by
  obtain ⟨place, escaped⟩ := source
  cases escaped with
  | true => exact renames.escapedUse contexts place point span otherSpan
  | false =>
      have required := renames.requireOwned contexts place point span otherSpan "write to"
      simp only [State.write, State.liveUse, Bool.false_eq_true, if_false, if_true, required.2]
      split
      · exact required.1.writeOwned contexts place point span otherSpan references
      · exact required.1

theorem consume (source : Use) :
    Renames rename (consume first state source point span)
      (State.consume second other source point otherSpan) := by
  obtain ⟨place, escaped⟩ := source
  cases escaped with
  | true => exact renames.escapedUse contexts place point span otherSpan
  | false =>
      exact (renames.consumeSource contexts place point span otherSpan "consume").retireHeldBy place
        (point + 1)

theorem exitScope (scope : ScopeId) :
    Renames rename (exitScope first state scope point span)
      (State.exitScope second other scope point otherSpan) := by
  simp only [State.exitScope, contexts.lists, renames.ownership,
    Ownership.stateOf_of_records contexts.records]
  apply foldl_dropPlace contexts
  exact renames.foldl_retireHeldBy _ point

end Statements

/-- What was resolved in the same way is judged in the same way. -/
theorem step (contexts : first.Renames rename second) (renames : Renames rename state other)
    {resolution twin : Resolution} (alike : resolution.Alike twin)
    (references : ∀ use, resolution.effect.source? = some use →
      second.tree.holdsReference use.place = first.tree.holdsReference use.place) :
    Renames rename (state.step first resolution) (other.step second twin) := by
  obtain ⟨point, scope, span, effect⟩ := resolution
  obtain ⟨otherPoint, otherScope, otherSpan, otherEffect⟩ := twin
  have samePoint : point = otherPoint := alike.point.symm
  have sameEffect : effect = otherEffect := alike.effect.symm
  subst samePoint sameEffect
  cases effect with
  | enter => exact renames
  | exit scope => exact renames.exitScope contexts point span otherSpan scope
  | bind target source mutable copy =>
      exact renames.bind contexts point span otherSpan target mutable copy references
  | declare target =>
      exact renames.declareFresh contexts target.place point span otherSpan target.shadowed?
  | move target source =>
      exact renames.move contexts point span otherSpan target (references source rfl)
  | borrow kind target source =>
      exact renames.borrow contexts point span otherSpan kind target source
  | write source => exact renames.write contexts point span otherSpan (references source rfl)
  | read source => exact renames.read contexts point span otherSpan source
  | consume source => exact renames.consume contexts point span otherSpan source

theorem retireDead (contexts : first.Renames rename second) (renames : Renames rename state other)
    (point : Point) :
    Renames rename (state.retireDead first point) (other.retireDead second point) := by
  have ids : ∀ (liveness : Liveness) (ledger : Ledger),
      (ledger.active.filter fun borrow => !liveness.liveAfter borrow.holder point).map Borrow.id =
        (ledger.unplaced.active.filter fun borrow =>
          !liveness.liveAfter borrow.holder point).map Borrow.id := by
    intro liveness ledger
    rw [Ledger.active_unplaced, List.filter_map, List.map_map]
    rfl
  simp only [State.retireDead, contexts.liveness]
  split
  · exact renames
  · apply renames.lent
    rw [Ledger.unplaced_retireAll, Ledger.unplaced_retireAll, ids, renames.ledger, ← ids]

theorem advance (contexts : first.Renames rename second) (renames : Renames rename state other)
    {resolution twin : Resolution} (alike : resolution.Alike twin)
    (references : ∀ use, resolution.effect.source? = some use →
      second.tree.holdsReference use.place = first.tree.holdsReference use.place) :
    Renames rename (first.advance state resolution) (second.advance other twin) := by
  rw [Context.advance, Context.advance, alike.point]
  exact (renames.step contexts alike references).retireDead contexts resolution.point

end Renames

end State

/-- Statements that were resolved in the same way are judged in the same way. -/
theorem Context.renames_walk {rename : Name → Name} {first second : Context} {state other : State}
    {resolved others : List Resolution} (contexts : first.Renames rename second)
    (renames : State.Renames rename state other)
    (alike : List.Forall₂ Resolution.Alike resolved others)
    (references : ∀ resolution ∈ resolved, ∀ use, resolution.effect.source? = some use →
      second.tree.holdsReference use.place = first.tree.holdsReference use.place) :
    State.Renames rename (first.walk state resolved) (second.walk other others) := by
  induction alike generalizing state other with
  | nil => exact renames
  | cons same rest inductionHypothesis =>
      have advanced := renames.advance contexts same (references _ List.mem_cons_self)
      apply inductionHypothesis advanced
      exact fun resolution later => references resolution (List.mem_cons_of_mem _ later)

/-- The end of the unit is judged in the same way, too. -/
theorem Context.renames_run {rename : Name → Name} {first second : Context}
    (contexts : first.Renames rename second)
    (alike : List.Forall₂ Resolution.Alike first.tree.resolved second.tree.resolved)
    (endPoint : second.tree.unit.endPoint = first.tree.unit.endPoint)
    (references : ∀ resolution ∈ first.tree.resolved, ∀ use, resolution.effect.source? = some use →
      second.tree.holdsReference use.place = first.tree.holdsReference use.place) :
    State.Renames rename first.run second.run := by
  rw [Context.run, Context.run, endPoint]
  apply State.Renames.exitScope contexts
  exact Context.renames_walk contexts (State.renames_empty rename) alike references

/-- The same class of fault at the same point. -/
structure Fault.Alike (first second : Fault) : Prop where
  kind : second.kind = first.kind
  point : second.point = first.point

/-- Results that differ in names, in where statements stand, and in words. -/
structure UnitResult.Renames (rename : String → String) (first second : UnitResult) : Prop where
  diagnostics :
    List.Forall₂ (Diagnostic.Renames (Json.renamed rename)) first.diagnostics second.diagnostics
  fault : Option.Rel Fault.Alike first.fault second.fault
  borrows : List.Forall₂ Borrow.Alike first.borrows second.borrows

/-- Errors with the same fault, but for names and words. -/
inductive CheckError.Renames (rename : String → String) : CheckError → CheckError → Prop where
  | tooLarge (unit other : String) (size limit : Nat) :
      Renames rename (.tooLarge unit size limit) (.tooLarge other size limit)
  | defect (unit other : String) (defect : ScopeDefect) (point : Point)
      (loc otherLoc : Option Span) :
      Renames rename (.defect unit defect point loc)
        (.defect other (defect.renamed rename) point otherLoc)
  | name (error : NameError) : Renames rename (.name error) (.name error)

theorem ScopeTree.Renames.ofTree {rename : String → String} {first second : ScopeTree}
    (renames : first.Renames rename second) (config : Config) :
    (Context.ofTree config first).Renames (Json.renamed rename) (Context.ofTree config second) where
  names := renames.name_eq
  scopes := renames.scopeOf_eq
  records := renames.freshRecord_eq
  lists := renames.placesOf_eq
  liveness := by
    rw [Context.ofTree, Context.ofTree, renames.liveness_eq]

theorem ScopeTree.Renames.run {rename : String → String} {first second : ScopeTree}
    (renames : first.Renames rename second) (config : Config) :
    State.Renames (Json.renamed rename) (Context.ofTree config first).run
      (Context.ofTree config second).run := by
  apply Context.renames_run (renames.ofTree config) renames.resolved renames.endPoint
  intro resolution _ use _
  exact congrFun renames.holdsReference_eq use.place

namespace CodeUnit.Renames

variable {rename : String → String} {unit other : CodeUnit} (renames : unit.Renames rename other)

include renames

theorem admits (config : Config) :
    InStep (CheckError.Renames rename) Eq (config.admits unit) (config.admits other) := by
  unfold Config.admits
  cases config.maxStatements with
  | none => exact .ok rfl
  | some limit =>
      dsimp only
      rw [← renames.length_eq]
      split
      · exact .error (.tooLarge _ _ _ _)
      · exact .ok rfl

theorem check (injective : Function.Injective rename) (config : Config) (recordStates : Bool) :
    InStep (CheckError.Renames rename)
      (fun first second => State.Renames (Json.renamed rename) first.final second.final)
      (unit.check config recordStates) (other.check config recordStates) := by
  apply (renames.admits config).bind
  rintro ⟨⟩ _ rfl
  have trees := renames.scopeTree injective
  generalize unit.scopeTree = built at trees ⊢
  generalize other.scopeTree = otherBuilt at trees ⊢
  cases trees with
  | ok alike => exact .ok (alike.run config)
  | error alike =>
      cases alike with
      | defect defect point loc otherLoc => exact .error (.defect _ _ _ _ _ _)
      | name error => exact .error (.name error)

end CodeUnit.Renames

/-- Names and positions in the source matter to nothing but what is shown.  A renaming that
keeps different names apart, with statements put anywhere, leads to the same scopes or to the
same defect at the same point; the reports are the same ones about the renamed places, and the
borrows differ in where they are said to start. -/
theorem CodeUnit.analyse_renamed {rename : String → String} (injective : Function.Injective rename)
    {unit other : CodeUnit} (renames : unit.Renames rename other) (config : Config)
    (recordStates : Bool) :
    BothResolve rename (ScopeTree.Renames rename) unit.scopeTree other.scopeTree ∧
      InStep Eq (UnitResult.Renames rename) (unit.analyse config recordStates)
        (other.analyse config recordStates) := by
  refine ⟨renames.scopeTree injective, ?_⟩
  have checks := renames.check injective config recordStates
  unfold CodeUnit.analyse
  generalize unit.check config recordStates = checked at checks ⊢
  generalize other.check config recordStates = otherChecked at checks ⊢
  cases checks with
  | ok alike =>
      refine .ok ⟨alike.diagnostics, .none, ?_⟩
      exact Borrow.forall₂_alike (congrArg Ledger.borrows alike.ledger)
  | error alike =>
      cases alike with
      | tooLarge unit other size limit => exact .ok ⟨.nil, .some ⟨rfl, rfl⟩, .nil⟩
      | defect unit other defect point loc otherLoc =>
          exact .ok ⟨.nil, .some ⟨defect.kind_renamed rename, rfl⟩, .nil⟩
      | name error => exact .error rfl

/-- A place is lent and written to by statements in a row. -/
def writtenInSource : CodeUnit where
  name := "written in source"
  statements := [
    { action := .bind (.str "x") (.bool true) none (.bool false) (.bool false) },
    { action := .borrow .shared (.str "r") (.str "x") },
    { action := .write (.str "x") },
    { action := .read (.str "r") }]

/-- The same with both names exchanged, on a line of a source. -/
def exchangedInSource : CodeUnit where
  name := "exchanged in source"
  statements := writtenInSource.statements.map fun statement =>
    { action := statement.action.renamed (Equiv.swap "x" "r"), loc := { line := some 4 } }

theorem writtenInSource_exchanged :
    ∃ first second,
      writtenInSource.analyse {} false = .ok first ∧
      exchangedInSource.analyse {} false = .ok second ∧
      (first.diagnostics.map fun diagnostic => diagnostic.place.display) = ["x"] ∧
      (second.diagnostics.map fun diagnostic => diagnostic.place.display) = ["r"] ∧
      first.Renames (Equiv.swap "x" "r") second := by
  have renames : writtenInSource.Renames (Equiv.swap "x" "r") exchangedInSource := by
    apply List.forall₂_map_right_iff.mpr
    exact List.forall₂_same.mpr fun _ _ => rfl
  have inStep := (CodeUnit.analyse_renamed (Equiv.swap "x" "r").injective renames {} false).2
  have told : ((writtenInSource.analyse {} false).toOption.map fun result =>
      result.diagnostics.map fun diagnostic => diagnostic.place.display) = some ["x"] := by
    decide +kernel
  have toldExchanged : ((exchangedInSource.analyse {} false).toOption.map fun result =>
      result.diagnostics.map fun diagnostic => diagnostic.place.display) = some ["r"] := by
    decide +kernel
  generalize writtenInSource.analyse {} false = analysed at inStep told ⊢
  generalize exchangedInSource.analyse {} false = exchanged at inStep toldExchanged ⊢
  cases inStep with
  | ok alike => exact ⟨_, _, rfl, rfl, Option.some.inj told, Option.some.inj toldExchanged, alike⟩
  | error _ => cases told

end LoanCheck
