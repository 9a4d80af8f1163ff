import LoanCheck.Proofs.Scope.Shift
import LoanCheck.Liveness
import LoanCheck.Ownership
import Mathlib.Data.List.Forall2
import Mathlib.Logic.Function.Basic

/-!
# Scopes under a renaming

Names are compared and nothing else.  So a renaming that keeps different names apart leads to
the same scopes and places, under other names, or to the same defect.  Where statements stand
in the source does not matter either.
-/

namespace LoanCheck

/-- A name under a renaming of texts; what is no text stays. -/
def Json.renamed (rename : String → String) : Name → Name
  | .str value => .str (rename value)
  | name => name

def Key.renamed (rename : String → String) : Key → Key
  | .text value => .text (rename value)
  | key => key

/-- The same statement about renamed places. -/
def Action.renamed (rename : String → String) : Action → Action
  | .bind place mutable source shadow copy =>
      .bind (place.renamed rename) mutable (source.map (Json.renamed rename)) shadow copy
  | .declare place mutable copy => .declare (place.renamed rename) mutable copy
  | .move dest src => .move (dest.renamed rename) (src.renamed rename)
  | .borrow kind dest referent => .borrow kind (dest.renamed rename) (referent.renamed rename)
  | .write place => .write (place.renamed rename)
  | .read place => .read (place.renamed rename)
  | .consume place => .consume (place.renamed rename)
  | .enter => .enter
  | .exit => .exit

def Place.renamed (rename : String → String) (place : Place) : Place :=
  { place with name := place.name.renamed rename, key := place.key.renamed rename }

/-- An entry of a table of names. -/
def Key.renamedEntry (rename : String → String) (entry : Key × PlaceId) : Key × PlaceId :=
  (entry.1.renamed rename, entry.2)

def Scope.renamed (rename : String → String) (scope : Scope) : Scope :=
  { scope with names := scope.names.map (Key.renamedEntry rename) }

def ScopeDefect.renamed (rename : String → String) : ScopeDefect → ScopeDefect
  | .undeclared name => .undeclared (name.renamed rename)
  | .ended name => .ended (name.renamed rename)
  | .mixed name => .mixed (name.renamed rename)
  | .exitWithoutEnter => .exitWithoutEnter
  | .unclosed count enter => .unclosed count enter

theorem ScopeDefect.kind_renamed (rename : String → String) (defect : ScopeDefect) :
    (defect.renamed rename).kind = defect.kind := by
  cases defect <;> rfl

theorem Json.key_renamed (rename : String → String) (name : Name) :
    (name.renamed rename).key = name.key.map (Key.renamed rename) := by
  cases name with
  | float value =>
      cases value with
      | infinite negative => rfl
      | _ =>
          simp only [Json.renamed, Json.key]
          split <;> rfl
  | _ => rfl

section Injective

variable {rename : String → String} (injective : Function.Injective rename)

include injective

theorem Key.renamed_injective : Function.Injective (Key.renamed rename) := by
  intro first second same
  cases first with
  | text text =>
      cases second with
      | text other =>
          simp only [Key.renamed, Key.text.injEq] at same
          rw [injective same]
      | _ => cases same
  | _ =>
      cases second with
      | text other => cases same
      | _ => exact same

/-- A renamed name is found where the name is found. -/
theorem Key.lookup_renamedEntry (entries : List (Key × PlaceId)) (key : Key) :
    (entries.map (Key.renamedEntry rename)).lookup (key.renamed rename) = entries.lookup key := by
  induction entries with
  | nil => rfl
  | cons entry rest inductionHypothesis =>
      have same : (key.renamed rename == entry.1.renamed rename) = (key == entry.1) := by
        rw [Bool.eq_iff_iff, beq_iff_eq, beq_iff_eq]
        exact (Key.renamed_injective injective).eq_iff
      rw [List.map_cons, List.lookup_cons, List.lookup_cons, inductionHypothesis, renamedEntry,
        same]

end Injective

/-- Two attempts that succeed with related results, or fail with related errors. -/
inductive InStep {Error Alpha Beta : Type} (failed : Error → Error → Prop)
    (related : Alpha → Beta → Prop) : Except Error Alpha → Except Error Beta → Prop where
  | ok {left : Alpha} {right : Beta} (both : related left right) :
      InStep failed related (.ok left) (.ok right)
  | error {left right : Error} (alike : failed left right) :
      InStep failed related (.error left) (.error right)

theorem InStep.bind {Error Alpha Beta Gamma Delta : Type} {failed : Error → Error → Prop}
    {related : Alpha → Beta → Prop} {after : Gamma → Delta → Prop}
    {left : Except Error Alpha} {right : Except Error Beta}
    {next : Alpha → Except Error Gamma} {otherNext : Beta → Except Error Delta}
    (first : InStep failed related left right)
    (rest : ∀ value other, related value other →
      InStep failed after (next value) (otherNext other)) :
    InStep failed after (left >>= next) (right >>= otherNext) := by
  cases first with
  | ok both => exact rest _ _ both
  | error alike => exact .error alike

/-- The same defect at the same point, of renamed places. -/
inductive ResolveError.Renames (rename : String → String) : ResolveError → ResolveError → Prop where
  | defect (defect : ScopeDefect) (point : Point) (loc otherLoc : Option Span) :
      Renames rename (.defect defect point loc) (.defect (defect.renamed rename) point otherLoc)
  | name (error : NameError) : Renames rename (.name error) (.name error)

/-- Two attempts to resolve, the second of renamed places. -/
abbrev BothResolve (rename : String → String) {Alpha Beta : Type}
    (related : Alpha → Beta → Prop) :
    Except ResolveError Alpha → Except ResolveError Beta → Prop :=
  InStep (ResolveError.Renames rename) related

/-- The same resolution of a statement, perhaps at another place in the source. -/
structure Resolution.Alike (first second : Resolution) : Prop where
  point : second.point = first.point
  effect : second.effect = first.effect

/-- A fold that looks at points and effects alone. -/
theorem Resolution.foldl_alike {Alpha : Type} {update otherUpdate : Alpha → Resolution → Alpha}
    (same : ∀ value resolution twin, resolution.Alike twin →
      otherUpdate value twin = update value resolution)
    {resolved others : List Resolution} (alike : List.Forall₂ Resolution.Alike resolved others)
    (value : Alpha) : others.foldl otherUpdate value = resolved.foldl update value := by
  induction alike generalizing value with
  | nil => rfl
  | cons head _ inductionHypothesis =>
      rw [List.foldl_cons, List.foldl_cons, same value _ _ head]
      exact inductionHypothesis _

namespace Builder

/-- Two builders that differ in names, and in where statements stand. -/
structure Renames (rename : String → String) (first second : Builder) : Prop where
  scopes : second.scopes = first.scopes.map (Scope.renamed rename)
  places : second.places = first.places.map (Place.renamed rename)
  resolved : List.Forall₂ Resolution.Alike first.resolved second.resolved
  current : second.current = first.current
  outer : second.outer = first.outer
  closed : second.closed = first.closed.map (Key.renamedEntry rename)

theorem renames_empty (rename : String → String) : Renames rename {} {} :=
  ⟨rfl, rfl, .nil, rfl, rfl, rfl⟩

/-- Two such builders, with the same target or effect. -/
structure RenamesWith (rename : String → String) {Alpha : Type} (first second : Builder × Alpha) :
    Prop where
  renames : Renames rename first.1 second.1
  same : second.2 = first.2

theorem keyOf_inStep (rename : String → String) (name : Name) :
    BothResolve rename (fun key other => other = key.renamed rename) (keyOf name)
      (keyOf (name.renamed rename)) := by
  unfold keyOf
  rw [Json.key_renamed]
  cases name.key with
  | ok key => exact .ok rfl
  | error reason => exact .error (.name reason)

namespace Renames

variable {rename : String → String} {first second : Builder}
  (renames : Renames rename first second)

include renames

theorem getElem?_places (place : PlaceId) :
    second.places[place]? = (first.places[place]?).map (Place.renamed rename) := by
  rw [renames.places, List.getElem?_map]

theorem length_places : second.places.length = first.places.length := by
  rw [renames.places, List.length_map]

theorem length_scopes : second.scopes.length = first.scopes.length := by
  rw [renames.scopes, List.length_map]

theorem holding?_eq (place : PlaceId) : second.holding? place = first.holding? place := by
  rw [holding?, renames.getElem?_places, holding?]
  cases first.places[place]? <;> rfl

theorem isAssignable_eq (place : PlaceId) :
    second.isAssignable place = first.isAssignable place := by
  rw [isAssignable, renames.getElem?_places, isAssignable]
  cases first.places[place]? <;> rfl

theorem changesKind_eq (place : PlaceId) (holding : Option Holding) :
    second.changesKind place holding = first.changesKind place holding := by
  simp only [changesKind, renames.holding?_eq]

theorem endedNames_eq (scope : ScopeId) :
    second.endedNames scope = (first.endedNames scope).map (Key.renamedEntry rename) := by
  rw [endedNames, renames.scopes, List.getElem?_map, endedNames]
  cases first.scopes[scope]? with
  | none => rfl
  | some found =>
      simp only [Option.map_some, Scope.renamed, List.map_filterMap]
      apply List.filterMap_congr
      intro place _
      rw [renames.getElem?_places]
      cases first.places[place]? <;> rfl

/-- Changing a scope in a way that does not depend on names. -/
theorem modify_scopes {change otherChange : Scope → Scope}
    (commutes : ∀ scope, otherChange (scope.renamed rename) = (change scope).renamed rename)
    (scope : ScopeId) :
    second.scopes.modify scope otherChange =
      (first.scopes.modify scope change).map (Scope.renamed rename) := by
  rw [renames.scopes]
  apply List.ext_getElem?
  intro index
  rw [List.getElem?_modify, List.getElem?_map, List.getElem?_map, List.getElem?_modify]
  cases first.scopes[index]? with
  | none => rfl
  | some found => by_cases same : scope = index <;> simp [same, commutes]

theorem addItem (item : ScopeItem) :
    Renames rename (first.addItem item) (second.addItem item) := by
  refine { renames with scopes := ?_ }
  simp only [Builder.addItem, renames.current]
  apply renames.modify_scopes
  exact fun _ => rfl

theorem record (point : Point) (scope otherScope : ScopeId) (loc otherLoc : Span)
    (effect : Effect) :
    Renames rename (first.record point scope loc effect)
      (second.record point otherScope otherLoc effect) :=
  { renames with
    resolved := List.rel_append renames.resolved (.cons ⟨rfl, rfl⟩ .nil) }

theorem enter (point : Point) (loc otherLoc : Span) :
    Renames rename (first.enter point loc) (second.enter point otherLoc) := by
  have depth : (second.scopes[second.current]?).elim 0 Scope.depth =
      (first.scopes[first.current]?).elim 0 Scope.depth := by
    rw [renames.scopes, renames.current, List.getElem?_map]
    cases first.scopes[first.current]? <;> rfl
  have added := renames.addItem (.scope first.scopes.length)
  unfold Builder.enter
  rw [depth, renames.length_scopes, renames.current]
  apply record
  refine { added with scopes := ?_, current := rfl, outer := ?_ }
  · rw [List.map_append]
    apply congrArg (· ++ _)
    apply added.modify_scopes
    exact fun _ => rfl
  · exact congrArg (first.current :: ·) renames.outer

theorem exit (point : Point) (loc otherLoc : Span) :
    BothResolve rename (Renames rename) (first.exit point loc) (second.exit point otherLoc) := by
  unfold Builder.exit
  rw [renames.outer]
  cases first.outer with
  | nil => exact .error (.defect .exitWithoutEnter _ _ _)
  | cons around outer =>
      rw [renames.current]
      apply InStep.ok
      apply record
      refine { renames with scopes := ?_, current := rfl, outer := rfl, closed := ?_ }
      · apply renames.modify_scopes
        exact fun _ => rfl
      · dsimp only
        rw [renames.endedNames_eq, renames.closed, List.map_append, List.map_reverse]

/-- A place that is given something keeps its name. -/
theorem hold (point : Point) (loc otherLoc : Span) (place : PlaceId) (holding : Option Holding) :
    BothResolve rename (Renames rename) (first.hold point loc place holding)
      (second.hold point otherLoc place holding) := by
  cases holding with
  | none => exact .ok renames
  | some given =>
      simp only [Builder.hold, renames.getElem?_places]
      cases first.places[place]? with
      | none => exact .ok renames
      | some found =>
          change BothResolve rename (Renames rename)
            (if found.holding.any (· ≠ given) then _ else _)
            (if found.holding.any (· ≠ given) then _ else _)
          split
          · exact .error (.defect (.mixed found.name) _ _ _)
          · refine .ok { renames with places := ?_ }
            rw [renames.places]
            exact modify_append_map [] _ place fun _ => rfl

section Injective

variable (injective : Function.Injective rename)

include injective

theorem inScope?_eq (key : Key) (scope : ScopeId) :
    second.inScope? (key.renamed rename) scope = first.inScope? key scope := by
  rw [inScope?, renames.scopes, List.getElem?_map, inScope?]
  cases first.scopes[scope]? with
  | none => rfl
  | some found => exact Key.lookup_renamedEntry injective found.names key

theorem visible?_eq (key : Key) :
    second.visible? (key.renamed rename) = first.visible? key := by
  have same : second.inScope? (key.renamed rename) = first.inScope? key :=
    funext (renames.inScope?_eq injective key)
  rw [visible?, renames.current, renames.outer, same, visible?]

theorem use (point : Point) (loc otherLoc : Span) (name : Name) :
    BothResolve rename (fun use other => other = use) (first.use point loc name)
      (second.use point otherLoc (name.renamed rename)) := by
  apply (keyOf_inStep rename name).bind
  rintro key _ rfl
  rw [renames.visible?_eq injective, renames.closed, Key.lookup_renamedEntry injective]
  cases first.visible? key with
  | some place => exact .ok rfl
  | none =>
      cases first.closed.lookup key with
      | none => exact .error (.defect (.undeclared name) _ _ _)
      | some place =>
          simp only [renames.holding?_eq]
          split
          · exact .ok rfl
          · exact .error (.defect (.ended name) _ _ _)

theorem declare (point : Point) (name : Name) (key : Key) (mutable copy : Flag)
    (deferred rebinds : Bool) :
    RenamesWith rename (first.declare point name key mutable copy deferred rebinds)
      (second.declare point (name.renamed rename) (key.renamed rename) mutable copy deferred
        rebinds) := by
  unfold Builder.declare
  dsimp only
  rw [renames.inScope?_eq injective, renames.length_places, renames.current]
  refine ⟨{ renames with scopes := ?_, places := ?_, current := rfl }, rfl⟩
  · apply renames.modify_scopes
    exact fun _ => rfl
  · rw [List.map_append, ← renames.places]
    rfl

theorem assign (point : Point) (name : Name) :
    BothResolve rename (RenamesWith rename) (first.assign point name)
      (second.assign point (name.renamed rename)) := by
  apply (keyOf_inStep rename name).bind
  rintro key _ rfl
  rw [renames.visible?_eq injective]
  cases first.visible? key with
  | none => exact .ok (renames.declare injective point name key _ _ _ _)
  | some place =>
      simp only [renames.isAssignable_eq]
      split
      · exact .ok ⟨renames, rfl⟩
      · exact .ok (renames.declare injective point name key _ _ _ _)

theorem bindTarget (point : Point) (name : Name) (mutable shadow copy : Flag)
    (holding : Option Holding) :
    BothResolve rename (RenamesWith rename)
      (first.bindTarget point name mutable shadow copy holding)
      (second.bindTarget point (name.renamed rename) mutable shadow copy holding) := by
  apply (keyOf_inStep rename name).bind
  rintro key _ rfl
  rw [renames.current, renames.inScope?_eq injective]
  cases first.inScope? key first.current with
  | none => exact .ok (renames.declare injective point name key _ _ _ _)
  | some place =>
      simp only [renames.changesKind_eq]
      split
      · exact .ok ⟨renames, rfl⟩
      · exact .ok (renames.declare injective point name key _ _ _ _)

/-- A statement that only uses a place leaves the builder as it is. -/
theorem useOnly (point : Point) (loc otherLoc : Span) (name : Name) (effect : Use → Effect) :
    BothResolve rename (RenamesWith rename)
      (do let source ← first.use point loc name
          return (first, effect source))
      (do let source ← second.use point otherLoc (name.renamed rename)
          return (second, effect source)) := by
  apply (renames.use injective point loc otherLoc name).bind
  rintro source _ rfl
  exact .ok ⟨renames, rfl⟩

theorem source (point : Point) (loc otherLoc : Span) (name : Option Name) :
    BothResolve rename (fun source other => other = source) (name.mapM (first.use point loc))
      ((name.map (Json.renamed rename)).mapM (second.use point otherLoc)) := by
  cases name with
  | none => exact .ok rfl
  | some name =>
      apply (renames.use injective point loc otherLoc name).bind
      rintro source _ rfl
      exact .ok rfl

theorem resolve (point : Point) (loc otherLoc : Span) (action : Action) :
    BothResolve rename (RenamesWith rename) (first.resolve point loc action)
      (second.resolve point otherLoc (action.renamed rename)) := by
  cases action with
  | bind name mutable source shadow copy =>
      apply (renames.source injective point loc otherLoc source).bind
      rintro source _ rfl
      simp only [renames.holding?_eq]
      apply (renames.bindTarget injective point name mutable shadow copy _).bind
      rintro ⟨next, target⟩ ⟨other, _⟩ ⟨renamesNext, rfl⟩
      apply (renamesNext.hold point loc otherLoc _ _).bind
      intro held otherHeld renamesHeld
      exact .ok ⟨renamesHeld, rfl⟩
  | declare name mutable copy =>
      apply (keyOf_inStep rename name).bind
      rintro key _ rfl
      obtain ⟨renamesNext, same⟩ := renames.declare injective point name key mutable copy true false
      exact .ok ⟨renamesNext, congrArg Effect.declare same⟩
  | move dest src =>
      apply (renames.use injective point loc otherLoc src).bind
      rintro source _ rfl
      apply (renames.assign injective point dest).bind
      rintro ⟨next, target⟩ ⟨other, _⟩ ⟨renamesNext, rfl⟩
      simp only [renamesNext.holding?_eq]
      apply (renamesNext.hold point loc otherLoc _ _).bind
      intro held otherHeld renamesHeld
      exact .ok ⟨renamesHeld, rfl⟩
  | borrow kind dest referent =>
      apply (renames.use injective point loc otherLoc referent).bind
      rintro source _ rfl
      apply (renames.assign injective point dest).bind
      rintro ⟨next, target⟩ ⟨other, _⟩ ⟨renamesNext, rfl⟩
      apply (renamesNext.hold point loc otherLoc _ _).bind
      intro held otherHeld renamesHeld
      exact .ok ⟨renamesHeld, rfl⟩
  | write place => exact renames.useOnly injective point loc otherLoc place Effect.write
  | read place => exact renames.useOnly injective point loc otherLoc place Effect.read
  | consume place => exact renames.useOnly injective point loc otherLoc place Effect.consume
  | enter => exact .ok ⟨renames, rfl⟩
  | exit => exact .ok ⟨renames, congrArg Effect.exit renames.current⟩

theorem step (point : Point) {statement other : Statement}
    (same : other.action = statement.action.renamed rename) :
    BothResolve rename (Renames rename) (first.step point statement) (second.step point other) := by
  obtain ⟨action, loc⟩ := statement
  obtain ⟨_, otherLoc⟩ := other
  cases same
  cases action with
  | enter => exact .ok (renames.enter point loc otherLoc)
  | exit => exact renames.exit point loc otherLoc
  | _ =>
      apply ((renames.addItem (.point point)).resolve injective point loc otherLoc _).bind
      rintro ⟨next, _⟩ ⟨otherNext, effect⟩ ⟨renamesNext, rfl⟩
      exact .ok (renamesNext.record point _ _ loc otherLoc effect)

theorem run (point : Point) {statements others : List Statement}
    (same : List.Forall₂ (fun statement other => other.action = statement.action.renamed rename)
      statements others) :
    BothResolve rename (Renames rename) (first.run point statements) (second.run point others) := by
  induction same generalizing first second point with
  | nil => exact .ok renames
  | cons head _ inductionHypothesis =>
      apply (renames.step injective point head).bind
      intro next otherNext renamesNext
      exact inductionHypothesis renamesNext (point + 1)

end Injective

end Renames

end Builder

/-- Two trees that differ in names, and in where statements stand. -/
structure ScopeTree.Renames (rename : String → String) (first second : ScopeTree) : Prop where
  endPoint : second.unit.endPoint = first.unit.endPoint
  scopes : second.scopes = first.scopes.map (Scope.renamed rename)
  places : second.places = first.places.map (Place.renamed rename)
  resolved : List.Forall₂ Resolution.Alike first.resolved second.resolved

theorem Builder.Renames.finish {rename : String → String} {first second : Builder}
    (renames : Renames rename first second) {unit other : CodeUnit}
    (endPoint : other.endPoint = unit.endPoint) :
    BothResolve rename (ScopeTree.Renames rename) (first.finish unit) (second.finish other) := by
  unfold Builder.finish
  rw [renames.outer]
  cases first.outer with
  | nil =>
      refine .ok ⟨endPoint, ?_, renames.places, renames.resolved⟩
      apply renames.modify_scopes
      intro scope
      rw [endPoint]
      rfl
  | cons around outer =>
      have enter : (second.scopes[second.current]?).elim 0 Scope.enter =
          (first.scopes[first.current]?).elim 0 Scope.enter := by
        rw [renames.scopes, renames.current, List.getElem?_map]
        cases first.scopes[first.current]? <;> rfl
      dsimp only
      rw [enter, endPoint]
      exact .error (.defect (.unclosed _ _) _ _ _)

/-- The same statements about renamed places, perhaps elsewhere in the source. -/
def CodeUnit.Renames (rename : String → String) (unit other : CodeUnit) : Prop :=
  List.Forall₂ (fun statement twin => twin.action = statement.action.renamed rename)
    unit.statements other.statements

theorem CodeUnit.Renames.endPoint_eq {rename : String → String} {unit other : CodeUnit}
    (renames : unit.Renames rename other) : other.endPoint = unit.endPoint := by
  rw [endPoint, endPoint, renames.length_eq]

theorem CodeUnit.Renames.scopeTree {rename : String → String} {unit other : CodeUnit}
    (renames : unit.Renames rename other) (injective : Function.Injective rename) :
    BothResolve rename (ScopeTree.Renames rename) unit.scopeTree
      other.scopeTree := by
  apply ((Builder.renames_empty rename).run injective 0 renames).bind
  intro first second renamesBuilder
  exact renamesBuilder.finish renames.endPoint_eq

namespace ScopeTree.Renames

variable {rename : String → String} {first second : ScopeTree}
  (renames : first.Renames rename second)

include renames

theorem getElem?_places (place : PlaceId) :
    second.places[place]? = (first.places[place]?).map (Place.renamed rename) := by
  rw [renames.places, List.getElem?_map]

theorem name_eq (place : PlaceId) : second.name place = (first.name place).renamed rename := by
  rw [name, renames.getElem?_places, name]
  cases first.places[place]? <;> rfl

theorem scopeOf_eq : second.scopeOf = first.scopeOf := by
  funext place
  rw [scopeOf, renames.getElem?_places, scopeOf]
  cases first.places[place]? <;> rfl

theorem freshRecord_eq : second.freshRecord = first.freshRecord := by
  funext place
  rw [freshRecord, renames.getElem?_places, freshRecord]
  cases first.places[place]? <;> rfl

theorem holdsReference_eq : second.holdsReference = first.holdsReference := by
  funext place
  rw [holdsReference, renames.getElem?_places, holdsReference]
  cases first.places[place]? <;> rfl

theorem placesOf_eq : second.placesOf = first.placesOf := by
  funext scope
  rw [placesOf, renames.scopes, List.getElem?_map, placesOf]
  cases first.scopes[scope]? <;> rfl

/-- Last uses are told by places and points. -/
theorem liveness_eq : second.liveness = first.liveness := by
  have uses : ∀ liveness resolution twin, resolution.Alike twin →
      Liveness.addUse second liveness twin = Liveness.addUse first liveness resolution := by
    intro liveness resolution twin alike
    simp only [Liveness.addUse, alike.effect, alike.point, renames.holdsReference_eq]
  have carried : ∀ liveness resolution twin, resolution.Alike twin →
      Liveness.carryBack second liveness twin = Liveness.carryBack first liveness resolution := by
    intro liveness resolution twin alike
    simp only [Liveness.carryBack, alike.effect, renames.holdsReference_eq]
  simp only [liveness]
  rw [Resolution.foldl_alike uses renames.resolved,
    Resolution.foldl_alike carried (List.rel_reverse renames.resolved)]

end ScopeTree.Renames

end LoanCheck
