import LoanCheck.Proofs.Check.Extents
import LoanCheck.Proofs.Check.Reports

/-!
# Ownership does not depend on borrows

What a statement reports of values that are not there, and of names that still own one, is
read off the ownership before it, and so is the ownership after it.  Hence both are
functions of the resolved statements alone, however long borrows last: `Ownership.course`
and `Ownership.tellsAll`.
-/

namespace LoanCheck

/-- A violation that is about one place and no borrow, as it is reported. -/
def Violation.diagnostic (violation : Violation) (point : Point) (place : Name) (span : Span) :
    Diagnostic :=
  { kind := violation.kind, message := violation.message, point, place, span }

/-- The kinds that tell of a value that is not there, or of a name that still owns one. -/
def DiagnosticKind.ofValues : List DiagnosticKind := .duplicateBinding :: ofOwnership

namespace Diagnostic

def isOfValues (diagnostic : Diagnostic) : Bool :=
  DiagnosticKind.ofValues.contains diagnostic.kind

/-- The diagnostics that tell of values, without their notes. -/
def ofValues (diagnostics : List Diagnostic) : List Diagnostic :=
  (diagnostics.filter isOfValues).map bare

theorem ofValues_append (first second : List Diagnostic) :
    ofValues (first ++ second) = ofValues first ++ ofValues second := by
  rw [ofValues, List.filter_append, List.map_append]
  rfl

end Diagnostic

/-- The place that a bind finds under its name and does not mean to shadow. -/
def Target.rebound? : Target → Option PlaceId
  | .existing place => some place
  | .fresh _ shadowed rebinds => if rebinds then shadowed else none

namespace Ownership

variable (tree : ScopeTree)

/-- What is told of an operand whose value is not there; `action` is the verb for its use. -/
def missing (ownership : Ownership) (source : Use) (point : Point) (action : String)
    (span : Span) : List Diagnostic :=
  let name := tree.name source.place
  if source.escaped then []
  else
    match ownership.stateOf tree source.place with
    | .movedOut => [Violation.diagnostic (.movedOut action name) point name span]
    | .uninitialized => [Violation.diagnostic (.notInitialized action name) point name span]
    | .owned => []
    | .dropped => []

/-- What is told of a bind whose name still owns a value. -/
def duplicated (ownership : Ownership) (target : Target) (point : Point) (span : Span) :
    List Diagnostic :=
  target.rebound?.elim [] fun place =>
    let name := tree.name place
    if ownership.stateOf tree place == .owned then
      [Violation.diagnostic (.alreadyBound name) point name span]
    else []

/-- What a statement tells of values. -/
def tells (ownership : Ownership) (resolution : Resolution) : List Diagnostic :=
  let point := resolution.point
  let span := resolution.loc
  match resolution.effect with
  | .bind target source _ _ =>
      (source.elim [] fun use => ownership.missing tree use point "move" span) ++
        (source.elim ownership (ownership.taken tree)).duplicated tree target point span
  | .move _ source => ownership.missing tree source point "move" span
  | .borrow _ _ source => ownership.missing tree source point "borrow" span
  | .write source => ownership.missing tree source point "write to" span
  | .read source => ownership.missing tree source point "read" span
  | .consume source => ownership.missing tree source point "consume" span
  | .enter => []
  | .exit _ => []
  | .declare _ => []

/-- What statements tell of values, one after the other. -/
def tellsAll (ownership : Ownership) : List Resolution → List Diagnostic
  | [] => []
  | resolution :: rest =>
      ownership.tells tree resolution ++
        tellsAll (ownership.after tree resolution.effect) rest

/-- Ownership after each of the statements. -/
def course (ownership : Ownership) : List Resolution → List Ownership
  | [] => []
  | resolution :: rest =>
      let next := ownership.after tree resolution.effect
      next :: course next rest

end Ownership

namespace State

/-- What has been told of values. -/
def told (state : State) : List Diagnostic := Diagnostic.ofValues state.diagnostics

theorem told_of_reports {first second : State} {point : Point} {span : Span}
    {kinds : List DiagnosticKind}
    (reports : Reports first (Diagnostic.Anchored point span kinds) second)
    (others : ∀ kind ∈ kinds, DiagnosticKind.ofValues.contains kind = false) :
    second.told = first.told := by
  have unpicked : second.diagnostics.filter Diagnostic.isOfValues =
      first.diagnostics.filter Diagnostic.isOfValues :=
    reports.filter_eq fun diagnostic ⟨_, _, known⟩ => others diagnostic.kind known
  rw [told, Diagnostic.ofValues, unpicked]
  rfl

variable (context : Context) (state : State) (point : Point) (span : Span)

/-- A report about one place and no borrow is told without its notes. -/
theorem told_report {violation : Violation}
    (picked : DiagnosticKind.ofValues.contains violation.kind = true) (place : Name)
    (notes : List String) :
    (state.report violation point place none span notes).told =
      state.told ++ [violation.diagnostic point place span] := by
  rw [told, report, Diagnostic.ofValues_append]
  simp only [Diagnostic.ofValues, List.filter_cons, Diagnostic.isOfValues, picked, if_true]
  rfl

theorem told_requireOwned {source : Use} (inside : source.escaped = false) (action : String) :
    (requireOwned context state source.place point action span).1.told =
      state.told ++ state.ownership.missing context.tree source point action span := by
  cases held : state.ownership.stateOf context.tree source.place with
  | movedOut =>
      simp only [requireOwned, Ownership.missing, inside, held, Bool.false_eq_true, if_false]
      exact told_report state point span rfl _ []
  | uninitialized =>
      simp only [requireOwned, Ownership.missing, inside, held, Bool.false_eq_true, if_false]
      exact told_report state point span rfl _ []
  | owned => simp [requireOwned, Ownership.missing, held]
  | dropped => simp [requireOwned, Ownership.missing, held]

theorem told_escapedUse {source : Use} (escaped : source.escaped = true) (action : String) :
    (escapedUse context state source.place point span).told =
      state.told ++ state.ownership.missing context.tree source point action span := by
  simp only [Ownership.missing, escaped, if_true, List.append_nil]
  exact told_of_reports (escapedUse_reports context state point span source.place) (by decide)

theorem told_consumeSource {source : Use} (inside : source.escaped = false) (action : String) :
    (consumeSource context state source.place point span action).told =
      state.told ++ state.ownership.missing context.tree source point action span := by
  rw [told_of_reports (consumeSource_reports context state point span source.place action)
    (by decide)]
  exact told_requireOwned context state point span inside action

theorem told_takeSource (source : Use) :
    (takeSource context state source point span).1.told =
      state.told ++ state.ownership.missing context.tree source point "move" span := by
  cases escaped : source.escaped with
  | true =>
      rw [takeSource_of_escaped context state point span escaped]
      exact told_escapedUse context state point span escaped "move"
  | false =>
      rw [takeSource_of_inside context state point span escaped]
      exact told_consumeSource context state point span escaped "move"

theorem told_declareFresh (place : PlaceId) (shadowed : Option PlaceId) :
    (declareFresh context state place shadowed point span).told = state.told :=
  told_of_reports (declareFresh_reports context state point span place shadowed) (by decide)

theorem told_assignTarget (target : Target) :
    (assignTarget context state target point span).told = state.told :=
  told_of_reports (assignTarget_reports context state point span target) (by decide)

theorem told_bindPlace_of_fresh (place : PlaceId) (mutable copy : Flag) (notes : List String) :
    (bindPlace context state place point mutable copy true span notes).1.told = state.told :=
  rfl

/-- A place that is bound again is a duplicate if it still owns a value. -/
theorem told_bindPlace_of_existing (place : PlaceId) (mutable copy : Flag) (notes : List String) :
    (bindPlace context state place point mutable copy false span notes).1.told =
      state.told ++ state.ownership.duplicated context.tree (.existing place) point span := by
  simp only [bindPlace, Ownership.duplicated, Target.rebound?, Option.elim_some, Bool.not_false,
    Bool.true_and]
  split
  · exact told_report state point span rfl _ _
  · exact (List.append_nil _).symm

theorem told_rebindTarget (target : Target) (mutable copy : Flag) :
    (rebindTarget context state target mutable copy point span).told =
      state.told ++ state.ownership.duplicated context.tree target point span := by
  cases target with
  | existing place =>
      simp only [rebindTarget, Target.place, Target.declares]
      rw [told_bindPlace_of_existing]
      split <;> rfl
  | fresh place shadowed rebinds =>
      simp only [rebindTarget, Target.place, Target.declares, told_bindPlace_of_fresh,
        told_declareFresh]
      cases shadowed with
      | none => cases rebinds <;> exact (List.append_nil _).symm
      | some old =>
          cases rebinds with
          | false => exact (List.append_nil _).symm
          | true =>
              simp only [Bool.true_and, Ownership.duplicated, Target.rebound?, if_true,
                Option.elim_some]
              split
              · exact told_report state point span rfl _ _
              · exact (List.append_nil _).symm

theorem told_passOn (source dest : PlaceId) (moves : Bool) :
    (if moves then transfer context state source dest else state).told = state.told := by
  cases moves <;> rfl

/-- What a statement tells of values depends on ownership alone. -/
theorem told_step (resolution : Resolution) :
    (state.step context resolution).told =
      state.told ++ state.ownership.tells context.tree resolution := by
  obtain ⟨point, scope, span, effect⟩ := resolution
  cases effect with
  | enter => exact (List.append_nil _).symm
  | exit closes =>
      rw [step, told_of_reports (exitScope_reports context state point span closes) (by decide)]
      exact (List.append_nil _).symm
  | declare target =>
      rw [step, told_declareFresh]
      exact (List.append_nil _).symm
  | bind target source mutable copy =>
      cases source with
      | none => exact told_rebindTarget context state point span target mutable copy
      | some use =>
          have taken := (takeSource_becomes context state use point span).ownership
          simp only [step, bind_some, told_passOn, told_rebindTarget, told_takeSource, taken,
            List.append_assoc]
          rfl
  | move target source =>
      simp only [step, move_eq, told_passOn, told_assignTarget, told_takeSource]
      rfl
  | borrow kind target source =>
      cases escaped : source.escaped with
      | true =>
          simp only [step, borrow_eq, readyToLend, liveUse, escaped, if_true, told_assignTarget]
          exact told_escapedUse context state point span escaped "borrow"
      | false =>
          simp only [step, borrow_eq, readyToLend, liveUse, escaped, Bool.false_eq_true, if_false]
          rw [told_of_reports (lend_reports context _ point span _ kind _) (by decide),
            told_assignTarget,
            told_of_reports (checkReferent_reports context state point span kind _) (by decide)]
          exact told_requireOwned context state point span escaped "borrow"
  | write source =>
      cases escaped : source.escaped with
      | true =>
          simp only [step, write, liveUse, escaped, if_true, Bool.false_eq_true, if_false]
          exact told_escapedUse context state point span escaped "write to"
      | false =>
          simp only [step, write, liveUse, escaped, if_true, Bool.false_eq_true, if_false]
          have required := told_requireOwned context state point span escaped "write to"
          split
          · rw [told_of_reports (writeOwned_reports context _ point span _) (by decide)]
            exact required
          · exact required
  | read source =>
      cases escaped : source.escaped with
      | true =>
          simp only [step, read, liveUse, escaped, if_true, Bool.false_eq_true, if_false]
          exact told_escapedUse context state point span escaped "read"
      | false =>
          simp only [step, read, liveUse, escaped, if_true, Bool.false_eq_true, if_false]
          exact told_requireOwned context state point span escaped "read"
  | consume source =>
      cases escaped : source.escaped with
      | true =>
          simp only [step, consume, liveUse, escaped, if_true, Bool.false_eq_true, if_false]
          exact told_escapedUse context state point span escaped "consume"
      | false =>
          simp only [step, consume, liveUse, escaped, if_true, Bool.false_eq_true, if_false]
          exact told_consumeSource context state point span escaped "consume"

end State

namespace Context

variable (context : Context)

theorem told_advance (state : State) (resolution : Resolution) :
    (context.advance state resolution).told =
      state.told ++ state.ownership.tells context.tree resolution := by
  rw [advance, State.told, State.retireDead_diagnostics]
  exact State.told_step context state resolution

theorem ownership_trace (resolved : List Resolution) (state : State) :
    (context.trace state resolved).map State.ownership =
      state.ownership.course context.tree resolved := by
  induction resolved generalizing state with
  | nil => rfl
  | cons resolution rest inductionHypothesis =>
      rw [trace, List.map_cons, inductionHypothesis, advance_ownership, Ownership.course]

theorem told_walk (resolved : List Resolution) (state : State) :
    (context.walk state resolved).told =
      state.told ++ state.ownership.tellsAll context.tree resolved := by
  induction resolved generalizing state with
  | nil => exact (List.append_nil _).symm
  | cons resolution rest inductionHypothesis =>
      apply (inductionHypothesis (context.advance state resolution)).trans
      rw [told_advance, advance_ownership, Ownership.tellsAll, List.append_assoc]

/-- What a run tells of values is a function of the resolved statements. -/
theorem told_run :
    context.run.told = Ownership.tellsAll context.tree [] context.tree.resolved := by
  have exits := State.exitScope_reports context (context.walk {} context.tree.resolved)
    context.tree.unit.endPoint {} ScopeTree.rootId
  rw [run, State.told_of_reports exits (by decide), told_walk]
  rfl

/-- The live places of ownership after each statement, by name and identifier. -/
theorem snapshots_eq :
    context.snapshots =
      (Ownership.course context.tree [] context.tree.resolved).map fun ownership =>
        ownership.live.map fun (place, held) =>
          let name := (context.tree.name place).display
          (s!"{name}#{place}", held) := by
  have traced : _ = Ownership.course context.tree [] context.tree.resolved :=
    ownership_trace context context.tree.resolved {}
  rw [← traced, List.map_map]
  rfl

end Context

/-- However long borrows last, a unit is found in the same states after each statement, and the
same is told of values that are not there and of names that are bound twice. -/
theorem ownership_independent_of_extents {unit : CodeUnit} {tree : ScopeTree} (config : Config)
    (built : unit.scopeTree = .ok tree) (admitted : config.admits unit = .ok ()) :
    ∃ lexical precise,
      unit.check { config with precise := false } true = .ok lexical ∧
      unit.check { config with precise := true } true = .ok precise ∧
      lexical.states = precise.states ∧ lexical.states.isSome = true ∧
      Diagnostic.ofValues lexical.diagnostics = Diagnostic.ofValues precise.diagnostics := by
  have analysed : ∀ precise : Bool, unit.check { config with precise } true =
      .ok ⟨Context.ofTree { config with precise } tree,
        (Context.ofTree { config with precise } tree).run,
        some (Context.ofTree { config with precise } tree).snapshots⟩ := by
    intro precise
    have alsoAdmitted : Config.admits { config with precise } unit = .ok () := admitted
    rw [CodeUnit.check, alsoAdmitted, built]
    rfl
  refine ⟨_, _, analysed false, analysed true, ?_, rfl, ?_⟩
  · rw [Context.snapshots_eq, Context.snapshots_eq]
    rfl
  · have lexically := Context.told_run (Context.ofTree { config with precise := false } tree)
    have precisely := Context.told_run (Context.ofTree { config with precise := true } tree)
    exact lexically.trans precisely.symm

/-- A reference is taken and used up, and its referent is bound twice and read when it is gone.
Only where borrows end with the last use of their holder may the referent be borrowed again. -/
def spentReference : CodeUnit := .ofActions "spent reference" [
  .bind (.str "x") (.bool true) none (.bool false) (.bool false),
  .borrow .shared (.str "r") (.str "x"),
  .read (.str "r"),
  .borrow .exclusive (.str "s") (.str "x"),
  .bind (.str "x") (.bool true) none (.bool false) (.bool false),
  .consume (.str "x"),
  .read (.str "x")]

/-- The two runs report different things, but not of values. -/
theorem spentReference_independent :
    ∃ lexical precise,
      spentReference.check { precise := false } true = .ok lexical ∧
      spentReference.check { precise := true } true = .ok precise ∧
      lexical.diagnostics.map Diagnostic.kind =
        [.conflictingBorrow, .duplicateBinding, .moveWhileBorrowed, .useAfterMove] ∧
      precise.diagnostics.map Diagnostic.kind = [.duplicateBinding, .useAfterMove] ∧
      lexical.states = precise.states ∧ lexical.states.isSome = true ∧
      Diagnostic.ofValues lexical.diagnostics = Diagnostic.ofValues precise.diagnostics := by
  have found : spentReference.scopeTree.toOption.isSome = true := by decide
  obtain ⟨tree, found⟩ := Option.isSome_iff_exists.mp found
  obtain ⟨lexical, precise, broadly, narrowly, states, recorded, told⟩ :=
    ownership_independent_of_extents {} (toOption_eq_some_iff.mp found) rfl
  have broad : ((spentReference.check { precise := false } true).toOption.map fun outcome =>
      outcome.diagnostics.map Diagnostic.kind) =
        some [.conflictingBorrow, .duplicateBinding, .moveWhileBorrowed, .useAfterMove] := by
    decide +kernel
  have narrow : ((spentReference.check { precise := true } true).toOption.map fun outcome =>
      outcome.diagnostics.map Diagnostic.kind) = some [.duplicateBinding, .useAfterMove] := by
    decide +kernel
  rw [broadly] at broad
  rw [narrowly] at narrow
  exact ⟨lexical, precise, broadly, narrowly, Option.some.inj broad, Option.some.inj narrow,
    states, recorded, told⟩

end LoanCheck
