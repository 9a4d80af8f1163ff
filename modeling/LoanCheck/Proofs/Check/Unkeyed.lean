import LoanCheck.Check.Run
import LoanCheck.Program.Data
import LoanCheck.Proofs.Json.RoundTrip
import LoanCheck.Proofs.Scope.Operand

/-!
# Values that cannot be names

Data may give any value as a name.  Lists and objects have no key to be looked up by, and that is
the only way in which the analysis of a unit does not come to a result: it stops at the first
statement whose operand is such a value, or whose operand was found and whose target is one.
Every other unit has a result, in which defects of its structure are reported as a fault.
-/

namespace LoanCheck

namespace Builder

variable {builder : Builder} {point : Point} {loc : Span} {name : Name} {error : NameError}

theorem keyOf_eq_name_iff : keyOf name = .error (.name error) ↔ name.key = .error error := by
  unfold keyOf
  split
  · next key keyed => simp [keyed]
  · next other unkeyed => simp [unkeyed]

theorem use_eq_name_iff :
    builder.use point loc name = .error (.name error) ↔ name.key = .error error := by
  rw [use, bind_eq_error_iff, keyOf_eq_name_iff]
  refine or_iff_left ?_
  rintro ⟨key, -, found⟩
  repeat' split at found
  all_goals cases found

theorem assign_eq_name_iff :
    builder.assign point name = .error (.name error) ↔ name.key = .error error := by
  rw [assign, bind_eq_error_iff, keyOf_eq_name_iff]
  refine or_iff_left ?_
  rintro ⟨key, -, chosen⟩
  repeat' split at chosen
  all_goals cases chosen

theorem bindTarget_eq_name_iff {mutable shadow copy : Flag} {holding : Option Holding} :
    builder.bindTarget point name mutable shadow copy holding = .error (.name error) ↔
      name.key = .error error := by
  rw [bindTarget, bind_eq_error_iff, keyOf_eq_name_iff]
  refine or_iff_left ?_
  rintro ⟨key, -, chosen⟩
  repeat' split at chosen
  all_goals cases chosen

theorem hold_ne_name {place : PlaceId} {holding : Option Holding} :
    builder.hold point loc place holding ≠ .error (.name error) := by
  unfold hold
  repeat' split
  all_goals intro same; cases same

/-- A value that cannot be a name is looked up: as the operand of a statement, or as its target
after the operand was found. -/
def Unkeyed (builder : Builder) (point : Point) (loc : Span) (action : Action)
    (error : NameError) : Prop :=
  (∃ name, action.operand? = some name ∧ name.key = .error error) ∨
    ∃ source name, action.operand?.mapM (builder.use point loc) = .ok source ∧
      action.target? = some name ∧ name.key = .error error

theorem unkeyed_of_operand {action : Action} (operand : action.operand? = some name)
    (targetless : action.target? = none) :
    builder.Unkeyed point loc action error ↔ name.key = .error error := by
  simp [Unkeyed, operand, targetless]

theorem unkeyed_of_target {action : Action} (operandless : action.operand? = none)
    (given : action.target? = some name) :
    builder.Unkeyed point loc action error ↔ name.key = .error error := by
  have found : (none : Option Name).mapM (builder.use point loc) = .ok none := rfl
  simp [Unkeyed, operandless, given, found]

theorem unkeyed_of_both {action : Action} {target : Name} (operand : action.operand? = some name)
    (given : action.target? = some target) :
    builder.Unkeyed point loc action error ↔ name.key = .error error ∨
      ∃ use, builder.use point loc name = .ok use ∧ target.key = .error error := by
  simp only [Unkeyed, operand, given, Option.some.injEq, exists_eq_left']
  refine or_congr_right ⟨?_, ?_⟩
  · rintro ⟨source, _, found, rfl, unkeyed⟩
    rw [Option.mapM_some, map_eq_ok_iff] at found
    obtain ⟨use, used, -⟩ := found
    exact ⟨use, used, unkeyed⟩
  · rintro ⟨use, used, unkeyed⟩
    exact ⟨some use, target, mapM_use used, rfl, unkeyed⟩

theorem resolve_eq_name_iff {action : Action} :
    builder.resolve point loc action = .error (.name error) ↔
      builder.Unkeyed point loc action error := by
  -- Once the target is known, only a place that would hold both kinds of things can fail.
  have given {Alpha : Type} {next : Builder → Except ResolveError Alpha} {holder : Builder}
      {place : PlaceId} {holding : Option Holding}
      (ends : ∀ value, next value ≠ .error (.name error)) :
      holder.hold point loc place holding >>= next ≠ .error (.name error) := by
    rw [ne_eq, bind_eq_error_iff_left ends]
    exact hold_ne_name
  cases action with
  | bind target mutable source shadow copy =>
      cases source with
      | none =>
          rw [unkeyed_of_target rfl rfl]
          simp only [resolve, Option.mapM_none, pure_bind]
          refine (bind_eq_error_iff_left ?_).trans bindTarget_eq_name_iff
          intro value
          exact given fun value same => by cases same
      | some src =>
          rw [unkeyed_of_both rfl rfl]
          simp only [resolve, Option.mapM_some, bind_map_left]
          rw [bind_eq_error_iff, use_eq_name_iff]
          refine or_congr_right (exists_congr fun use => and_congr_right fun _ => ?_)
          refine (bind_eq_error_iff_left ?_).trans bindTarget_eq_name_iff
          intro value
          exact given fun value same => by cases same
  | declare target mutable copy =>
      rw [unkeyed_of_target rfl rfl, resolve, bind_eq_error_iff_left, keyOf_eq_name_iff]
      intro value same
      cases same
  | move dest src =>
      rw [unkeyed_of_both rfl rfl, resolve, bind_eq_error_iff, use_eq_name_iff]
      refine or_congr_right (exists_congr fun use => and_congr_right fun _ => ?_)
      refine (bind_eq_error_iff_left ?_).trans assign_eq_name_iff
      intro value
      exact given fun value same => by cases same
  | borrow kind dest referent =>
      rw [unkeyed_of_both rfl rfl, resolve, bind_eq_error_iff, use_eq_name_iff]
      refine or_congr_right (exists_congr fun use => and_congr_right fun _ => ?_)
      refine (bind_eq_error_iff_left ?_).trans assign_eq_name_iff
      intro value
      exact given fun value same => by cases same
  | write place =>
      rw [unkeyed_of_operand rfl rfl, resolve, bind_eq_error_iff_left, use_eq_name_iff]
      intro value same
      cases same
  | read place =>
      rw [unkeyed_of_operand rfl rfl, resolve, bind_eq_error_iff_left, use_eq_name_iff]
      intro value same
      cases same
  | consume place =>
      rw [unkeyed_of_operand rfl rfl, resolve, bind_eq_error_iff_left, use_eq_name_iff]
      intro value same
      cases same
  | enter => simp [resolve, Unkeyed, Action.operand?, Action.target?]
  | exit => simp [resolve, Unkeyed, Action.operand?, Action.target?]

theorem unkeyed_addItem {action : Action} (item : ScopeItem) :
    (builder.addItem item).Unkeyed point loc action error ↔
      builder.Unkeyed point loc action error := by
  rw [Unkeyed, use_addItem, Unkeyed]

theorem step_eq_name_iff {statement : Statement} :
    builder.step point statement = .error (.name error) ↔
      builder.Unkeyed point statement.loc statement.action error := by
  obtain ⟨action, loc⟩ := statement
  cases action with
  | enter => simp [step, Unkeyed, Action.operand?, Action.target?]
  | exit =>
      simp only [step, exit, Unkeyed, Action.operand?, Action.target?]
      split <;> simp
  | _ =>
      rw [← unkeyed_addItem (.point point), ← resolve_eq_name_iff, step, bind_eq_error_iff]
      refine or_iff_left ?_
      rintro ⟨value, -, same⟩
      cases same

/-- The builder stops at the first statement that it cannot take. -/
theorem run_eq_error_iff {statements : List Statement} {reason : ResolveError} :
    builder.run point statements = .error reason ↔
      ∃ index statement before, statements[index]? = some statement ∧
        builder.run point (statements.take index) = .ok before ∧
        before.step (point + index) statement = .error reason := by
  induction statements generalizing builder point with
  | nil => simp [run]
  | cons statement rest inductionHypothesis =>
      rw [run, bind_eq_error_iff]
      constructor
      · rintro (failed | ⟨next, stepped, failed⟩)
        · exact ⟨0, statement, builder, rfl, rfl, failed⟩
        · obtain ⟨index, last, before, listed, reached, stops⟩ := inductionHypothesis.mp failed
          refine ⟨index + 1, last, before, listed, ?_, ?_⟩
          · rw [List.take_succ_cons, run, stepped]
            exact reached
          · rwa [Nat.add_assoc, Nat.add_comm 1] at stops
      · rintro ⟨_ | index, last, before, listed, reached, stops⟩
        · cases listed
          cases reached
          exact .inl stops
        · rw [List.take_succ_cons, run, bind_eq_ok_iff] at reached
          obtain ⟨next, stepped, reached⟩ := reached
          rw [Nat.add_comm index, ← Nat.add_assoc] at stops
          exact .inr ⟨next, stepped,
            inductionHypothesis.mpr ⟨index, last, before, listed, reached, stops⟩⟩

end Builder

namespace CodeUnit

variable {unit : CodeUnit} {error : NameError}

/-- The builder comes to a statement that looks up a value that cannot be a name. -/
def Unkeyed (unit : CodeUnit) (error : NameError) : Prop :=
  ∃ point statement before, unit.statements[point]? = some statement ∧
    unit.builderAt point = .ok before ∧
    before.Unkeyed point statement.loc statement.action error

theorem scopeTree_eq_name_iff : unit.scopeTree = .error (.name error) ↔ unit.Unkeyed error := by
  have finishes (builder : Builder) : builder.finish unit ≠ .error (.name error) := by
    unfold Builder.finish
    split <;> intro same <;> cases same
  rw [scopeTree, bind_eq_error_iff_left finishes, Builder.run_eq_error_iff]
  simp only [Nat.zero_add, Builder.step_eq_name_iff]
  rfl

/-- Names that are texts, or any other values but lists and objects, can all be looked up. -/
theorem not_unkeyed (keyed : ∀ statement ∈ unit.statements, ∀ name ∈ statement.action.names,
    ∃ key, name.key = .ok key) : ¬unit.Unkeyed error := by
  rintro ⟨point, statement, before, listed, -, unkeyed⟩
  rcases unkeyed with ⟨name, operand, unkeyed⟩ | ⟨source, name, -, given, unkeyed⟩
  · obtain ⟨key, keyed⟩ := keyed statement (List.mem_of_getElem? listed) name
      (by simp [Action.names, operand])
    rw [keyed] at unkeyed
    cases unkeyed
  · obtain ⟨key, keyed⟩ := keyed statement (List.mem_of_getElem? listed) name
      (by simp [Action.names, given])
    rw [keyed] at unkeyed
    cases unkeyed

variable {config : Config} {recordStates : Bool}

theorem admits_ne_name : config.admits unit ≠ .error (.name error) := by
  unfold Config.admits
  repeat' split
  all_goals intro same; cases same

theorem check_eq_name_iff :
    unit.check config recordStates = .error (.name error) ↔
      config.admits unit = .ok () ∧ unit.Unkeyed error := by
  rw [← scopeTree_eq_name_iff, check, bind_eq_error_iff, or_iff_right admits_ne_name]
  cases unit.scopeTree with
  | ok tree => simp [pure, Except.pure]
  | error reason =>
      cases reason with
      | defect found point loc => simp
      | name other =>
          constructor
          · rintro ⟨⟨⟩, admitted, same⟩
            cases same
            exact ⟨admitted, rfl⟩
          · rintro ⟨admitted, same⟩
            cases same
            exact ⟨(), admitted, rfl⟩

/-- The analysis does not come to a result exactly if the unit is not too large and a value that
cannot be a name is looked up. -/
theorem analyse_eq_error_iff :
    unit.analyse config recordStates = .error error ↔
      config.admits unit = .ok () ∧ unit.Unkeyed error := by
  rw [← check_eq_name_iff, analyse]
  cases unit.check config recordStates with
  | ok outcome => simp [UnitResult.ofCheck]
  | error reason =>
      cases reason <;>
        simp [UnitResult.ofCheck, CheckError.fault, bind, Except.bind, pure, Except.pure]

/-- What a result tells: what the analysis found, or the fault that stopped it and nothing
else. -/
def Reports (unit : CodeUnit) (config : Config) (recordStates : Bool) (result : UnitResult) :
    Prop :=
  result.unit = unit.name ∧
    ((∃ outcome, unit.check config recordStates = .ok outcome ∧ result.fault = none ∧
        result.diagnostics = outcome.diagnostics ∧ result.borrows = outcome.borrows ∧
        result.states = outcome.states) ∨
      ∃ reason fault, unit.check config recordStates = .error reason ∧ reason.fault = .ok fault ∧
        result.fault = some fault ∧ fault.unit = some unit.name ∧
        fault.kind ∈ [.malformedProgram, .unbalancedScope, .unitTooLarge] ∧
        result.diagnostics = [] ∧ result.borrows = [] ∧ result.states = none)

theorem fault_of_check {reason : CheckError} {fault : Fault}
    (stopped : unit.check config recordStates = .error reason) (told : reason.fault = .ok fault) :
    fault.unit = some unit.name ∧
      fault.kind ∈ [.malformedProgram, .unbalancedScope, .unitTooLarge] := by
  rw [check, bind_eq_error_iff] at stopped
  obtain tooLarge | ⟨_, -, found⟩ := stopped
  · unfold Config.admits at tooLarge
    repeat' split at tooLarge
    all_goals cases tooLarge
    cases told
    exact ⟨rfl, by simp⟩
  · split at found
    · cases found
      cases told
      refine ⟨rfl, ?_⟩
      rename_i defect _ _ _
      cases defect <;> simp [ScopeDefect.fault, ScopeDefect.kind]
    · cases found
      cases told
    · cases found

theorem reports_of_analyse {result : UnitResult}
    (analysed : unit.analyse config recordStates = .ok result) :
    unit.Reports config recordStates result := by
  rw [analyse] at analysed
  cases checked : unit.check config recordStates with
  | ok outcome =>
      rw [checked] at analysed
      cases analysed
      exact ⟨rfl, .inl ⟨outcome, checked, rfl, rfl, rfl, rfl⟩⟩
  | error reason =>
      rw [checked, UnitResult.ofCheck, bind_eq_ok_iff] at analysed
      obtain ⟨fault, told, same⟩ := analysed
      cases same
      obtain ⟨named, known⟩ := fault_of_check checked told
      exact ⟨rfl, .inr ⟨reason, fault, checked, told, rfl, named, known, rfl, rfl, rfl⟩⟩

end CodeUnit

/-- Everything that is read as a program comes to a result, unless it is not too large and a list
or an object is looked up as a name. -/
theorem Program.units_of_data_analysed (config : Config) (recordStates : Bool) :
    ∀ (text : List Char) (program : Program), Program.readData text = .ok program →
      ∀ unit ∈ program.units,
        (∀ error, unit.analyse config recordStates = .error error ↔
          config.admits unit = .ok () ∧ unit.Unkeyed error) ∧
        (¬(config.admits unit = .ok () ∧ ∃ error, unit.Unkeyed error) →
          ∃ result, unit.analyse config recordStates = .ok result ∧
            unit.Reports config recordStates result) := by
  intro _ program _ unit _
  refine ⟨fun error => CodeUnit.analyse_eq_error_iff, ?_⟩
  intro keyed
  cases analysed : unit.analyse config recordStates with
  | ok result => exact ⟨result, rfl, CodeUnit.reports_of_analyse analysed⟩
  | error error =>
      obtain ⟨admitted, unkeyed⟩ := CodeUnit.analyse_eq_error_iff.mp analysed
      exact absurd ⟨admitted, error, unkeyed⟩ keyed

/-- Truth values are names and a list is a flag, but the object that is moved is neither. -/
def movedObject : CodeUnit := ⟨"moved", [
  ⟨.bind (.bool true) (.arr [.null]) none (.bool false) (.bool false), {}⟩,
  ⟨.write (.bool true), {}⟩,
  ⟨.move (.bool false) (.obj []), {}⟩]⟩

def movedObjectData : Json := .arr [.obj [("name", .str "moved"), ("statements", .arr [
  .obj [("op", .str "bind"), ("place", .bool true), ("mutable", .arr [.null])],
  .obj [("op", .str "write"), ("place", .bool true)],
  .obj [("op", .str "move"), ("dest", .bool false), ("src", .obj [])]])]]

theorem movedObject_analysed :
    Program.readData (movedObjectData.write .line).toList = .ok ⟨[movedObject]⟩ ∧
      movedObject.analyse {} true = .error .object ∧
      ∃ result, movedObject.analyse { maxStatements := some 2 } true = .ok result ∧
        movedObject.Reports { maxStatements := some 2 } true result := by
  have plain : Json.Plain Json.maxNesting movedObjectData := by
    simp [movedObjectData, Json.plain_arr_iff, Json.plain_obj_iff, Json.maxNesting,
      Json.Plain.str, Json.Plain.bool, Json.Plain.null]
  have read : Program.readData (movedObjectData.write .line).toList = .ok ⟨[movedObject]⟩ := by
    rw [Program.readData, plain.parseChars_write]
    rfl
  have analysed (config : Config) := Program.units_of_data_analysed config true _ _ read
    movedObject (List.mem_singleton_self movedObject)
  refine ⟨read, ?_, ?_⟩
  · exact ((analysed {}).1 .object).mpr ⟨rfl, 2, _, _, rfl, rfl, .inl ⟨.obj [], rfl, rfl⟩⟩
  · -- The unit is too large before its third statement is looked at.
    apply (analysed { maxStatements := some 2 }).2
    rintro ⟨admitted, -⟩
    cases admitted

end LoanCheck
