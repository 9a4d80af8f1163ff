import LoanCheck.Program.Data
import LoanCheck.Proofs.Json.RoundTrip
import LoanCheck.Proofs.Scope.Operand

/-!
# Reading programs back from their data

A program whose names are texts and whose flags are truth values is read back from the data that
is written for it.  All that is lost is where its statements stand in their source, which data
does not tell.
-/

namespace LoanCheck

/-- Whether a flag is a truth value. -/
def Json.isTruthValue : Flag → Bool
  | .bool _ => true
  | _ => false

theorem Json.eq_str_of_isText {name : Name} (isText : name.isText = true) :
    ∃ text, name = .str text := by
  cases name with
  | str text => exact ⟨text, rfl⟩
  | _ => cases isText

theorem Json.eq_bool_of_isTruthValue {flag : Flag} (isTruthValue : flag.isTruthValue = true) :
    ∃ value, flag = .bool value := by
  cases flag with
  | bool value => exact ⟨value, rfl⟩
  | _ => cases isTruthValue

namespace Action

/-- The flags of a statement. -/
def flags : Action → List Flag
  | .bind _ mutable _ shadow copy => [mutable, shadow, copy]
  | .declare _ mutable copy => [mutable, copy]
  | _ => []

/-- All names of a statement are texts, and all its flags are truth values. -/
def Typed (action : Action) : Prop :=
  (∀ name ∈ action.names, name.isText = true) ∧
    ∀ flag ∈ action.flags, flag.isTruthValue = true

instance (action : Action) : Decidable action.Typed :=
  inferInstanceAs (Decidable (_ ∧ _))

variable {action : Action}

theorem keys_flagField (key : String) (flag : Flag) :
    ((flagField key flag).map Prod.fst).Sublist [key] := by
  rw [flagField]
  split
  · exact List.nil_sublist [key]
  · exact List.Sublist.refl [key]

/-- No field of a statement is written twice. -/
theorem nodup_keys (action : Action) : (action.fields.map Prod.fst).Nodup := by
  cases action with
  | bind place mutable source shadow copy =>
      have all : ["op", "place", "mutable", "move_from", "shadow", "copy"].Nodup := by decide
      have front := (List.Sublist.refl ["op", "place"]).append (keys_flagField "mutable" mutable)
      have back := (keys_flagField "shadow" shadow).append (keys_flagField "copy" copy)
      apply List.Nodup.sublist _ all
      cases source with
      | none =>
          simp only [fields, List.map_append, List.append_assoc]
          exact front.append ((List.nil_sublist ["move_from"]).append back)
      | some name =>
          simp only [fields, List.map_append, List.append_assoc]
          exact front.append ((List.Sublist.refl ["move_from"]).append back)
  | declare place mutable copy =>
      have all : ["op", "place", "mutable", "copy"].Nodup := by decide
      apply List.Nodup.sublist _ all
      simp only [fields, List.map_append]
      exact ((List.Sublist.refl ["op", "place"]).append (keys_flagField "mutable" mutable)).append
        (keys_flagField "copy" copy)
  | borrow kind dest referent =>
      cases kind with
      | shared => exact (by decide : ["op", "dest", "ref"].Nodup)
      | exclusive => exact (by decide : ["op", "dest", "ref"].Nodup)
  | move dest src => exact (by decide : ["op", "dest", "src"].Nodup)
  | enter => exact (by decide : ["op"].Nodup)
  | exit => exact (by decide : ["op"].Nodup)
  | _ => exact (by decide : ["op", "place"].Nodup)

theorem plain_flagField {flag : Flag} (room : Nat) (key : String)
    (isTruthValue : flag.isTruthValue = true) :
    ∀ field ∈ flagField key flag, Json.Plain room field.2 := by
  obtain ⟨value, rfl⟩ := Json.eq_bool_of_isTruthValue isTruthValue
  cases value with
  | false => exact List.forall_mem_nil _
  | true => exact List.forall_mem_singleton.mpr (.bool room true)

theorem plain_fields (room : Nat) (typed : action.Typed) :
    ∀ field ∈ action.fields, Json.Plain room field.2 := by
  have op (text : String) : Json.Plain room (.str text) := .str room text
  have named : ∀ name ∈ action.names, Json.Plain room name := by
    intro name listed
    obtain ⟨text, rfl⟩ := Json.eq_str_of_isText (typed.1 name listed)
    exact op text
  have flagged : ∀ flag ∈ action.flags, ∀ key, ∀ field ∈ flagField key flag,
      Json.Plain room field.2 :=
    fun flag listed key => plain_flagField room key (typed.2 flag listed)
  have nothing : ∀ field ∈ ([] : List (String × Json)), Json.Plain room field.2 :=
    List.forall_mem_nil _
  cases action with
  | bind place mutable source shadow copy =>
      have place := named place (by simp [names, target?])
      have mutable := flagged mutable (by simp [flags]) "mutable"
      have shadow := flagged shadow (by simp [flags]) "shadow"
      have copy := flagged copy (by simp [flags]) "copy"
      cases source with
      | none =>
          simp only [fields, List.forall_mem_append, List.forall_mem_cons]
          exact ⟨⟨⟨⟨⟨op _, place, nothing⟩, mutable⟩, nothing⟩, shadow⟩, copy⟩
      | some source =>
          have source := named source (by simp [names, operand?])
          simp only [fields, List.forall_mem_append, List.forall_mem_cons]
          exact ⟨⟨⟨⟨⟨op _, place, nothing⟩, mutable⟩, source, nothing⟩, shadow⟩, copy⟩
  | declare place mutable copy =>
      have place := named place (by simp [names, target?])
      have mutable := flagged mutable (by simp [flags]) "mutable"
      have copy := flagged copy (by simp [flags]) "copy"
      simp only [fields, List.forall_mem_append, List.forall_mem_cons]
      exact ⟨⟨⟨op _, place, nothing⟩, mutable⟩, copy⟩
  | borrow kind dest referent =>
      cases kind <;> simpa [fields, op, names, target?, operand?] using named
  | enter => simp [fields, op]
  | exit => simp [fields, op]
  | _ => simpa [fields, op, names, target?, operand?] using named

theorem plain_toJson (room : Nat) (typed : action.Typed) :
    Json.Plain (room + 1) action.toJson :=
  .obj action.nodup_keys (plain_fields room typed)

/-- A statement is read back from its fields, those that were left out included. -/
theorem ofJson_toJson (point : Nat) (typed : action.Typed) :
    ofJson point action.toJson = .ok action := by
  obtain ⟨textual, truths⟩ := typed
  cases action with
  | bind place mutable source shadow copy =>
      obtain ⟨mutable, rfl⟩ := Json.eq_bool_of_isTruthValue (truths mutable (by simp [flags]))
      obtain ⟨shadow, rfl⟩ := Json.eq_bool_of_isTruthValue (truths shadow (by simp [flags]))
      obtain ⟨copy, rfl⟩ := Json.eq_bool_of_isTruthValue (truths copy (by simp [flags]))
      cases source with
      | none => cases mutable <;> cases shadow <;> cases copy <;> rfl
      | some source =>
          -- A source is told from one that is left out because no text is null.
          obtain ⟨source, rfl⟩ := Json.eq_str_of_isText (textual source (by simp [names, operand?]))
          cases mutable <;> cases shadow <;> cases copy <;> rfl
  | declare place mutable copy =>
      obtain ⟨mutable, rfl⟩ := Json.eq_bool_of_isTruthValue (truths mutable (by simp [flags]))
      obtain ⟨copy, rfl⟩ := Json.eq_bool_of_isTruthValue (truths copy (by simp [flags]))
      cases mutable <;> cases copy <;> rfl
  | borrow kind dest referent => cases kind <;> rfl
  | _ => rfl

end Action

namespace CodeUnit

/-- All names of a unit are texts, and all its flags are truth values. -/
def Typed (unit : CodeUnit) : Prop :=
  ∀ statement ∈ unit.statements, statement.action.Typed

instance (unit : CodeUnit) : Decidable unit.Typed :=
  inferInstanceAs (Decidable (∀ statement ∈ unit.statements, _))

/-- The unit without the places of its statements in their source. -/
def unlocated (unit : CodeUnit) : CodeUnit :=
  { unit with statements := unit.statements.map fun statement => { action := statement.action } }

variable {unit : CodeUnit}

theorem toJson_unlocated (unit : CodeUnit) : unit.unlocated.toJson = unit.toJson := by
  simp [toJson, unlocated, Function.comp_def]

theorem plain_toJson (room : Nat) (typed : unit.Typed) :
    Json.Plain (room + 3) unit.toJson := by
  have statements : Json.Plain (room + 2)
      (.arr (unit.statements.map fun statement => statement.action.toJson)) := by
    apply Json.Plain.arr
    intro item listed
    obtain ⟨statement, written, rfl⟩ := List.mem_map.mp listed
    exact Action.plain_toJson room (typed statement written)
  apply Json.Plain.obj
  · exact (by decide : ["name", "statements"].Nodup)
  · simp [Json.Plain.str, statements]

theorem statementsOfJson_map {statements : List Statement} (point : Nat)
    (typed : ∀ statement ∈ statements, statement.action.Typed) :
    statementsOfJson point (statements.map fun statement => statement.action.toJson) =
      .ok (statements.map fun statement => { action := statement.action }) := by
  induction statements generalizing point with
  | nil => rfl
  | cons statement statements ih =>
      obtain ⟨first, others⟩ := List.forall_mem_cons.mp typed
      rw [List.map_cons, statementsOfJson, Action.ofJson_toJson point first,
        ih (point + 1) others]
      rfl

theorem ofJson_toJson (typed : unit.Typed) : ofJson unit.toJson = .ok unit.unlocated := by
  have name : unit.toJson.field? "name" = some (.str unit.name) := rfl
  have statements : unit.toJson.field? "statements" =
      some (.arr (unit.statements.map fun statement => statement.action.toJson)) := rfl
  simp only [ofJson, name, statements, Option.getD_some, statementsOfJson_map 0 typed]
  rfl

end CodeUnit

namespace Program

/-- All names of a program are texts, and all its flags are truth values. -/
def Typed (program : Program) : Prop :=
  ∀ unit ∈ program.units, unit.Typed

instance (program : Program) : Decidable program.Typed :=
  inferInstanceAs (Decidable (∀ unit ∈ program.units, _))

/-- The program without the places of its statements in their source. -/
def unlocated (program : Program) : Program :=
  { units := program.units.map CodeUnit.unlocated }

variable {program : Program}

theorem writeData_unlocated (program : Program) :
    program.unlocated.writeData = program.writeData := by
  simp [writeData, toJson, unlocated, Function.comp_def, CodeUnit.toJson_unlocated]

/-- Five arrays and objects lie inside each other in the data of a program. -/
theorem plain_toJson (room : Nat) (typed : program.Typed) :
    Json.Plain (room + 5) program.toJson := by
  have units : Json.Plain (room + 4) (.arr (program.units.map CodeUnit.toJson)) := by
    apply Json.Plain.arr
    intro item listed
    obtain ⟨unit, written, rfl⟩ := List.mem_map.mp listed
    exact CodeUnit.plain_toJson room (typed unit written)
  apply Json.Plain.obj
  · exact (by decide : ["units"].Nodup)
  · simp [units]

theorem unitsOfJson_map {units : List CodeUnit} (typed : ∀ unit ∈ units, unit.Typed) :
    unitsOfJson (units.map CodeUnit.toJson) = .ok (units.map CodeUnit.unlocated) := by
  induction units with
  | nil => rfl
  | cons unit units ih =>
      obtain ⟨first, others⟩ := List.forall_mem_cons.mp typed
      rw [List.map_cons, unitsOfJson, CodeUnit.ofJson_toJson first, ih others]
      rfl

theorem ofJson_toJson (typed : program.Typed) :
    ofJson program.toJson = .ok program.unlocated := by
  have items : unitItems program.toJson = .ok (program.units.map CodeUnit.toJson) := rfl
  rw [ofJson, items]
  simp only [bind, Except.bind, unitsOfJson_map typed]
  rfl

/-- A program is read back from the text of its data, but for the places of its statements in
their source, and the program that is read has the same data. -/
theorem readData_writeData (typed : program.Typed) :
    readData program.writeData.toList = .ok program.unlocated ∧
      program.unlocated.writeData = program.writeData := by
  have plain : Json.Plain Json.maxNesting program.toJson := plain_toJson 983 typed
  refine ⟨?_, program.writeData_unlocated⟩
  rw [readData, writeData, plain.parseChars_write]
  exact ofJson_toJson typed

end Program

/-- Names with characters of every kind, flags that are set or not, and units without
statements. -/
def unusualNames : Program :=
  { units := [
      { name := "", statements := [] },
      { name := "é\t\x01",
        statements := [
          { action := .bind (.str "\"\\😀") (.bool true) none (.bool false) (.bool true)
            loc := { line := some 1, column := some 1 } },
          { action := .bind (.str "\x7b[:,]\x7d") (.bool false) (some (.str "\"\\😀")) (.bool true)
              (.bool false) },
          { action := .enter },
          { action := .declare (.str "\n\r /\x7f") (.bool false) (.bool true) },
          { action := .borrow .exclusive (.str "\n\r /\x7f") (.str "\x7b[:,]\x7d") },
          { action := .write (.str "\n\r /\x7f") },
          { action := .exit }] }] }

theorem unusualNames_read_back :
    unusualNames.Typed ∧
      Program.readData unusualNames.writeData.toList = .ok unusualNames.unlocated ∧
      unusualNames.unlocated.writeData = unusualNames.writeData := by
  have typed : unusualNames.Typed := by decide
  exact ⟨typed, Program.readData_writeData typed⟩

end LoanCheck
