import LoanCheck.Program.Text
import LoanCheck.Proofs.Scope.Operand

/-!
# Names in texts

A reader makes names of words only, so every name of a program that was read from a text is a
text.  The invariant is about all names the reader has met: those of the statements it has
finished and those of the statement it is in.
-/

namespace LoanCheck.SourceText

/-- The names of the statement that is being read. -/
def Pending.names : Pending → List Name
  | .binderEnd _ place | .sourceMove _ place | .sourceName _ place => [place]
  | .moveEquals dest | .moveSource dest => [dest]
  | .borrowEquals dest | .borrowSign dest | .borrowReferent dest | .exclusiveReferent dest => [dest]
  | .semicolon action => action.names
  | _ => []

def Advance.names : Advance → List Name
  | .more pending => pending.names
  | .statement action => action.names
  | .unit _ => []

theorem Pending.names_begin (keyword : Keyword) : (begin keyword).names = [] := by
  cases keyword <;> rfl

/-- A lexeme adds at most one name, which is the lexeme itself. -/
theorem Pending.mem_names_of_advance? {pending : Pending} {lexeme : List Char} {advance : Advance}
    (taken : pending.advance? lexeme = some advance) {name : Name} (met : name ∈ advance.names) :
    name ∈ pending.names ∨ name = nameOf lexeme := by
  cases pending with
  | start =>
      simp only [advance?] at taken
      split at taken
      · cases taken
        cases met
      · split at taken
        · cases taken
          cases met
        · obtain ⟨keyword, _, rfl⟩ := Option.map_eq_some_iff.mp taken
          simp [Advance.names, names_begin] at met
  | binderName binder =>
      simp only [advance?] at taken
      split at taken
      · cases taken
        cases met
      · split at taken
        · cases taken
          cases met
        · split at taken <;> cases taken <;>
            simp_all [Advance.names, names, Action.names, Action.target?, Action.operand?]
  | _ =>
      simp only [advance?, Option.ite_none_right_eq_some, Option.some.injEq] at taken
      grind [Advance.names, names, Action.names, Action.target?, Action.operand?, Binder.bind]

namespace Reader

/-- The statements that have been read. -/
def statements (reader : Reader) : List Statement :=
  reader.anonymous ++ reader.units.flatMap CodeUnit.statements

/-- Every name that has been met is a text. -/
structure Textual (reader : Reader) : Prop where
  pending : ∀ name ∈ reader.pending.names, name.isText = true
  statements : ∀ statement ∈ reader.statements, ∀ name ∈ statement.action.names,
    name.isText = true

theorem mem_statements_addStatement {reader : Reader} {added statement : Statement} :
    statement ∈ (reader.addStatement added).statements ↔
      statement ∈ reader.statements ∨ statement = added := by
  obtain ⟨file, pending, mark, started, latest, comment, anonymous, units⟩ := reader
  cases units with
  | nil => simp [addStatement, statements]
  | cons unit rest =>
      simp only [addStatement, statements, List.flatMap_cons, List.mem_append,
        List.mem_singleton]
      tauto

theorem Textual.addStatement {reader : Reader} (textual : reader.Textual) {statement : Statement}
    (met : ∀ name ∈ statement.action.names, name.isText = true) :
    (reader.addStatement statement).Textual := by
  have kept : (reader.addStatement statement).pending = reader.pending := by
    unfold Reader.addStatement
    split <;> rfl
  refine ⟨kept ▸ textual.pending, ?_⟩
  intro other listed
  rcases mem_statements_addStatement.mp listed with old | rfl
  · exact textual.statements other old
  · exact met

theorem Textual.take {reader : Reader} (textual : reader.Textual) {lexeme : List Char}
    {advance : Advance} (taken : reader.pending.advance? lexeme = some advance) :
    (reader.take lexeme advance).Textual := by
  have met : ∀ name ∈ advance.names, name.isText = true := by
    intro name listed
    rcases Pending.mem_names_of_advance? taken listed with old | rfl
    · exact textual.pending name old
    · rfl
  cases advance with
  | more pending => exact ⟨met, textual.statements⟩
  | unit name =>
      refine ⟨fun _ absent => absurd absent List.not_mem_nil, ?_⟩
      exact textual.statements
  | statement action =>
      apply Textual.addStatement
      · exact ⟨fun _ absent => absurd absent List.not_mem_nil, textual.statements⟩
      · exact met

theorem Textual.run {reader last : Reader} (textual : reader.Textual) {held : Nat}
    {text : List Char} (finished : reader.run held text = .ok last) : last.Textual := by
  fun_induction Reader.run reader held text with
  | case1 reader held =>
      cases finished
      exact textual
  | case2 reader held c rest inductionHypothesis =>
      exact inductionHypothesis ⟨textual.pending, textual.statements⟩ finished
  | case3 reader c rest commented inductionHypothesis =>
      exact inductionHypothesis ⟨textual.pending, textual.statements⟩ finished
  | case4 reader c rest uncommented layout inductionHypothesis =>
      exact inductionHypothesis ⟨textual.pending, textual.statements⟩ finished
  | case5 reader rest uncommented layout inductionHypothesis =>
      exact inductionHypothesis ⟨textual.pending, textual.statements⟩ finished
  | case6 => cases finished
  | case7 => cases finished
  | case8 reader c rest uncommented visible notHash lexeme found advance taken
      inductionHypothesis =>
      have next := textual.take taken
      exact inductionHypothesis ⟨next.pending, next.statements⟩ finished

end Reader

end LoanCheck.SourceText

namespace LoanCheck

theorem Program.textual_of_readText {file : Option String} {defaultName : String}
    {text : List Char} {program : Program}
    (finished : Program.readText file defaultName text = .ok program) :
    ∀ unit ∈ program.units, unit.Textual := by
  obtain ⟨reader, read, rfl⟩ := map_eq_ok_iff.mp finished
  have textual : reader.Textual := by
    rw [SourceText.read] at read
    split at read
    · cases read
    · next last ran =>
        have empty : SourceText.Reader.Textual { file } :=
          ⟨fun _ absent => absurd absent List.not_mem_nil,
            fun _ absent => absurd absent List.not_mem_nil⟩
        split at read
        · cases read
          exact empty.run ran
        · cases read
  intro unit listed statement inUnit name named
  refine textual.statements statement ?_ name named
  simp only [SourceText.Reader.program] at listed
  rw [SourceText.Reader.statements, List.mem_append, List.mem_flatMap]
  split at listed
  · exact .inr ⟨unit, List.mem_reverse.mp listed, inUnit⟩
  · rcases List.mem_cons.mp listed with rfl | isNamed
    · exact .inl inUnit
    · exact .inr ⟨unit, List.mem_reverse.mp isNamed, inUnit⟩

end LoanCheck
