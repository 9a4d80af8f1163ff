import LoanCheck.Program.Text
import LoanCheck.Proofs.Scope.Operand
import Mathlib.Data.List.Chain

/-!
# Programs written as text

A statement is written as a phrase of words and signs, a program as the phrases of its
statements and the headers of its units.  Between tokens may stand any layout; two words that
follow each other need some.  A rendering holds all of that, and tells both the text and the
program that the text stands for, with the line and column of each statement counted in the
text itself.
-/

namespace LoanCheck.SourceText

open LoanCheck.Text (Mark)

/-- A word is a keyword, a flag or a name. -/
inductive Token where
  | word (letters : List Char)
  | sign (mark : Char)
deriving DecidableEq, Repr

namespace Token

def chars : Token → List Char
  | .word letters => letters
  | .sign mark => [mark]

def isWord : Token → Bool
  | .word _ => true
  | .sign _ => false

def keyword (keyword : Keyword) : Token := .word keyword.text

end Token

/-- A letter or an underscore, then any number of letters, underscores and digits. -/
def isIdentifier : List Char → Bool
  | [] => false
  | first :: rest => isLetter first && rest.all isWordChar

/-- One piece of the layout between tokens.  A comment reaches to the end of its line. -/
inductive Gap where
  | space
  | tab
  | formFeed
  | carriageReturn
  | newline
  | comment (text : List Char) (inLine : '\n' ∉ text)

namespace Gap

def chars : Gap → List Char
  | .space => [' ']
  | .tab => ['\t']
  | .formFeed => [Char.ofNat 12]
  | .carriageReturn => ['\r']
  | .newline => ['\n']
  | .comment text _ => '#' :: (text ++ ['\n'])

/-- The text of a run of layout. -/
def run (gaps : List Gap) : List Char := gaps.flatMap chars

end Gap

/-- A token with the layout before it. -/
structure Spaced where
  gaps : List Gap := []
  token : Token

namespace Spaced

def chars (spaced : Spaced) : List Char := Gap.run spaced.gaps ++ spaced.token.chars

/-- The text of tokens with their layout. -/
def run (tokens : List Spaced) : List Char := tokens.flatMap chars

@[simp]
theorem run_nil : run [] = [] := rfl

@[simp]
theorem run_cons (first : Spaced) (rest : List Spaced) :
    run (first :: rest) = first.chars ++ run rest := rfl

@[simp]
theorem run_append (first second : List Spaced) :
    run (first ++ second) = run first ++ run second :=
  List.flatMap_append

/-- What may follow a token: after a word, another word only with layout before it. -/
def MayPrecede (first second : Spaced) : Prop :=
  first.token.isWord = true → second.token.isWord = true → second.gaps ≠ []

instance : DecidableRel MayPrecede := fun first second =>
  inferInstanceAs
    (Decidable (first.token.isWord = true → second.token.isWord = true → second.gaps ≠ []))

end Spaced

/-- What a flag of a declaration says. -/
inductive Modifier where
  | mutable
  | copy
deriving DecidableEq, Repr

def Modifier.token : Modifier → Token
  | .mutable => .word mutableWord
  | .copy => .word copyWord

/-- The end of a bind that takes its value from a place. -/
def sourceTokens : Option (List Char) → List Token
  | none => []
  | some source => [.sign '=', .keyword .move, .word source]

/-- The mark of an exclusive borrow. -/
def kindTokens : BorrowKind → List Token
  | .shared => []
  | .exclusive => [.word mutableWord]

open Pending (nameOf)

/-- The ways to write a statement.  Flags stand in any order, any number of times. -/
inductive Phrase : Action → List Token → Prop where
  | bind (shadow : Bool) (flags : List Modifier) (place : List Char)
      (source : Option (List Char)) :
      Phrase
        (.bind (nameOf place) (.bool (flags.contains .mutable)) (source.map nameOf)
          (.bool shadow) (.bool (flags.contains .copy)))
        (.keyword (if shadow then .shadow else .bind) :: (flags.map Modifier.token ++
          .word place :: (sourceTokens source ++ [.sign ';'])))
  | declare (flags : List Modifier) (place : List Char) :
      Phrase
        (.declare (nameOf place) (.bool (flags.contains .mutable)) (.bool (flags.contains .copy)))
        (.keyword .declare :: (flags.map Modifier.token ++ [.word place, .sign ';']))
  | move (dest src : List Char) :
      Phrase (.move (nameOf dest) (nameOf src))
        [.keyword .move, .word dest, .sign '=', .word src, .sign ';']
  | borrow (kind : BorrowKind) (dest referent : List Char) :
      Phrase (.borrow kind (nameOf dest) (nameOf referent))
        (.keyword .borrow :: .word dest :: .sign '=' :: .sign '&' ::
          (kindTokens kind ++ [.word referent, .sign ';']))
  | write (place : List Char) :
      Phrase (.write (nameOf place)) [.keyword .write, .word place, .sign ';']
  | read (place : List Char) :
      Phrase (.read (nameOf place)) [.keyword .read, .word place, .sign ';']
  | consume (place : List Char) :
      Phrase (.consume (nameOf place)) [.keyword .consume, .word place, .sign ';']
  | openBrace : Phrase .enter [.sign '{']
  | enter : Phrase .enter [.keyword .enter, .sign ';']
  | closeBrace : Phrase .exit [.sign '}']
  | exit : Phrase .exit [.keyword .exit, .sign ';']

end LoanCheck.SourceText

namespace LoanCheck

/-- Whether a name is an identifier. -/
def Json.isIdentifier : Name → Bool
  | .str text => SourceText.isIdentifier text.toList
  | _ => false

/-- Whether a name is a given word. -/
def Json.isWord (word : String) : Name → Bool
  | .str text => text == word
  | _ => false

namespace Action

/-- No name stands where it would be read as a flag. -/
def isUnflagged : Action → Bool
  | .bind place _ _ _ _ => !place.isWord "mut" && !place.isWord "copy"
  | .declare place _ _ => !place.isWord "mut" && !place.isWord "copy"
  | .borrow .shared _ referent => !referent.isWord "mut"
  | _ => true

/-- The names of a statement can be written: they are identifiers and not read as flags. -/
def Nameable (action : Action) : Prop :=
  (∀ name ∈ action.names, name.isIdentifier = true) ∧ action.isUnflagged = true

instance (action : Action) : Decidable action.Nameable :=
  inferInstanceAs (Decidable (_ ∧ _))

end Action

namespace SourceText

open LoanCheck.Text (Mark)

/-- The line and column that a text before it gives a place. -/
def markAfter (before : List Char) : Mark :=
  { line := before.count '\n' + 1
    column := (before.reverse.takeWhile (· ≠ '\n')).length + 1 }

/-- A statement as it is written. -/
structure StatementText where
  action : Action
  tokens : List Spaced
  phrase : Phrase action (tokens.map Spaced.token)

namespace StatementText

def chars (text : StatementText) : List Char := Spaced.run text.tokens

/-- The layout before the first token. -/
def indent (text : StatementText) : List Char :=
  text.tokens.head?.elim [] fun first => Gap.run first.gaps

/-- The statement that stands after a text: it reaches from its first token to just after its
last one. -/
def statement (file : Option String) (before : List Char) (text : StatementText) : Statement :=
  { action := text.action
    loc := Span.between file (markAfter (before ++ text.indent)) (markAfter (before ++ text.chars)) }

/-- The text of statements. -/
def run (texts : List StatementText) : List Char := texts.flatMap chars

@[simp]
theorem run_nil : run [] = [] := rfl

@[simp]
theorem run_cons (first : StatementText) (rest : List StatementText) :
    run (first :: rest) = first.chars ++ run rest := rfl

theorem run_tokens (texts : List StatementText) :
    Spaced.run (texts.flatMap tokens) = run texts :=
  List.flatMap_assoc

/-- The statements that stand after a text, one after another. -/
def statements (file : Option String) : List Char → List StatementText → List Statement
  | _, [] => []
  | before, text :: rest =>
      text.statement file before :: statements file (before ++ text.chars) rest

end StatementText

/-- A unit as it is written, with a header. -/
structure UnitText where
  name : List Char
  beforeKeyword : List Gap
  beforeName : List Gap
  beforeColon : List Gap
  body : List StatementText

namespace UnitText

def header (text : UnitText) : List Spaced :=
  [⟨text.beforeKeyword, .keyword .unit⟩, ⟨text.beforeName, .word text.name⟩,
    ⟨text.beforeColon, .sign ':'⟩]

def tokens (text : UnitText) : List Spaced :=
  text.header ++ text.body.flatMap StatementText.tokens

def chars (text : UnitText) : List Char :=
  Spaced.run text.header ++ StatementText.run text.body

/-- The text of units. -/
def run (texts : List UnitText) : List Char := texts.flatMap chars

@[simp]
theorem run_nil : run [] = [] := rfl

@[simp]
theorem run_cons (first : UnitText) (rest : List UnitText) :
    run (first :: rest) = first.chars ++ run rest := rfl

theorem run_tokens (texts : List UnitText) : Spaced.run (texts.flatMap tokens) = run texts := by
  induction texts with
  | nil => rfl
  | cons first rest inductionHypothesis =>
      rw [List.flatMap_cons, Spaced.run_append, tokens, Spaced.run_append, inductionHypothesis,
        StatementText.run_tokens, run_cons, chars]

/-- The unit that stands after a text. -/
def unit (file : Option String) (before : List Char) (text : UnitText) : CodeUnit :=
  { name := String.ofList text.name
    statements := StatementText.statements file (before ++ Spaced.run text.header) text.body }

/-- The units that stand after a text, one after another. -/
def units (file : Option String) : List Char → List UnitText → List CodeUnit
  | _, [] => []
  | before, text :: rest => text.unit file before :: units file (before ++ text.chars) rest

end UnitText

/-- A program as it is written: statements without a header, units, and layout at the end. -/
structure Rendering where
  body : List StatementText
  units : List UnitText
  tail : List Gap

namespace Rendering

variable (rendering : Rendering)

def tokens : List Spaced :=
  rendering.body.flatMap StatementText.tokens ++ rendering.units.flatMap UnitText.tokens

/-- The whole text. -/
def chars : List Char := Spaced.run rendering.tokens ++ Gap.run rendering.tail

/-- Layout stands between any two words that follow each other. -/
def Separated : Prop := rendering.tokens.IsChain Spaced.MayPrecede

instance : Decidable rendering.Separated :=
  inferInstanceAs (Decidable (rendering.tokens.IsChain Spaced.MayPrecede))

/-- All statements that are written, with a header before them or not. -/
def statements : List StatementText :=
  rendering.body ++ rendering.units.flatMap UnitText.body

/-- All names can be written. -/
def Nameable : Prop :=
  (∀ text ∈ rendering.statements, text.action.Nameable) ∧
    ∀ text ∈ rendering.units, isIdentifier text.name = true

instance : Decidable rendering.Nameable :=
  inferInstanceAs (Decidable (_ ∧ _))

/-- The program that is written.  The unit without a header is there if it has statements or
no other unit is. -/
def program (file : Option String) (defaultName : String) : Program :=
  let anonymous : CodeUnit := ⟨defaultName, StatementText.statements file [] rendering.body⟩
  { units :=
      (if rendering.body ≠ [] ∨ rendering.units = [] then [anonymous] else []) ++
        UnitText.units file (StatementText.run rendering.body) rendering.units }

end Rendering

/-- Passing characters one by one counts lines and columns. -/
theorem pastAll_first (before : List Char) : Mark.first.pastAll before = markAfter before := by
  induction before using List.reverseRecOn with
  | nil => rfl
  | append_singleton before last inductionHypothesis =>
      rw [Mark.pastAll_append, inductionHypothesis, Mark.pastAll_cons, Mark.pastAll_nil]
      by_cases ends : last = '\n'
      · subst ends
        simp [Mark.past, markAfter]
      · simp [Mark.past, markAfter, ends]

namespace Token

/-- Words are identifiers, and signs are signs of the language. -/
def Valid : Token → Prop
  | .word letters => isIdentifier letters = true
  | .sign mark => signs.contains mark = true

end Token

/-- What follows does not go on with a character of a word. -/
def EndsWord (rest : List Char) : Prop := ∀ c ∈ rest.head?, isWordChar c = false

theorem endsWord_nil : EndsWord [] := by
  intro c absent
  cases absent

theorem endsWord_cons {c : Char} (other : isWordChar c = false) (rest : List Char) :
    EndsWord (c :: rest) := by
  rintro _ ⟨⟩
  exact other

theorem Gap.endsWord (gap : Gap) (rest : List Char) : EndsWord (gap.chars ++ rest) := by
  cases gap with
  | comment text inLine => exact endsWord_cons rfl _
  | _ => exact endsWord_cons rfl _

theorem Gap.endsWord_run {gaps : List Gap} (some : gaps ≠ []) (rest : List Char) :
    EndsWord (Gap.run gaps ++ rest) := by
  cases gaps with
  | nil => exact absurd rfl some
  | cons first others =>
      rw [Gap.run, List.flatMap_cons, List.append_assoc]
      exact first.endsWord _

theorem isWordChar_of_sign {mark : Char} (sign : signs.contains mark = true) :
    isWordChar mark = false := by
  have listed : mark ∈ signs := List.contains_iff_mem.mp sign
  simp only [signs, List.mem_cons, List.not_mem_nil, or_false] at listed
  rcases listed with rfl | rfl | rfl | rfl | rfl | rfl <;> rfl

namespace Spaced

/-- A token after a word ends it, if it may stand there. -/
theorem MayPrecede.endsWord {first second : Spaced} (may : MayPrecede first second)
    (isWord : first.token.isWord = true) (valid : second.token.Valid) (rest : List Char) :
    EndsWord (second.chars ++ rest) := by
  rw [chars, List.append_assoc]
  by_cases tight : second.gaps = []
  · rw [tight]
    cases shape : second.token with
    | word letters => exact absurd tight (may isWord (by rw [shape]; rfl))
    | sign mark =>
        rw [shape] at valid
        exact endsWord_cons (isWordChar_of_sign valid) rest
  · exact Gap.endsWord_run tight _

/-- Every word among the tokens is ended by what follows it. -/
def Ended : List Spaced → List Char → Prop
  | [], _ => True
  | first :: others, rest =>
      (first.token.isWord = true → EndsWord (run others ++ rest)) ∧ Ended others rest

theorem ended_append {first second : List Spaced} {rest : List Char} :
    Ended (first ++ second) rest ↔ Ended first (run second ++ rest) ∧ Ended second rest := by
  induction first with
  | nil => exact (and_iff_right trivial).symm
  | cons head others inductionHypothesis =>
      rw [List.cons_append, Ended, Ended, inductionHypothesis, run_append, List.append_assoc,
        and_assoc]

theorem ended_of_isChain {tokens : List Spaced} {rest : List Char}
    (chain : tokens.IsChain MayPrecede) (valid : ∀ spaced ∈ tokens, spaced.token.Valid)
    (ends : EndsWord rest) : Ended tokens rest := by
  induction tokens with
  | nil => trivial
  | cons first others inductionHypothesis =>
      have otherEnds := inductionHypothesis chain.tail
        fun spaced listed => valid spaced (List.mem_cons_of_mem _ listed)
      refine ⟨fun isWord => ?_, otherEnds⟩
      cases others with
      | nil => exact ends
      | cons second others =>
          have may := (List.isChain_cons_cons.mp chain).1
          rw [run_cons, List.append_assoc]
          exact may.endsWord isWord (valid second (by simp)) _

end Spaced

end SourceText

end LoanCheck
