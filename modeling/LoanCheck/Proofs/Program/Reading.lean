import LoanCheck.Proofs.Program.Rendering

/-!
# Reading what was written

The reader is taken through a rendering in three layers: characters, of which layout is passed
and a token is taken as a whole; tokens, which lead through what is expected to a statement or
a header; and phrases, which do so for the statement they are written for.
-/

namespace LoanCheck.SourceText

open LoanCheck.Text (Mark)

namespace Reader

/-- Pass a piece of text. -/
def passAll (reader : Reader) (text : List Char) : Reader :=
  { reader with mark := reader.mark.pastAll text }

@[simp]
theorem passAll_nil (reader : Reader) : reader.passAll [] = reader := rfl

theorem passAll_cons (reader : Reader) (c : Char) (text : List Char) :
    reader.passAll (c :: text) = (reader.pass c).passAll text := rfl

theorem passAll_append (reader : Reader) (first second : List Char) :
    reader.passAll (first ++ second) = (reader.passAll first).passAll second := by
  simp only [passAll, Mark.pastAll_append]

theorem run_held (reader : Reader) (text rest : List Char) :
    reader.run text.length (text ++ rest) = (reader.passAll text).run 0 rest := by
  induction text generalizing reader with
  | nil => rfl
  | cons c text inductionHypothesis =>
      rw [List.length_cons, List.cons_append, run, inductionHypothesis, passAll_cons]

theorem run_comment (reader : Reader) {text : List Char} (inLine : '\n' ∉ text)
    (rest : List Char) :
    { reader with comment := true }.run 0 (text ++ '\n' :: rest) =
      { reader.passAll (text ++ ['\n']) with comment := false }.run 0 rest := by
  induction text generalizing reader with
  | nil => rfl
  | cons c text inductionHypothesis =>
      have other : c ≠ '\n' := fun same => inLine (same ▸ List.mem_cons_self)
      have inRest : '\n' ∉ text := fun listed => inLine (List.mem_cons_of_mem c listed)
      rw [List.cons_append, run, if_pos rfl, decide_eq_true other]
      exact inductionHypothesis (reader.pass c) inRest

theorem run_gap {reader : Reader} (outside : reader.comment = false) (gap : Gap)
    (rest : List Char) :
    reader.run 0 (gap.chars ++ rest) = (reader.passAll gap.chars).run 0 rest := by
  have blank {c : Char} (isBlank : isLayout c = true) :
      reader.run 0 (c :: rest) = (reader.pass c).run 0 rest := by
    rw [run, outside, if_neg Bool.false_ne_true, if_pos isBlank]
  cases gap with
  | space => exact blank rfl
  | tab => exact blank rfl
  | formFeed => exact blank rfl
  | carriageReturn => exact blank rfl
  | newline => exact blank rfl
  | comment text inLine =>
      have opened : isLayout '#' = false := rfl
      rw [Gap.chars, List.cons_append, List.append_assoc, List.cons_append, List.nil_append, run,
        outside, if_neg Bool.false_ne_true, opened, if_neg Bool.false_ne_true, if_pos rfl,
        run_comment (reader.pass '#') inLine rest, passAll_cons]
      rw [← outside]
      rfl

theorem run_gaps {reader : Reader} (outside : reader.comment = false) (gaps : List Gap)
    (rest : List Char) :
    reader.run 0 (Gap.run gaps ++ rest) = (reader.passAll (Gap.run gaps)).run 0 rest := by
  induction gaps generalizing reader with
  | nil => rfl
  | cons gap gaps inductionHypothesis =>
      have passed : (reader.passAll gap.chars).comment = false := outside
      rw [Gap.run, List.flatMap_cons, List.append_assoc, run_gap outside, passAll_append]
      exact inductionHypothesis passed

end Reader

theorem isLetter_of_isLayout {c : Char} (blank : isLayout c = true) : isLetter c = false := by
  simp only [isLayout, Bool.or_eq_true, beq_iff_eq] at blank
  rcases blank with (((rfl | rfl) | rfl) | rfl) | formFeed
  · rfl
  · rfl
  · rfl
  · rfl
  · rw [← Char.ofNat_toNat c, formFeed]
    rfl

/-- The first character of a token is neither layout nor the start of a comment. -/
theorem Token.Valid.starts {token : Token} (valid : token.Valid) :
    ∃ first others, token.chars = first :: others ∧ isLayout first = false ∧ first ≠ '#' := by
  cases token with
  | word letters =>
      cases letters with
      | nil => cases valid
      | cons first others =>
          have letter : isLetter first = true := (Bool.and_eq_true_iff.mp valid).1
          refine ⟨first, others, rfl, ?_, ?_⟩
          · rw [← Bool.not_eq_true]
            intro blank
            rw [isLetter_of_isLayout blank] at letter
            cases letter
          · rintro rfl
            cases letter
  | sign mark =>
      have listed : mark ∈ signs := List.contains_iff_mem.mp valid
      refine ⟨mark, [], rfl, ?_⟩
      simp only [signs, List.mem_cons, List.not_mem_nil, or_false] at listed
      rcases listed with rfl | rfl | rfl | rfl | rfl | rfl <;> exact ⟨rfl, by decide⟩

/-- A lexeme that is found and can be taken is taken as a whole. -/
theorem Reader.run_lexeme {reader : Reader} {c : Char} {others rest : List Char}
    {advance : Advance} (outside : reader.comment = false) (notBlank : isLayout c = false)
    (notComment : c ≠ '#')
    (found : reader.pending.lexeme? (c :: others ++ rest) = some (c :: others))
    (taken : reader.pending.advance? (c :: others) = some advance) :
    reader.run 0 (c :: others ++ rest) =
      ((reader.take (c :: others) advance).passAll (c :: others)).run 0 rest := by
  rw [List.cons_append] at found ⊢
  rw [run, outside, if_neg Bool.false_ne_true, notBlank, if_neg Bool.false_ne_true,
    if_neg notComment]
  simp only [found, taken]
  rw [List.length_cons, Nat.add_sub_cancel, run_held, passAll_cons]

theorem Reader.run_token {reader : Reader} {token : Token} {rest : List Char} {advance : Advance}
    (outside : reader.comment = false) (valid : token.Valid)
    (found : reader.pending.lexeme? (token.chars ++ rest) = some token.chars)
    (taken : reader.pending.advance? token.chars = some advance) :
    reader.run 0 (token.chars ++ rest) =
      ((reader.take token.chars advance).passAll token.chars).run 0 rest := by
  obtain ⟨first, others, shape, notBlank, notComment⟩ := valid.starts
  rw [shape] at found taken ⊢
  exact run_lexeme outside notBlank notComment found taken

/-- What has been read of a program. -/
structure Contents where
  anonymous : List Statement
  units : List CodeUnit

namespace Contents

/-- Add a statement to the current unit. -/
def add (contents : Contents) (statement : Statement) : Contents :=
  match contents.units with
  | [] => { contents with anonymous := contents.anonymous ++ [statement] }
  | unit :: others =>
      { contents with
        units := { unit with statements := unit.statements ++ [statement] } :: others }

/-- Begin a unit. -/
def begin (contents : Contents) (name : List Char) : Contents :=
  { contents with units := ⟨String.ofList name, []⟩ :: contents.units }

/-- What is read once a statement or header that reaches over a span is complete. -/
def complete (contents : Contents) (loc : Span) : Advance → Contents
  | .more _ => contents
  | .statement action => contents.add { action, loc }
  | .unit name => contents.begin name

end Contents

def Reader.contents (reader : Reader) : Contents := ⟨reader.anonymous, reader.units⟩

namespace Pending

/-- A token is found where it is expected, as long as nothing goes on with its word. -/
def Finds (pending : Pending) (token : Token) : Prop :=
  ∀ rest, (token.isWord = true → EndsWord rest) →
    pending.lexeme? (token.chars ++ rest) = some token.chars

/-- Tokens lead from what is expected to a whole statement or header. -/
inductive Leads : Pending → List Token → Advance → Prop where
  | last {pending : Pending} {token : Token} {advance : Advance} (valid : token.Valid)
      (finds : pending.Finds token) (taken : pending.advance? token.chars = some advance)
      (whole : ∀ next, advance ≠ .more next) : Leads pending [token] advance
  | more {pending next : Pending} {token : Token} {others : List Token} {advance : Advance}
      (valid : token.Valid) (finds : pending.Finds token)
      (taken : pending.advance? token.chars = some (.more next))
      (leads : Leads next others advance) : Leads pending (token :: others) advance

theorem Leads.valid {pending : Pending} {tokens : List Token} {advance : Advance}
    (leads : pending.Leads tokens advance) : ∀ token ∈ tokens, token.Valid := by
  induction leads with
  | last valid => exact List.forall_mem_singleton.mpr valid
  | more valid _ _ _ inductionHypothesis =>
      exact List.forall_mem_cons.mpr ⟨valid, inductionHypothesis⟩

/-- A statement is not over before it is complete. -/
theorem advance?_ne_start {pending next : Pending} {lexeme : List Char}
    (taken : pending.advance? lexeme = some (.more next)) : next ≠ .start := by
  rintro rfl
  cases pending with
  | start =>
      simp only [advance?] at taken
      split at taken
      · cases taken
      · split at taken
        · cases taken
        · obtain ⟨keyword, -, begun⟩ := Option.map_eq_some_iff.mp taken
          cases keyword <;> cases begun
  | _ =>
      simp only [advance?] at taken
      repeat' split at taken
      all_goals cases taken

end Pending

namespace Reader

theorem addStatement_eq (reader : Reader) (statement : Statement) :
    reader.addStatement statement =
      { reader with
        anonymous := (reader.contents.add statement).anonymous
        units := (reader.contents.add statement).units } := by
  simp only [addStatement, contents, Contents.add]
  split <;> simp_all

/-- Where the statement starts that a token at the current place belongs to. -/
def start (reader : Reader) : Mark :=
  match reader.pending with
  | .start => reader.mark
  | _ => reader.started

theorem take_whole (reader : Reader) (lexeme : List Char) {advance : Advance}
    (whole : ∀ next, advance ≠ .more next) :
    let loc := Span.between reader.file reader.start (reader.mark.pastAll lexeme)
    reader.take lexeme advance =
      { reader with
        started := reader.start
        latest := reader.mark
        pending := .start
        anonymous := (reader.contents.complete loc advance).anonymous
        units := (reader.contents.complete loc advance).units } := by
  cases advance with
  | more next => exact absurd rfl (whole next)
  | statement action => exact addStatement_eq _ _
  | unit name => rfl

/-- The reader after a token with the layout before it. -/
def takeSpaced (reader : Reader) (spaced : Spaced) (advance : Advance) : Reader :=
  ((reader.passAll (Gap.run spaced.gaps)).take spaced.token.chars advance).passAll
    spaced.token.chars

theorem run_spaced {reader : Reader} {spaced : Spaced} {rest : List Char} {advance : Advance}
    (outside : reader.comment = false) (valid : spaced.token.Valid)
    (finds : reader.pending.Finds spaced.token)
    (ends : spaced.token.isWord = true → EndsWord rest)
    (taken : reader.pending.advance? spaced.token.chars = some advance) :
    reader.run 0 (spaced.chars ++ rest) = (reader.takeSpaced spaced advance).run 0 rest := by
  rw [Spaced.chars, List.append_assoc, run_gaps outside]
  exact run_token outside valid (finds rest ends) taken

/-- Where the statement starts that tokens belong to. -/
def startOf (reader : Reader) (tokens : List Spaced) : Mark :=
  (reader.passAll (tokens.head?.elim [] fun first => Gap.run first.gaps)).start

/-- A reader has read tokens that make up a whole statement or header. -/
structure Completes (before : Reader) (tokens : List Spaced) (advance : Advance)
    (after : Reader) : Prop where
  pending : after.pending = .start
  outside : after.comment = false
  file : after.file = before.file
  mark : after.mark = before.mark.pastAll (Spaced.run tokens)
  contents : after.contents = before.contents.complete
    (Span.between before.file (before.startOf tokens) (before.mark.pastAll (Spaced.run tokens)))
    advance

theorem mark_takeSpaced (reader : Reader) (spaced : Spaced) (next : Pending) :
    (reader.takeSpaced spaced (.more next)).mark = reader.mark.pastAll spaced.chars := by
  rw [Spaced.chars, Mark.pastAll_append]
  rfl

/-- A statement goes on where it started. -/
theorem startOf_takeSpaced (reader : Reader) (spaced : Spaced) {next : Pending}
    (goesOn : next ≠ .start) (others : List Spaced) :
    (reader.takeSpaced spaced (.more next)).startOf others = reader.startOf (spaced :: others) := by
  have goes (later : Reader) (pending : later.pending = next) : later.start = later.started := by
    rw [start, pending]
    cases next with
    | start => exact absurd rfl goesOn
    | _ => rfl
  exact goes _ rfl

theorem completes_takeSpaced (reader : Reader) (spaced : Spaced) {advance : Advance}
    (outside : reader.comment = false) (whole : ∀ next, advance ≠ .more next) :
    reader.Completes [spaced] advance (reader.takeSpaced spaced advance) := by
  have marked : (reader.mark.pastAll (Gap.run spaced.gaps)).pastAll spaced.token.chars =
      reader.mark.pastAll (Spaced.run [spaced]) := by
    rw [Spaced.run_cons, Spaced.run_nil, List.append_nil, Spaced.chars, Mark.pastAll_append]
  rw [takeSpaced, take_whole _ _ whole]
  refine ⟨rfl, outside, rfl, marked, ?_⟩
  rw [← marked]
  rfl

/-- Tokens that lead to a statement or header are read as such. -/
theorem run_leads {reader : Reader} {tokens : List Spaced} {advance : Advance}
    {rest : List Char} (outside : reader.comment = false)
    (leads : reader.pending.Leads (tokens.map Spaced.token) advance)
    (ended : Spaced.Ended tokens rest) :
    ∃ after, reader.run 0 (Spaced.run tokens ++ rest) = after.run 0 rest ∧
      reader.Completes tokens advance after := by
  induction tokens generalizing reader with
  | nil => cases leads
  | cons spaced others inductionHypothesis =>
      rw [Spaced.run_cons, List.append_assoc]
      generalize shape : others.map Spaced.token = shown at leads
      rw [List.map_cons, shape] at leads
      cases leads with
      | last valid finds taken whole =>
          obtain rfl : others = [] := List.map_eq_nil_iff.mp shape
          exact ⟨_, run_spaced outside valid finds ended.1 taken,
            completes_takeSpaced reader spaced outside whole⟩
      | @more _ next _ _ _ valid finds taken leads =>
          have goesOn := Pending.advance?_ne_start taken
          obtain ⟨after, runs, completes⟩ :=
            @inductionHypothesis (reader.takeSpaced spaced (.more next)) outside
              (shape ▸ leads) ended.2
          refine ⟨after, (run_spaced outside valid finds ended.1 taken).trans runs,
            completes.pending, completes.outside, completes.file, ?_, ?_⟩
          · rw [completes.mark, mark_takeSpaced, Spaced.run_cons, Mark.pastAll_append]
          · rw [completes.contents, startOf_takeSpaced reader spaced goesOn others,
              mark_takeSpaced, Spaced.run_cons, Mark.pastAll_append]
            rfl

end Reader

theorem word?_append {letters rest : List Char} (identifier : isIdentifier letters = true)
    (ends : EndsWord rest) : word? (letters ++ rest) = some letters := by
  cases letters with
  | nil => cases identifier
  | cons first others =>
      obtain ⟨letter, wordChars⟩ := Bool.and_eq_true_iff.mp identifier
      have stops : rest.takeWhile isWordChar = [] := by
        cases rest with
        | nil => rfl
        | cons c rest => exact List.takeWhile_cons_of_neg (by simp [ends c rfl])
      rw [List.cons_append, word?, if_pos letter,
        List.takeWhile_append_of_pos (List.all_eq_true.mp wordChars), stops, List.append_nil]

theorem Keyword.valid (keyword : Keyword) : (Token.keyword keyword).Valid := by
  cases keyword <;> rfl

theorem Keyword.atStart?_append (keyword : Keyword) (rest : List Char) :
    atStart? (keyword.text ++ rest) = some keyword := by
  cases keyword <;> rfl

namespace Pending

section

variable {pending next : Pending} {letters : List Char} {others : List Token} {advance : Advance}

/-- Where a name is expected, an identifier is taken whole. -/
theorem Leads.word (expects : pending.lexeme? = word?) (identifier : isIdentifier letters = true)
    (taken : pending.advance? letters = some (.more next)) (leads : next.Leads others advance) :
    pending.Leads (.word letters :: others) advance := by
  have valid : (Token.word letters).Valid := identifier
  apply Leads.more valid _ taken leads
  intro rest ends
  rw [expects]
  exact word?_append identifier (ends rfl)

theorem Leads.sign {mark : Char} (expects : pending.lexeme? = sign?)
    (sign : signs.contains mark = true) (taken : pending.advance? [mark] = some (.more next))
    (leads : next.Leads others advance) : pending.Leads (.sign mark :: others) advance := by
  have valid : (Token.sign mark).Valid := sign
  apply Leads.more valid _ taken leads
  intro rest _
  rw [expects]
  exact if_pos sign

theorem leads_sign {mark : Char} (expects : pending.lexeme? = sign?)
    (sign : signs.contains mark = true) (taken : pending.advance? [mark] = some advance)
    (whole : ∀ next, advance ≠ .more next) : pending.Leads [.sign mark] advance := by
  have valid : (Token.sign mark).Valid := sign
  apply Leads.last valid _ taken whole
  intro rest _
  rw [expects]
  exact if_pos sign

theorem leads_semicolon (action : Action) :
    (semicolon action).Leads [.sign ';'] (.statement action) :=
  leads_sign rfl rfl rfl (by intro next same; cases same)

/-- A keyword is found at the start of a statement, whatever follows it. -/
theorem Leads.keyword (keyword : Keyword) (leads : (begin keyword).Leads others advance) :
    start.Leads (.keyword keyword :: others) advance := by
  apply Leads.more keyword.valid _ _ leads
  · intro rest _
    have found := keyword.atStart?_append rest
    simp only [Token.keyword, Token.chars, lexeme?, found]
  · cases keyword <;> rfl

/-- Flags are set one after another. -/
theorem Leads.flags {binder : Binder} (flags : List Modifier)
    (leads : (binderName
      { binder with
        mutable := binder.mutable || flags.contains .mutable
        copy := binder.copy || flags.contains .copy }).Leads others advance) :
    (binderName binder).Leads (flags.map Modifier.token ++ others) advance := by
  induction flags generalizing binder with
  | nil => simpa using leads
  | cons flag flags inductionHypothesis =>
      cases flag with
      | mutable =>
          apply Leads.word rfl rfl rfl
          apply inductionHypothesis
          simpa using leads
      | copy =>
          apply Leads.word rfl rfl rfl
          apply inductionHypothesis
          simpa using leads

end

end Pending

theorem isIdentifier_of_name {action : Action} {letters : List Char} (nameable : action.Nameable)
    (named : Pending.nameOf letters ∈ action.names) : isIdentifier letters = true := by
  have identifier := nameable.1 _ named
  rwa [Pending.nameOf, Json.isIdentifier, String.toList_ofList] at identifier

/-- A name that is not a given word is not written as it. -/
theorem ne_toList_of_not_isWord {letters : List Char} {word : String}
    (other : (!(Pending.nameOf letters).isWord word) = true) : letters ≠ word.toList := by
  rintro rfl
  rw [Pending.nameOf, Json.isWord, String.ofList_toList, beq_self_eq_true] at other
  cases other

/-- A header leads to the unit of its name. -/
theorem UnitText.leads (text : UnitText) (identifier : isIdentifier text.name = true) :
    Pending.start.Leads (text.header.map Spaced.token) (.unit text.name) := by
  apply Pending.Leads.keyword .unit
  apply Pending.Leads.word rfl identifier rfl
  exact Pending.leads_sign rfl rfl rfl (by intro next same; cases same)

namespace Pending

/-- A brace stands for a whole statement. -/
theorem leads_brace {mark : Char} {action : Action} (sign : signs.contains mark = true)
    (found : ∀ rest, Keyword.atStart? (mark :: rest) = none)
    (taken : start.advance? [mark] = some (.statement action)) :
    start.Leads [.sign mark] (.statement action) := by
  have valid : (Token.sign mark).Valid := sign
  apply Leads.last valid _ taken (by intro next same; cases same)
  intro rest _
  simp only [Token.chars, List.singleton_append, lexeme?, found rest]
  exact if_pos sign

/-- The name of a bind, which is no flag. -/
theorem Leads.place {binder : Binder} {place : List Char} {others : List Token}
    {advance : Advance} (identifier : isIdentifier place = true)
    (notMutable : place ≠ mutableWord) (notCopy : place ≠ copyWord)
    (binds : binder.keyword ≠ .declare)
    (leads : (binderEnd binder (nameOf place)).Leads others advance) :
    (binderName binder).Leads (.word place :: others) advance := by
  refine Leads.word rfl identifier ?_ leads
  simp only [advance?, if_neg notMutable, if_neg notCopy, if_neg binds]

/-- After the name of a bind its source may follow. -/
theorem leads_source {binder : Binder} {place : Name} {source : Option (List Char)}
    (identifier : ∀ letters ∈ source, isIdentifier letters = true) :
    (binderEnd binder place).Leads (sourceTokens source ++ [.sign ';'])
      (.statement (binder.bind place (source.map nameOf))) := by
  cases source with
  | none => exact leads_sign rfl rfl rfl (by intro next same; cases same)
  | some letters =>
      apply Leads.sign rfl rfl rfl
      apply Leads.more Keyword.move.valid _ rfl
      · apply Leads.word rfl (identifier letters rfl) rfl
        exact leads_semicolon _
      · intro rest _
        rfl

/-- The referent of a borrow, with the mark of an exclusive one before it. -/
theorem leads_referent {kind : BorrowKind} {dest : Name} {referent : List Char}
    (identifier : isIdentifier referent = true)
    (unflagged : kind = .shared → referent ≠ mutableWord) :
    (borrowReferent dest).Leads (kindTokens kind ++ [.word referent, .sign ';'])
      (.statement (.borrow kind dest (nameOf referent))) := by
  cases kind with
  | shared =>
      apply Leads.word rfl identifier
      · exact if_neg (unflagged rfl)
      · exact leads_semicolon _
  | exclusive =>
      apply Leads.word rfl rfl rfl
      apply Leads.word rfl identifier rfl
      exact leads_semicolon _

end Pending

open Pending in
/-- A phrase leads to the statement that it is written for. -/
theorem Phrase.leads {action : Action} {tokens : List Token} (phrase : Phrase action tokens)
    (nameable : action.Nameable) : start.Leads tokens (.statement action) := by
  have named {letters : List Char} (listed : nameOf letters ∈ action.names) :=
    isIdentifier_of_name nameable listed
  cases phrase with
  | bind shadow flags place source =>
      have unflagged := Bool.and_eq_true_iff.mp nameable.2
      have notMutable : place ≠ mutableWord := ne_toList_of_not_isWord unflagged.1
      have notCopy : place ≠ copyWord := ne_toList_of_not_isWord unflagged.2
      have placed : isIdentifier place = true :=
        named (by simp [Action.names, Action.target?])
      have sourced : ∀ letters ∈ source, isIdentifier letters = true := by
        rintro letters ⟨⟩
        exact named (by simp [Action.names, Action.operand?])
      cases shadow with
      | false =>
          apply Leads.keyword .bind
          apply Leads.flags
          apply Leads.place placed notMutable notCopy (by intro same; cases same)
          exact leads_source sourced
      | true =>
          apply Leads.keyword .shadow
          apply Leads.flags
          apply Leads.place placed notMutable notCopy (by intro same; cases same)
          exact leads_source sourced
  | declare flags place =>
      have unflagged := Bool.and_eq_true_iff.mp nameable.2
      have notMutable : place ≠ mutableWord := ne_toList_of_not_isWord unflagged.1
      have notCopy : place ≠ copyWord := ne_toList_of_not_isWord unflagged.2
      apply Leads.keyword .declare
      apply Leads.flags
      apply Leads.word rfl (named (by simp [Action.names, Action.target?]))
      · simp only [advance?, if_neg notMutable, if_neg notCopy]
        rfl
      · exact leads_semicolon _
  | move dest src =>
      apply Leads.keyword .move
      apply Leads.word rfl (named (by simp [Action.names, Action.target?])) rfl
      apply Leads.sign rfl rfl rfl
      apply Leads.word rfl (named (by simp [Action.names, Action.operand?])) rfl
      exact leads_semicolon _
  | borrow kind dest referent =>
      apply Leads.keyword .borrow
      apply Leads.word rfl (named (by simp [Action.names, Action.target?])) rfl
      apply Leads.sign rfl rfl rfl
      apply Leads.sign rfl rfl rfl
      apply leads_referent (named (by simp [Action.names, Action.operand?]))
      rintro rfl
      exact ne_toList_of_not_isWord nameable.2
  | write place =>
      apply Leads.keyword .write
      apply Leads.word rfl (named (by simp [Action.names, Action.operand?])) rfl
      exact leads_semicolon _
  | read place =>
      apply Leads.keyword .read
      apply Leads.word rfl (named (by simp [Action.names, Action.operand?])) rfl
      exact leads_semicolon _
  | consume place =>
      apply Leads.keyword .consume
      apply Leads.word rfl (named (by simp [Action.names, Action.operand?])) rfl
      exact leads_semicolon _
  | openBrace => exact leads_brace rfl (fun _ => rfl) rfl
  | enter => exact Leads.keyword .enter (leads_semicolon _)
  | closeBrace => exact leads_brace rfl (fun _ => rfl) rfl
  | exit => exact Leads.keyword .exit (leads_semicolon _)

namespace Contents

theorem foldl_add_anonymous (anonymous statements : List Statement) :
    statements.foldl add ⟨anonymous, []⟩ = ⟨anonymous ++ statements, []⟩ := by
  induction statements generalizing anonymous with
  | nil => rw [List.foldl_nil, List.append_nil]
  | cons statement statements inductionHypothesis =>
      rw [List.foldl_cons, List.append_cons]
      exact inductionHypothesis _

theorem foldl_add_unit (anonymous statements : List Statement) (unit : CodeUnit)
    (others : List CodeUnit) :
    statements.foldl add ⟨anonymous, unit :: others⟩ =
      ⟨anonymous, { unit with statements := unit.statements ++ statements } :: others⟩ := by
  induction statements generalizing unit with
  | nil => rw [List.foldl_nil, List.append_nil]
  | cons statement statements inductionHypothesis =>
      rw [List.foldl_cons, List.append_cons]
      exact inductionHypothesis _

end Contents

namespace Reader

/-- A reader stands after a text, between statements. -/
structure Stands (reader : Reader) (file : Option String) (before : List Char)
    (contents : Contents) : Prop where
  pending : reader.pending = .start
  outside : reader.comment = false
  file : reader.file = file
  mark : reader.mark = markAfter before
  contents : reader.contents = contents

namespace Stands

variable {reader : Reader} {file : Option String} {before rest : List Char} {contents : Contents}

/-- A whole statement or header is read, from its first token to its last. -/
theorem run_whole (stands : reader.Stands file before contents) {tokens : List Spaced}
    {advance : Advance} (leads : Pending.start.Leads (tokens.map Spaced.token) advance)
    (ended : Spaced.Ended tokens rest) :
    ∃ after : Reader, reader.run 0 (Spaced.run tokens ++ rest) = after.run 0 rest ∧
      after.Stands file (before ++ Spaced.run tokens)
        (contents.complete
          (Span.between file
            (markAfter (before ++ tokens.head?.elim [] fun first => Gap.run first.gaps))
            (markAfter (before ++ Spaced.run tokens))) advance) := by
  obtain ⟨after, runs, completes⟩ := run_leads stands.outside (stands.pending ▸ leads) ended
  have marked (text : List Char) : reader.mark.pastAll text = markAfter (before ++ text) := by
    rw [stands.mark, ← pastAll_first, ← pastAll_first, Mark.pastAll_append]
  have started : reader.startOf tokens =
      markAfter (before ++ tokens.head?.elim [] fun first => Gap.run first.gaps) := by
    rw [← marked, startOf, start]
    simp only [passAll, stands.pending]
  refine ⟨after, runs, completes.pending, completes.outside, completes.file.trans stands.file,
    completes.mark.trans (marked _), ?_⟩
  rw [completes.contents, stands.contents, stands.file, started, marked]

theorem run_statements (stands : reader.Stands file before contents) {texts : List StatementText}
    (nameable : ∀ text ∈ texts, text.action.Nameable)
    (ended : Spaced.Ended (texts.flatMap StatementText.tokens) rest) :
    ∃ after : Reader, reader.run 0 (StatementText.run texts ++ rest) = after.run 0 rest ∧
      after.Stands file (before ++ StatementText.run texts)
        ((StatementText.statements file before texts).foldl Contents.add contents) := by
  induction texts generalizing reader before contents with
  | nil =>
      rw [StatementText.run_nil, List.append_nil]
      exact ⟨reader, rfl, stands⟩
  | cons text texts inductionHypothesis =>
      rw [List.flatMap_cons, Spaced.ended_append, StatementText.run_tokens] at ended
      have leads := text.phrase.leads (nameable text List.mem_cons_self)
      obtain ⟨middle, first, between⟩ := stands.run_whole leads ended.1
      obtain ⟨after, others, stands⟩ := inductionHypothesis between
        (fun other listed => nameable other (List.mem_cons_of_mem text listed)) ended.2
      rw [StatementText.run_cons, List.append_assoc, ← List.append_assoc before]
      exact ⟨after, first.trans others, stands⟩

theorem run_units {anonymous : List Statement} {units : List CodeUnit}
    (stands : reader.Stands file before ⟨anonymous, units⟩) {texts : List UnitText}
    (named : ∀ text ∈ texts, isIdentifier text.name = true)
    (nameable : ∀ text ∈ texts, ∀ statement ∈ text.body, statement.action.Nameable)
    (ended : Spaced.Ended (texts.flatMap UnitText.tokens) rest) :
    ∃ after : Reader, reader.run 0 (UnitText.run texts ++ rest) = after.run 0 rest ∧
      after.Stands file (before ++ UnitText.run texts)
        ⟨anonymous, (UnitText.units file before texts).reverse ++ units⟩ := by
  induction texts generalizing reader before units with
  | nil =>
      rw [UnitText.run_nil, List.append_nil]
      exact ⟨reader, rfl, stands⟩
  | cons text texts inductionHypothesis =>
      rw [List.flatMap_cons, UnitText.tokens, List.append_assoc, Spaced.ended_append,
        Spaced.ended_append, Spaced.run_append, StatementText.run_tokens, UnitText.run_tokens,
        List.append_assoc] at ended
      have leads := text.leads (named text List.mem_cons_self)
      obtain ⟨opened, header, inside⟩ := stands.run_whole leads ended.1
      obtain ⟨middle, body, between⟩ := inside.run_statements
        (nameable text List.mem_cons_self) ended.2.1
      have whole : (StatementText.statements file (before ++ Spaced.run text.header)
          text.body).foldl Contents.add (Contents.begin ⟨anonymous, units⟩ text.name) =
            ⟨anonymous, text.unit file before :: units⟩ :=
        Contents.foldl_add_unit anonymous _ _ units
      rw [Contents.complete, whole, List.append_assoc] at between
      obtain ⟨after, others, stands⟩ := inductionHypothesis between
        (fun other listed => named other (List.mem_cons_of_mem text listed))
        (fun other listed => nameable other (List.mem_cons_of_mem text listed)) ended.2.2
      refine ⟨after, ?_, ?_⟩
      · rw [UnitText.run_cons, UnitText.chars, List.append_assoc, List.append_assoc]
        exact (header.trans body).trans others
      · rw [UnitText.run_cons, UnitText.units, List.reverse_cons, List.append_assoc,
          ← List.append_assoc before]
        exact stands

end Stands

end Reader

namespace Rendering

variable {rendering : Rendering}

theorem chars_eq (rendering : Rendering) :
    rendering.chars = StatementText.run rendering.body ++
      (UnitText.run rendering.units ++ Gap.run rendering.tail) := by
  rw [chars, tokens, Spaced.run_append, StatementText.run_tokens, UnitText.run_tokens,
    List.append_assoc]

theorem Nameable.valid (nameable : rendering.Nameable) :
    ∀ spaced ∈ rendering.tokens, spaced.token.Valid := by
  have written : ∀ text ∈ rendering.statements, ∀ spaced ∈ text.tokens, spaced.token.Valid := by
    intro text listed spaced inside
    have leads := text.phrase.leads (nameable.1 text listed)
    exact leads.valid spaced.token (List.mem_map_of_mem inside)
  intro spaced listed
  rw [tokens, List.mem_append, List.mem_flatMap, List.mem_flatMap] at listed
  obtain ⟨text, inBody, inside⟩ | ⟨unit, inUnits, inside⟩ := listed
  · exact written text (List.mem_append_left _ inBody) spaced inside
  · rw [UnitText.tokens, List.mem_append, List.mem_flatMap] at inside
    obtain inHeader | ⟨text, inBody, inside⟩ := inside
    · have leads := unit.leads (nameable.2 unit inUnits)
      exact leads.valid spaced.token (List.mem_map_of_mem inHeader)
    · have listed : text ∈ rendering.units.flatMap UnitText.body :=
        List.mem_flatMap.mpr ⟨unit, inUnits, inBody⟩
      exact written text (List.mem_append_right _ listed) spaced inside

theorem ended (separated : rendering.Separated) (nameable : rendering.Nameable) :
    Spaced.Ended rendering.tokens (Gap.run rendering.tail) := by
  apply Spaced.ended_of_isChain separated nameable.valid
  by_cases bare : rendering.tail = []
  · rw [bare]
    exact endsWord_nil
  · rw [← List.append_nil (Gap.run rendering.tail)]
    exact Gap.endsWord_run bare []

/-- What is read of a rendering. -/
def contents (rendering : Rendering) (file : Option String) : Contents :=
  ⟨StatementText.statements file [] rendering.body,
    (UnitText.units file (StatementText.run rendering.body) rendering.units).reverse⟩

/-- What has been read at the end of a text is the program that was written. -/
theorem program_eq {reader : Reader} {file : Option String} (defaultName : String)
    (read : reader.contents = rendering.contents file) :
    reader.program defaultName = rendering.program file defaultName := by
  have anonymous : reader.anonymous = _ := congrArg Contents.anonymous read
  have units : reader.units = _ := congrArg Contents.units read
  rw [Reader.program, anonymous, units, contents, List.reverse_reverse]
  cases body : rendering.body with
  | nil =>
      cases others : rendering.units <;>
        simp [program, body, others, StatementText.statements, UnitText.units]
  | cons text texts => simp [program, body, StatementText.statements]

/-- The whole text is read, and nothing is left open at its end. -/
theorem run_chars (nameable : rendering.Nameable) (separated : rendering.Separated)
    (file : Option String) :
    ∃ last, Reader.run { file } 0 rendering.chars = .ok last ∧ last.pending = .start ∧
      last.contents = rendering.contents file := by
  have fresh : Reader.Stands { file } file [] ⟨[], []⟩ := ⟨rfl, rfl, rfl, rfl, rfl⟩
  have ended := rendering.ended separated nameable
  rw [tokens, Spaced.ended_append, UnitText.run_tokens] at ended
  obtain ⟨middle, body, between⟩ := fresh.run_statements
    (fun text listed => nameable.1 text (List.mem_append_left _ listed)) ended.1
  rw [Contents.foldl_add_anonymous, List.nil_append, List.nil_append] at between
  obtain ⟨last, units, stands⟩ := between.run_units nameable.2
    (fun unit inUnits text inBody => nameable.1 text
      (List.mem_append_right _ (List.mem_flatMap.mpr ⟨unit, inUnits, inBody⟩))) ended.2
  rw [List.append_nil] at stands
  have tail := Reader.run_gaps stands.outside rendering.tail []
  rw [List.append_nil] at tail
  refine ⟨last.passAll (Gap.run rendering.tail), ?_, stands.pending, stands.contents⟩
  rw [rendering.chars_eq, body, units, tail]
  rfl

end Rendering

end LoanCheck.SourceText

namespace LoanCheck

open SourceText (Rendering)

/-- A program is read from every text that is written for it, whatever its layout: the same
units in the same order with the same statements, each of which reaches from its first token to
just after its last one. -/
theorem Program.readText_chars {rendering : Rendering} (nameable : rendering.Nameable)
    (separated : rendering.Separated) (file : Option String) (defaultName : String) :
    Program.readText file defaultName rendering.chars =
      .ok (rendering.program file defaultName) := by
  obtain ⟨last, runs, finished, contents⟩ := Rendering.run_chars nameable separated file
  have read : SourceText.read file rendering.chars = .ok last := by
    simp only [SourceText.read, runs, finished]
  rw [Program.readText, read]
  exact congrArg Except.ok (Rendering.program_eq defaultName contents)

open SourceText in
/-- Repeated flags, words of the language as names, a comment between two words, and statements
on several lines. -/
def scattered : Rendering where
  body := [{
    action := .bind (Pending.nameOf ['r', 'e', 'a', 'd']) (.bool true)
      (some (Pending.nameOf ['m', 'o', 'v', 'e'])) (.bool false) (.bool true)
    tokens := [⟨[.newline], .keyword .bind⟩, ⟨[.space], .word copyWord⟩, ⟨[.tab], .word mutableWord⟩,
      ⟨[.comment ['c', 'o', 'p', 'y'] (by decide)], .word copyWord⟩,
      ⟨[.carriageReturn, .space], .word ['r', 'e', 'a', 'd']⟩, ⟨[], .sign '='⟩,
      ⟨[], .keyword .move⟩, ⟨[.formFeed], .word ['m', 'o', 'v', 'e']⟩, ⟨[.newline], .sign ';'⟩]
    phrase := .bind false [.copy, .mutable, .copy] ['r', 'e', 'a', 'd']
      (some ['m', 'o', 'v', 'e']) }]
  units := [{
    name := ['m', 'u', 't']
    beforeKeyword := [.space]
    beforeName := [.space]
    beforeColon := []
    body := [
      ⟨.enter, [⟨[], .sign '{'⟩], .openBrace⟩,
      { action := .borrow .exclusive (Pending.nameOf ['c', 'o', 'p', 'y'])
          (Pending.nameOf ['m', 'u', 't'])
        tokens := [⟨[.newline, .tab], .keyword .borrow⟩, ⟨[.space], .word ['c', 'o', 'p', 'y']⟩,
          ⟨[], .sign '='⟩, ⟨[.space], .sign '&'⟩, ⟨[], .word mutableWord⟩,
          ⟨[.space], .word ['m', 'u', 't']⟩, ⟨[], .sign ';'⟩]
        phrase := .borrow .exclusive ['c', 'o', 'p', 'y'] ['m', 'u', 't'] },
      ⟨.exit, [⟨[], .keyword .exit⟩, ⟨[], .sign ';'⟩], .exit⟩] }]
  tail := [.comment [] (by decide)]

theorem scattered_read :
    scattered.Nameable ∧ scattered.Separated ∧
      Program.readText none "main" scattered.chars = .ok (scattered.program none "main") ∧
      ((scattered.program none "main").units.map fun unit => unit.statements.map Statement.loc) =
        [[Span.between none ⟨2, 1⟩ ⟨4, 2⟩],
          [Span.between none ⟨4, 12⟩ ⟨4, 13⟩, Span.between none ⟨5, 2⟩ ⟨5, 24⟩,
            Span.between none ⟨5, 24⟩ ⟨5, 29⟩]] := by
  have nameable : scattered.Nameable := by decide
  have separated : scattered.Separated := by decide
  exact ⟨nameable, separated, Program.readText_chars nameable separated none "main", rfl⟩

end LoanCheck
