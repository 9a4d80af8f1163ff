import LoanCheck.Proofs.Program.Reading

/-!
# Where a text stops being a program

A text that is no program is rejected at the first lexeme or character that cannot stand where it
stands.  What was read before it can be completed to a program, and no text that goes on with it
is one.  Both rest on how far reading depends on what comes next: only in whether that ends a
word.
-/

namespace LoanCheck.SourceText

open LoanCheck.Text (Mark)

/-- What follows ends a word if what stood there before did. -/
def EndsLike (rest other : List Char) : Prop := EndsWord rest → EndsWord other

theorem EndsLike.append {rest other : List Char} (alike : EndsLike rest other)
    (before : List Char) : EndsLike (before ++ rest) (before ++ other) := by
  cases before with
  | nil => exact alike
  | cons c before => exact fun ends => ends

theorem isLetter_of_not_isWordChar {c : Char} (other : isWordChar c = false) :
    isLetter c = false :=
  (Bool.or_eq_false_iff.mp other).1

theorem word?_eq_some {text word : List Char} (found : word? text = some word) :
    isIdentifier word = true ∧ ∃ rest, text = word ++ rest ∧ EndsWord rest := by
  cases text with
  | nil => cases found
  | cons c text =>
      rw [word?] at found
      split at found
      · next letter =>
          cases found
          refine ⟨?_, text.dropWhile isWordChar, ?_, ?_⟩
          · rw [isIdentifier, letter, Bool.true_and]
            exact List.all_takeWhile
          · rw [List.cons_append, List.takeWhile_append_dropWhile]
          · intro next isNext
            have stops := List.head?_dropWhile_not isWordChar text
            rw [Option.mem_def.mp isNext] at stops
            simpa using stops
      · cases found

theorem sign?_eq_some {text lexeme : List Char} (found : sign? text = some lexeme) :
    ∃ mark rest, lexeme = [mark] ∧ text = mark :: rest ∧ signs.contains mark = true := by
  cases text with
  | nil => cases found
  | cons c rest =>
      rw [sign?] at found
      split at found
      · next isSign =>
          cases found
          exact ⟨c, rest, rfl, rfl, isSign⟩
      · cases found

/-- Where a word ends, nothing that is made of its characters goes on. -/
theorem isPrefixOf_append_of_endsWord {letters : List Char}
    (wordChars : ∀ c ∈ letters, isWordChar c = true) {rest : List Char} (ends : EndsWord rest)
    (word : List Char) : letters.isPrefixOf (word ++ rest) = letters.isPrefixOf word := by
  induction letters generalizing word with
  | nil => simp
  | cons c letters inductionHypothesis =>
      cases word with
      | nil =>
          cases rest with
          | nil => rfl
          | cons next rest =>
              have differs : (c == next) = false := by
                rw [beq_eq_false_iff_ne]
                rintro rfl
                cases (wordChars c List.mem_cons_self).symm.trans (ends c rfl)
              simp [List.isPrefixOf, differs]
      | cons first word =>
          have others := inductionHypothesis
            (fun other inside => wordChars other (List.mem_cons_of_mem c inside)) word
          simp only [List.cons_append, List.isPrefixOf, others]

theorem isPrefixOf_cons_of_not_letter {letters : List Char}
    (identifier : isIdentifier letters = true) {c : Char} (other : isLetter c = false)
    (rest : List Char) : letters.isPrefixOf (c :: rest) = false := by
  cases letters with
  | nil => cases identifier
  | cons first letters =>
      have differs : (first == c) = false := by
        rw [beq_eq_false_iff_ne]
        rintro rfl
        rw [isIdentifier, other] at identifier
        cases identifier
      simp [List.isPrefixOf, differs]

theorem isLetter_of_sign {mark : Char} (sign : signs.contains mark = true) :
    isLetter mark = false :=
  isLetter_of_not_isWordChar (isWordChar_of_sign sign)

theorem isWordChar_of_isIdentifier {letters : List Char}
    (identifier : isIdentifier letters = true) : ∀ c ∈ letters, isWordChar c = true := by
  cases letters with
  | nil => cases identifier
  | cons first others =>
      obtain ⟨letter, wordChars⟩ := Bool.and_eq_true_iff.mp identifier
      refine List.forall_mem_cons.mpr ⟨?_, List.all_eq_true.mp wordChars⟩
      rw [isWordChar, letter, Bool.true_or]

namespace Keyword

theorem exists_append_of_atStart? {text : List Char} {keyword : Keyword}
    (found : atStart? text = some keyword) : ∃ rest, text = keyword.text ++ rest := by
  rw [atStart?, List.find?_eq_some_iff_append] at found
  obtain ⟨rest, same⟩ := List.isPrefixOf_iff_prefix.mp found.1
  exact ⟨rest, same.symm⟩

theorem atStart?_append_of_endsWord {rest : List Char} (ends : EndsWord rest)
    (word : List Char) : atStart? (word ++ rest) = atStart? word := by
  have same (keyword : Keyword) : keyword.text.isPrefixOf (word ++ rest) =
      keyword.text.isPrefixOf word :=
    isPrefixOf_append_of_endsWord (isWordChar_of_isIdentifier keyword.valid) ends word
  simp only [atStart?, same]

theorem atStart?_cons_of_not_letter {c : Char} (other : isLetter c = false) (rest : List Char) :
    atStart? (c :: rest) = none := by
  rw [atStart?, List.find?_eq_none]
  intro keyword _
  rw [isPrefixOf_cons_of_not_letter keyword.valid other]
  exact Bool.false_ne_true

end Keyword

namespace Pending

variable (pending : Pending)

/-- Besides where a statement starts and before a source, either words or signs are looked for. -/
theorem lexeme?_cases :
    pending = .start ∨ (∃ binder place, pending = .sourceMove binder place) ∨
      pending.lexeme? = word? ∨ pending.lexeme? = sign? := by
  cases pending with
  | start => exact .inl rfl
  | sourceMove binder place => exact .inr (.inl ⟨binder, place, rfl⟩)
  | unitColon | binderEnd | moveEquals | borrowEquals | borrowSign | semicolon =>
      exact .inr (.inr (.inr rfl))
  | _ => exact .inr (.inr (.inl rfl))

/-- At a word, what is found does not depend on what follows the word. -/
theorem lexeme?_append_of_endsWord {word rest : List Char} (identifier : isIdentifier word = true)
    (ends : EndsWord rest) : pending.lexeme? (word ++ rest) = pending.lexeme? word := by
  have sameSign : sign? (word ++ rest) = sign? word := by
    cases word with
    | nil => cases identifier
    | cons c word => rfl
  rcases pending.lexeme?_cases with rfl | ⟨binder, place, rfl⟩ | words | isSign
  · simp only [lexeme?, Keyword.atStart?_append_of_endsWord ends, sameSign]
  · have wordChars := isWordChar_of_isIdentifier Keyword.move.valid
    simp only [lexeme?, isPrefixOf_append_of_endsWord wordChars ends]
  · have bare := word?_append identifier endsWord_nil
    rw [List.append_nil] at bare
    rw [words, word?_append identifier ends, bare]
  · rw [isSign, sameSign]

/-- At a character that starts no word, what is found depends on that character only. -/
theorem lexeme?_cons_of_not_letter {c : Char} (other : isLetter c = false)
    (rest : List Char) : pending.lexeme? (c :: rest) = pending.lexeme? [c] := by
  rcases pending.lexeme?_cases with rfl | ⟨binder, place, rfl⟩ | words | isSign
  · simp only [lexeme?, Keyword.atStart?_cons_of_not_letter other]
    rfl
  · simp only [lexeme?, isPrefixOf_cons_of_not_letter Keyword.move.valid other]
  · simp only [words, word?, other, Bool.false_eq_true, if_false]
  · rw [isSign]
    rfl

/-- A lexeme is found in front of what follows it, and of everything else that ends a word if
what follows it does. -/
structure FindsBefore (lexeme rest : List Char) : Prop where
  starts : ∃ first others, lexeme = first :: others
  found : ∀ other, EndsLike rest other → pending.lexeme? (lexeme ++ other) = some lexeme

variable {pending}

theorem findsBefore_word {word rest : List Char} (words : pending.lexeme? = word?)
    (identifier : isIdentifier word = true) (ends : EndsWord rest) :
    pending.FindsBefore word rest := by
  refine ⟨?_, ?_⟩
  · cases word with
    | nil => cases identifier
    | cons first others => exact ⟨first, others, rfl⟩
  · intro other alike
    rw [words]
    exact word?_append identifier (alike ends)

theorem findsBefore_sign {mark : Char} (sign : signs.contains mark = true)
    (isSign : ∀ other, pending.lexeme? (mark :: other) = sign? (mark :: other))
    (rest : List Char) : pending.FindsBefore [mark] rest := by
  refine ⟨⟨mark, [], rfl⟩, ?_⟩
  intro other _
  rw [List.singleton_append, isSign]
  exact if_pos sign

theorem findsBefore_keyword (keyword : Keyword) (rest : List Char) :
    start.FindsBefore keyword.text rest := by
  refine ⟨?_, ?_⟩
  · cases keyword <;> exact ⟨_, _, rfl⟩
  · intro other _
    simp only [lexeme?, keyword.atStart?_append other]

/-- What is found stands at the start of the text. -/
theorem exists_findsBefore {text lexeme : List Char} (found : pending.lexeme? text = some lexeme) :
    ∃ rest, text = lexeme ++ rest ∧ pending.FindsBefore lexeme rest := by
  rcases pending.lexeme?_cases with rfl | ⟨binder, place, rfl⟩ | words | isSign
  · cases begun : Keyword.atStart? text with
    | some keyword =>
        simp only [lexeme?, begun, Option.some.injEq] at found
        subst found
        obtain ⟨rest, same⟩ := Keyword.exists_append_of_atStart? begun
        exact ⟨rest, same, findsBefore_keyword keyword rest⟩
    | none =>
        simp only [lexeme?, begun] at found
        obtain ⟨mark, rest, rfl, rfl, sign⟩ := sign?_eq_some found
        refine ⟨rest, rfl, findsBefore_sign sign ?_ rest⟩
        intro other
        simp only [lexeme?, Keyword.atStart?_cons_of_not_letter (isLetter_of_sign sign)]
  · simp only [lexeme?, Option.ite_none_right_eq_some, Option.some.injEq] at found
    obtain ⟨isPrefix, rfl⟩ := found
    obtain ⟨rest, same⟩ := List.isPrefixOf_iff_prefix.mp isPrefix
    exact ⟨rest, same.symm, ⟨_, _, rfl⟩, fun _ _ => rfl⟩
  · rw [words] at found
    obtain ⟨identifier, rest, same, ends⟩ := word?_eq_some found
    exact ⟨rest, same, findsBefore_word words identifier ends⟩
  · rw [isSign] at found
    obtain ⟨mark, rest, rfl, rfl, sign⟩ := sign?_eq_some found
    exact ⟨rest, rfl, findsBefore_sign sign (fun other => congrFun isSign _) rest⟩

variable (pending)

/-- What is expected admits nothing at the start of a text. -/
def Refuses (text : List Char) : Prop := (pending.lexeme? text).bind pending.advance? = none

theorem refuses_append_iff {word rest : List Char} (identifier : isIdentifier word = true)
    (ends : EndsWord rest) : pending.Refuses (word ++ rest) ↔ pending.Refuses word := by
  rw [Refuses, Refuses, pending.lexeme?_append_of_endsWord identifier ends]

theorem refuses_cons_iff {c : Char} (other : isLetter c = false) (rest : List Char) :
    pending.Refuses (c :: rest) ↔ pending.Refuses [c] := by
  rw [Refuses, Refuses, pending.lexeme?_cons_of_not_letter other]

end Pending

namespace Issue

/-- What an issue shows of the text; at the end there is nothing to show. -/
def culprit? : Issue → Option (List Char)
  | .lexeme text => some text
  | .character c => some [c]
  | .endOfInput => none

end Issue

theorem culprit?_issueAt_of_word {c : Char} {rest word : List Char}
    (isWord : word? (c :: rest) = some word) : (issueAt c rest).culprit? = some word := by
  simp only [issueAt, lexeme?, isWord, Option.some_or, Issue.culprit?]

theorem culprit?_issueAt_of_not_letter {c : Char} (other : isLetter c = false)
    (rest : List Char) : (issueAt c rest).culprit? = some [c] := by
  have noWord : word? (c :: rest) = none := by
    rw [word?, other, if_neg Bool.false_ne_true]
  cases isSign : sign? (c :: rest) with
  | none => simp only [issueAt, lexeme?, noWord, isSign, Option.none_or, Issue.culprit?]
  | some lexeme =>
      obtain ⟨mark, _, rfl, same, _⟩ := sign?_eq_some isSign
      obtain ⟨rfl, -⟩ := List.cons.inj same
      simp only [issueAt, lexeme?, noWord, isSign, Option.none_or, Issue.culprit?]

/-- What is shown of a text that is refused stands at its start, as far as a word there goes, and
is refused wherever it ends so. -/
theorem exists_culprit_of_refuses {pending : Pending} {c : Char} {rest : List Char}
    (refused : pending.Refuses (c :: rest)) :
    ∃ others after, (issueAt c rest).culprit? = some (c :: others) ∧ rest = others ++ after ∧
      (isIdentifier (c :: others) = true → EndsWord after) ∧
      ∀ other, (isIdentifier (c :: others) = true → EndsWord other) →
        pending.Refuses (c :: others ++ other) := by
  cases letter : isLetter c with
  | true =>
      have isWord : word? (c :: rest) = some (c :: rest.takeWhile isWordChar) := if_pos letter
      obtain ⟨identifier, after, same, ends⟩ := word?_eq_some isWord
      refine ⟨_, after, culprit?_issueAt_of_word isWord, (List.cons.inj same).2, fun _ => ends, ?_⟩
      intro other ended
      rw [same, pending.refuses_append_iff identifier ends] at refused
      rwa [pending.refuses_append_iff identifier (ended identifier)]
  | false =>
      have noWord : ¬isIdentifier [c] = true := by simp [isIdentifier, letter]
      refine ⟨[], rest, culprit?_issueAt_of_not_letter letter rest, rfl,
        fun identifier => absurd identifier noWord, ?_⟩
      intro other _
      rw [pending.refuses_cons_iff letter] at refused
      rwa [List.singleton_append, pending.refuses_cons_iff letter]

namespace Reader

/-- Reading a text leads from one reader to another, in front of what follows the text and of
everything else that ends a word if that does. -/
structure Reaches (reader : Reader) (before rest : List Char) (after : Reader) : Prop where
  mark : after.mark = reader.mark.pastAll before
  run : ∀ other, EndsLike rest other → reader.run 0 (before ++ other) = after.run 0 other

namespace Reaches

variable {reader middle after : Reader} {first second rest : List Char}

theorem refl (reader : Reader) (rest : List Char) : reader.Reaches [] rest reader :=
  ⟨rfl, fun _ _ => rfl⟩

theorem trans (left : reader.Reaches first (second ++ rest) middle)
    (right : middle.Reaches second rest after) : reader.Reaches (first ++ second) rest after := by
  refine ⟨?_, ?_⟩
  · rw [right.mark, left.mark, Mark.pastAll_append]
  · intro other alike
    rw [List.append_assoc, left.run _ (alike.append second), right.run other alike]

end Reaches

/-- The reader cannot take what stands at the start of the text. -/
structure Stuck (reader : Reader) (c : Char) (rest : List Char) : Prop where
  outside : reader.comment = false
  notLayout : isLayout c = false
  notComment : c ≠ '#'
  refused : reader.pending.Refuses (c :: rest)

theorem Stuck.run_eq {reader : Reader} {c : Char} {rest : List Char} (stuck : reader.Stuck c rest) :
    reader.run 0 (c :: rest) = .error ⟨issueAt c rest, reader.mark⟩ := by
  rw [run, stuck.outside, if_neg Bool.false_ne_true, stuck.notLayout, if_neg Bool.false_ne_true,
    if_neg stuck.notComment]
  have refused := stuck.refused
  rw [Pending.Refuses] at refused
  cases found : reader.pending.lexeme? (c :: rest) with
  | none => rfl
  | some lexeme =>
      rw [found, Option.bind_some] at refused
      simp only [refused]

theorem mark_take (reader : Reader) (lexeme : List Char) (advance : Advance) :
    (reader.take lexeme advance).mark = reader.mark := by
  cases advance with
  | more next => rfl
  | statement action =>
      rw [take, addStatement_eq]
  | unit name => rfl

/-- A lexeme that is found and can be taken is taken in front of everything that goes on alike. -/
theorem reaches_take {reader : Reader} {c : Char} {others rest : List Char} {advance : Advance}
    (outside : reader.comment = false) (notLayout : isLayout c = false) (notComment : c ≠ '#')
    (finds : reader.pending.FindsBefore (c :: others) rest)
    (taken : reader.pending.advance? (c :: others) = some advance) :
    reader.Reaches (c :: others) rest
      ((reader.take (c :: others) advance).passAll (c :: others)) := by
  refine ⟨?_, ?_⟩
  · rw [passAll, mark_take]
  · intro other alike
    exact run_lexeme outside notLayout notComment (finds.found other alike) taken

/-- The next character belongs to the layout and is passed, or begins a lexeme that is taken, or
cannot stand there. -/
theorem next_cases (reader : Reader) (c : Char) (rest : List Char) :
    (∃ others remaining after, rest = others ++ remaining ∧
      reader.Reaches (c :: others) remaining after) ∨ reader.Stuck c rest := by
  have passes (after : Reader) (mark : after.mark = reader.mark.past c)
      (run : ∀ other, reader.run 0 (c :: other) = after.run 0 other) :
      ∃ others remaining after, rest = others ++ remaining ∧
        reader.Reaches (c :: others) remaining after :=
    ⟨[], rest, after, rfl, mark, fun other _ => run other⟩
  by_cases inside : reader.comment = true
  · left
    apply passes { reader.pass c with comment := c ≠ '\n' } rfl
    intro other
    rw [run, if_pos inside]
  by_cases blank : isLayout c = true
  · left
    apply passes (reader.pass c) rfl
    intro other
    rw [run, if_neg inside, if_pos blank]
  by_cases opens : c = '#'
  · left
    apply passes { reader.pass c with comment := true } rfl
    intro other
    rw [run, if_neg inside, if_neg blank, if_pos opens]
  have outside := Bool.eq_false_iff.mpr inside
  have notLayout := Bool.eq_false_iff.mpr blank
  cases admitted : (reader.pending.lexeme? (c :: rest)).bind reader.pending.advance? with
  | none => exact .inr ⟨outside, notLayout, opens, admitted⟩
  | some advance =>
      left
      obtain ⟨lexeme, found, taken⟩ := Option.bind_eq_some_iff.mp admitted
      obtain ⟨remaining, same, finds⟩ := Pending.exists_findsBefore found
      obtain ⟨first, others, rfl⟩ := finds.starts
      obtain ⟨rfl, rfl⟩ : c = first ∧ rest = others ++ remaining := List.cons.inj same
      exact ⟨others, remaining, _, rfl, reaches_take outside notLayout opens finds taken⟩

/-- Reading gets to the end of a text, or to a character where the reader is stuck. -/
theorem reaches_cases (reader : Reader) (text : List Char) :
    (∃ last, reader.Reaches text [] last) ∨
      ∃ before c rest stuck, text = before ++ c :: rest ∧
        reader.Reaches before (c :: rest) stuck ∧ stuck.Stuck c rest := by
  -- Several characters may be taken at once, so the induction is on the length.
  induction length : text.length using Nat.strongRecOn generalizing reader text with
  | ind size inductionHypothesis =>
      cases text with
      | nil => exact .inl ⟨reader, .refl reader []⟩
      | cons c text =>
          obtain ⟨others, remaining, after, rfl, reaches⟩ | isStuck := reader.next_cases c text
          · have smaller : remaining.length < size := by
              rw [← length, List.length_cons, List.length_append]
              omega
            obtain ⟨last, reached⟩ | ⟨before, first, rest, stuck, rfl, reached, isStuck⟩ :=
              inductionHypothesis remaining.length smaller after remaining rfl
            · rw [← List.append_nil remaining] at reaches
              exact .inl ⟨last, reaches.trans reached⟩
            · right
              refine ⟨c :: others ++ before, first, rest, stuck, ?_, reaches.trans reached, isStuck⟩
              rw [List.append_assoc, List.cons_append]
          · exact .inr ⟨[], c, text, reader, rfl, .refl reader _, isStuck⟩

end Reader

namespace Pending

/-- What is expected can be completed to a statement or header. -/
def CanEnd (pending : Pending) : Prop := ∃ tokens advance, pending.Leads tokens advance

section

variable {pending next : Pending}

theorem CanEnd.word (expects : pending.lexeme? = word?)
    (taken : pending.advance? ['x'] = some (.more next)) : next.CanEnd → pending.CanEnd := by
  rintro ⟨tokens, advance, leads⟩
  exact ⟨_, advance, leads.word expects rfl taken⟩

theorem CanEnd.sign (mark : Char) (expects : pending.lexeme? = sign?)
    (sign : signs.contains mark = true) (taken : pending.advance? [mark] = some (.more next)) :
    next.CanEnd → pending.CanEnd := by
  rintro ⟨tokens, advance, leads⟩
  exact ⟨_, advance, leads.sign expects sign taken⟩

end

theorem canEnd_semicolon (action : Action) : (semicolon action).CanEnd :=
  ⟨_, _, leads_semicolon action⟩

theorem canEnd_binderEnd (binder : Binder) (place : Name) : (binderEnd binder place).CanEnd := by
  have none : ∀ letters ∈ (none : Option (List Char)), isIdentifier letters = true := by
    intro letters absent
    cases absent
  exact ⟨_, _, leads_source none⟩

/-- Where a statement has begun, it can be completed. -/
theorem canEnd_of_ne_start {pending : Pending} (begun : pending ≠ .start) : pending.CanEnd := by
  cases pending with
  | start => exact absurd rfl begun
  | semicolon action => exact canEnd_semicolon action
  | unitColon name =>
      exact ⟨[.sign ':'], _, leads_sign rfl rfl rfl (by intro next same; cases same)⟩
  | unitName =>
      refine .word rfl rfl ⟨[.sign ':'], _, leads_sign rfl rfl rfl ?_⟩
      intro next same
      cases same
  | binderName binder =>
      by_cases declares : binder.keyword = .declare
      · exact .word rfl (if_pos declares) (canEnd_semicolon _)
      · exact .word rfl (if_neg declares) (canEnd_binderEnd binder _)
  | binderEnd binder place => exact canEnd_binderEnd binder place
  | sourceMove binder place =>
      have source : (sourceName binder place).CanEnd := .word rfl rfl (canEnd_semicolon _)
      obtain ⟨tokens, advance, leads⟩ := source
      exact ⟨_, advance, .more Keyword.move.valid (fun _ _ => rfl) rfl leads⟩
  | moveDest => exact .word rfl rfl (.sign '=' rfl rfl rfl (.word rfl rfl (canEnd_semicolon _)))
  | moveEquals dest => exact .sign '=' rfl rfl rfl (.word rfl rfl (canEnd_semicolon _))
  | borrowDest =>
      exact .word rfl rfl (.sign '=' rfl rfl rfl (.sign '&' rfl rfl rfl
        (.word rfl rfl (canEnd_semicolon _))))
  | borrowEquals dest =>
      exact .sign '=' rfl rfl rfl (.sign '&' rfl rfl rfl (.word rfl rfl (canEnd_semicolon _)))
  | borrowSign dest => exact .sign '&' rfl rfl rfl (.word rfl rfl (canEnd_semicolon _))
  | sourceName | moveSource | borrowReferent | exclusiveReferent | writePlace | readPlace
  | consumePlace =>
      exact .word rfl rfl (canEnd_semicolon _)

end Pending

namespace Spaced

/-- Tokens, each on a line of its own. -/
def lines (tokens : List Token) : List Spaced := tokens.map fun token => ⟨[.newline], token⟩

theorem map_token_lines (tokens : List Token) : (lines tokens).map token = tokens := by
  rw [lines, List.map_map]
  exact List.map_id tokens

theorem ended_lines (tokens : List Token) : Ended (lines tokens) [] := by
  induction tokens with
  | nil => trivial
  | cons first others inductionHypothesis =>
      refine ⟨fun _ => ?_, inductionHypothesis⟩
      cases others with
      | nil => exact endsWord_nil
      | cons second others => exact endsWord_cons rfl _

end Spaced

namespace Reader

/-- A new line ends a comment and is passed otherwise. -/
theorem run_newline (reader : Reader) (rest : List Char) :
    reader.run 0 ('\n' :: rest) = { reader.pass '\n' with comment := false }.run 0 rest := by
  have blank : isLayout '\n' = true := rfl
  cases outside : reader.comment with
  | true =>
      rw [run, if_pos outside]
      rfl
  | false =>
      rw [run, outside, if_neg Bool.false_ne_true, if_pos blank, ← outside]
      rfl

/-- From wherever reading has got to, some text that ends a word leads to the end of a
statement. -/
theorem exists_run_start (reader : Reader) :
    ∃ rest last, EndsWord rest ∧ reader.run 0 rest = .ok last ∧ last.pending = .start := by
  by_cases between : reader.pending = .start
  · exact ⟨['\n'], _, endsWord_cons rfl [], reader.run_newline [], between⟩
  · obtain ⟨tokens, advance, leads⟩ := Pending.canEnd_of_ne_start between
    have shape := Spaced.map_token_lines tokens
    rw [← shape] at leads
    obtain ⟨last, runs, completes⟩ :=
      @run_leads { reader.pass '\n' with comment := false } _ _ _ rfl leads
        (Spaced.ended_lines tokens)
    refine ⟨'\n' :: (Spaced.run (Spaced.lines tokens) ++ []), last, endsWord_cons rfl _, ?_,
      completes.pending⟩
    rw [run_newline, runs, run]

end Reader

end LoanCheck.SourceText

namespace LoanCheck.Text.Mark

theorem line_pastAll (mark : Mark) (text : List Char) :
    (mark.pastAll text).line = mark.line + text.count '\n' := by
  induction text generalizing mark with
  | nil => rfl
  | cons c text inductionHypothesis =>
      rw [pastAll_cons, inductionHypothesis]
      by_cases ends : c = '\n'
      · simp only [past, ends, if_true, List.count_cons_self]
        omega
      · simp only [past, if_neg ends, List.count_cons_of_ne ends]

theorem column_pastAll (mark : Mark) {text : List Char} (inLine : '\n' ∉ text) :
    (mark.pastAll text).column = mark.column + text.length := by
  induction text generalizing mark with
  | nil => rfl
  | cons c text inductionHypothesis =>
      have other : c ≠ '\n' := fun same => inLine (same ▸ List.mem_cons_self)
      have inRest : '\n' ∉ text := fun listed => inLine (List.mem_cons_of_mem c listed)
      rw [pastAll_cons, inductionHypothesis _ inRest]
      simp only [past, if_neg other, List.length_cons]
      omega

/-- Passing characters never leads back. -/
theorem eq_nil_of_pastAll_eq {mark : Mark} {text : List Char} (same : mark.pastAll text = mark) :
    text = [] := by
  have inLine : '\n' ∉ text := by
    have lines := mark.line_pastAll text
    rw [same] at lines
    exact List.count_eq_zero.mp (by omega)
  have columns := mark.column_pastAll inLine
  rw [same] at columns
  exact List.length_eq_zero_iff.mp (by omega)

end LoanCheck.Text.Mark

namespace LoanCheck.SourceText

open LoanCheck.Text (Mark)

/-- Places in one text differ. -/
theorem eq_of_markAfter_eq {first second firstRest secondRest : List Char}
    (text : first ++ firstRest = second ++ secondRest)
    (same : markAfter first = markAfter second) : first = second := by
  rw [← pastAll_first, ← pastAll_first] at same
  obtain ⟨between, rfl, -⟩ | ⟨between, rfl, -⟩ := List.append_eq_append_iff.mp text
  · rw [Mark.pastAll_append] at same
    rw [Mark.eq_nil_of_pastAll_eq same.symm, List.append_nil]
  · rw [Mark.pastAll_append] at same
    rw [Mark.eq_nil_of_pastAll_eq same, List.append_nil]

namespace Issue

theorem unexpected_ne_end {shown : String} (other : shown.toList.head? ≠ some 'e') :
    "unexpected " ++ shown ≠ "unexpected end of input" := by
  intro same
  have whole : "unexpected end of input".toList =
      "unexpected ".toList ++ 'e' :: "nd of input".toList := rfl
  have chars := congrArg String.toList same
  rw [String.toList_append, whole] at chars
  rw [List.append_cancel_left chars] at other
  exact other rfl

/-- Where something is shown of the text, its end is not what is told. -/
theorem message_ne_end {issue : Issue} {culprit : List Char}
    (shown : issue.culprit? = some culprit) : issue.message ≠ "unexpected end of input" := by
  cases issue with
  | endOfInput => cases shown
  | lexeme text =>
      apply unexpected_ne_end
      rw [String.toList_ofList, Text.quotedChars, Text.quoteFor]
      split <;> exact fun same => absurd (Option.some.inj same) (by decide)
  | character c =>
      have whole : message (.character c) =
          "unexpected " ++ ("character " ++ String.ofList (Text.quotedChars [c])) := by
        rw [← String.append_assoc]
        rfl
      have starts : "character ".toList = 'c' :: "haracter ".toList := rfl
      rw [whole]
      apply unexpected_ne_end
      rw [String.toList_append, starts]
      exact fun same => absurd (Option.some.inj same) (by decide)

end Issue

end LoanCheck.SourceText

namespace LoanCheck.Program

open LoanCheck.SourceText

/-- A text is read as a program. -/
def Accepts (file : Option String) (defaultName : String) (text : List Char) : Prop :=
  ∃ program, readText file defaultName text = .ok program

section

variable {file : Option String} {defaultName : String} {text : List Char}

theorem accepts_iff : Accepts file defaultName text ↔
    ∃ last, Reader.run { file } 0 text = .ok last ∧ last.pending = .start := by
  rw [Accepts, readText, SourceText.read]
  cases Reader.run { file } 0 text with
  | error error =>
      constructor
      · rintro ⟨program, ⟨⟩⟩
      · rintro ⟨last, ⟨⟩, _⟩
  | ok last =>
      constructor
      · rintro ⟨program, accepted⟩
        refine ⟨last, rfl, ?_⟩
        cases pending : last.pending with
        | start => rfl
        | _ => simp [pending, Except.map] at accepted
      · rintro ⟨_, ⟨⟩, between⟩
        simp only [between]
        exact ⟨_, rfl⟩

/-- A text that is read to its end is rejected for nothing but its end. -/
theorem issue_eq_endOfInput {error : ReadError} {last : Reader}
    (runs : Reader.run { file } 0 text = .ok last)
    (rejected : readText file defaultName text = .error error) : error.issue = .endOfInput := by
  rw [readText, SourceText.read, runs] at rejected
  cases pending : last.pending <;> simp only [pending] at rejected <;> cases rejected <;> rfl

theorem error_eq_of_run {error found : ReadError}
    (runs : Reader.run { file } 0 text = .error found)
    (rejected : readText file defaultName text = .error error) : error = found := by
  rw [readText, SourceText.read, runs] at rejected
  cases rejected
  rfl

/-- A text that a reader gets through, to wherever it stands then, can be completed. -/
theorem exists_accepts_append {before rest : List Char} {after : Reader}
    (reaches : Reader.Reaches { file } before rest after) :
    ∃ other, Accepts file defaultName (before ++ other) := by
  obtain ⟨other, last, ends, runs, between⟩ := after.exists_run_start
  refine ⟨other, accepts_iff.mpr ⟨last, ?_, between⟩⟩
  rw [reaches.run other fun _ => ends, runs]

/-- Where the reader is stuck, no text is accepted. -/
theorem not_accepts_of_stuck {before rest : List Char} {c : Char} {stuck : Reader}
    (reaches : Reader.Reaches { file } before (c :: rest) stuck) {other : List Char}
    (isStuck : stuck.Stuck c other) : ¬Accepts file defaultName (before ++ c :: other) := by
  intro accepts
  obtain ⟨last, runs, -⟩ := accepts_iff.mp accepts
  rw [reaches.run (c :: other) fun ends => ends, isStuck.run_eq] at runs
  cases runs

end

/-- A text that is no program is rejected at the first lexeme or character that cannot stand where
it stands, or at its end.  At its end the text can still be completed to a program.  Otherwise
what stands before the reported place can be, and no text that goes on with what is reported,
ended as a word if it is one, is a program.  Only one place of the text is the reported one. -/
theorem rejected_at_first_impossible {file : Option String} {defaultName : String}
    {text : List Char} {error : ReadError}
    (rejected : readText file defaultName text = .error error) :
    (error.issue.message = "unexpected end of input" →
      ∃ rest, Accepts file defaultName (text ++ rest)) ∧
    (error.issue.message ≠ "unexpected end of input" →
      ∃ before culprit after, error.issue.culprit? = some culprit ∧
        text = before ++ (culprit ++ after) ∧
        (isIdentifier culprit = true → EndsWord after) ∧
        error.mark = markAfter before ∧
        (∀ other rest, text = other ++ rest → markAfter other = error.mark → other = before) ∧
        (∃ rest, Accepts file defaultName (before ++ rest)) ∧
        ∀ rest, (isIdentifier culprit = true → EndsWord rest) →
          ¬Accepts file defaultName (before ++ (culprit ++ rest))) := by
  obtain ⟨last, reaches⟩ | ⟨before, c, rest, stuck, rfl, reaches, isStuck⟩ :=
    Reader.reaches_cases { file } text
  · have runs := reaches.run [] fun ends => ends
    rw [List.append_nil] at runs
    have ended := issue_eq_endOfInput runs rejected
    refine ⟨fun _ => exists_accepts_append reaches, fun different => absurd ?_ different⟩
    rw [ended]
    rfl
  · have runs := reaches.run (c :: rest) fun ends => ends
    rw [isStuck.run_eq] at runs
    obtain rfl := error_eq_of_run runs rejected
    have marked : stuck.mark = markAfter before := reaches.mark.trans (pastAll_first before)
    obtain ⟨others, after, shown, rfl, ends, refused⟩ := exists_culprit_of_refuses isStuck.refused
    refine ⟨fun same => absurd same (Issue.message_ne_end shown), fun _ => ?_⟩
    refine ⟨before, c :: others, after, shown, rfl, ends, marked, ?_,
      exists_accepts_append reaches, ?_⟩
    · intro other rest split same
      exact eq_of_markAfter_eq split.symm (same.trans marked)
    · intro other ended
      exact not_accepts_of_stuck reaches
        ⟨isStuck.outside, isStuck.notLayout, isStuck.notComment, refused other ended⟩

/-- A keyword needs no separator after it, so it is what follows that cannot stand there; a comment
that is not ended hides what follows, so more may come on the next line. -/
theorem run_together_or_unfinished_rejected :
    (readText none defaultName (Keyword.enter.text ++ ['x', ';']) =
        .error ⟨.lexeme ['x'], ⟨1, 6⟩⟩ ∧
      (∃ rest, Accepts none defaultName (Keyword.enter.text ++ rest)) ∧
      ∀ rest, EndsWord rest → ¬Accepts none defaultName (Keyword.enter.text ++ 'x' :: rest)) ∧
    readText none defaultName (Keyword.exit.text ++ ['#', ';']) = .error ⟨.endOfInput, ⟨1, 1⟩⟩ ∧
      ∃ rest, Accepts none defaultName (Keyword.exit.text ++ ['#', ';'] ++ rest) := by
  have runTogether : readText none defaultName (Keyword.enter.text ++ ['x', ';']) =
      .error ⟨.lexeme ['x'], ⟨1, 6⟩⟩ := rfl
  have unfinished : readText none defaultName (Keyword.exit.text ++ ['#', ';']) =
      .error ⟨.endOfInput, ⟨1, 1⟩⟩ := rfl
  obtain ⟨before, culprit, after, shown, -, -, -, unique, completed, impossible⟩ :=
    (rejected_at_first_impossible runTogether).2 (Issue.message_ne_end rfl)
  obtain rfl := Option.some.inj shown
  obtain rfl := unique Keyword.enter.text ['x', ';'] rfl rfl
  exact ⟨⟨runTogether, completed, fun rest ends => impossible rest fun _ => ends⟩, unfinished,
    (rejected_at_first_impossible unfinished).1 rfl⟩

end LoanCheck.Program
