import LoanCheck.Proofs.Check.Settlement

/-!
# What silence tells

Where a rule reports nothing, what it asks for holds.  A statement that is taken in
silence uses no operand that has escaped, moves no borrowed value unless that is copied,
and overwrites and writes to nothing that is borrowed.
-/

namespace LoanCheck

/-- A report of a kind at a point, about one borrow or none. -/
def Diagnostic.Tells (kind : DiagnosticKind) (point : Point) (borrow : Option BorrowId)
    (diagnostic : Diagnostic) : Prop :=
  diagnostic.kind = kind ∧ diagnostic.point = point ∧ diagnostic.borrow = borrow

namespace State

variable {context : Context} {state : State} {place : PlaceId} {point : Point} {span : Span}

/-- Between two states something was reported that fits a description. -/
def Adds (before after : State) (described : Diagnostic → Prop) : Prop :=
  ∃ added, after.diagnostics = before.diagnostics ++ added ∧
    ∃ diagnostic ∈ added, described diagnostic

namespace Adds

variable {first second third : State} {described : Diagnostic → Prop}

theorem then_reports (adds : Adds first second described)
    (reports : second.diagnostics <+: third.diagnostics) : Adds first third described := by
  obtain ⟨added, same, diagnostic, membership, fits⟩ := adds
  obtain ⟨more, rest⟩ := reports
  refine ⟨added ++ more, ?_, diagnostic, List.mem_append_left more membership, fits⟩
  rw [← rest, same, List.append_assoc]

theorem after_reports (adds : Adds second third described)
    (reports : first.diagnostics <+: second.diagnostics) : Adds first third described := by
  obtain ⟨added, same, diagnostic, membership, fits⟩ := adds
  obtain ⟨early, rest⟩ := reports
  refine ⟨early ++ added, ?_, diagnostic, List.mem_append_right early membership, fits⟩
  rw [same, ← rest, List.append_assoc]

theorem ne_nil (adds : Adds first second described) : second.diagnostics ≠ [] := by
  obtain ⟨added, same, diagnostic, membership, _⟩ := adds
  rw [same]
  exact List.append_ne_nil_of_right_ne_nil _ (List.ne_nil_of_mem membership)

end Adds

theorem report_adds (state : State) (violation : Violation) (point : Point) (place : Name)
    (borrow : Option BorrowId) (span : Span) (notes : List String) :
    Adds state (state.report violation point place borrow span notes)
      (Diagnostic.Tells violation.kind point borrow) :=
  ⟨_, rfl, _, List.mem_singleton_self _, rfl, rfl, rfl⟩

theorem report_ne_nil (state : State) (violation : Violation) (point : Point) (place : Name)
    (borrow : Option BorrowId) (span : Span) (notes : List String) :
    (state.report violation point place borrow span notes).diagnostics ≠ [] :=
  (report_adds state violation point place borrow span notes).ne_nil

theorem requireOwned_of_silent {action : String}
    (silent : (requireOwned context state place point action span).1.diagnostics = []) :
    requireOwned context state place point action span = (state, true) ∧
      (state.ownership.stateOf context.tree place = .owned ∨
        state.ownership.stateOf context.tree place = .dropped) := by
  unfold requireOwned at silent ⊢
  split at silent
  · exact absurd silent (report_ne_nil _ _ _ _ _ _ _)
  · exact absurd silent (report_ne_nil _ _ _ _ _ _ _)
  · next held => exact ⟨rfl, .inl held⟩
  · next held => exact ⟨rfl, .inr held⟩

/-- A quiet state in which nothing was reported does not pass over an escaped use. -/
theorem escapedUse_ne_nil (quiet : state.Quiet) :
    (escapedUse context state place point span).diagnostics ≠ [] := by
  intro unreported
  have becomes := escapedUse_becomes context state (rfl : (Use.mk place true).escaped = true) point
    span
  obtain ⟨escapes, safe⟩ := quiet (becomes.silent_before unreported)
  have unknown : ¬state.escapes.contains place = true := by simp [escapes]
  have none_dangling : ¬(state.ledger.everHeldBy place).any Borrow.dangling = true := by
    rw [Bool.not_eq_true, List.any_eq_false]
    intro borrow membership
    rw [safe borrow (List.mem_filter.mp membership).1]
    exact Bool.false_ne_true
  unfold escapedUse at unreported
  rw [if_neg unknown] at unreported
  extract_lets noted history tree name shown ended note at unreported
  rw [if_neg none_dangling] at unreported
  split at unreported
  · exact report_ne_nil _ _ _ _ _ _ _ unreported
  · exact report_ne_nil _ _ _ _ _ _ _ unreported

theorem liveUse_of_silent {use : Use} (quiet : state.Quiet)
    (silent : (liveUse context state use point span).1.diagnostics = []) :
    use.escaped = false ∧ liveUse context state use point span = (state, true) := by
  unfold liveUse at silent ⊢
  cases escaped : use.escaped with
  | false => exact ⟨rfl, rfl⟩
  | true =>
      rw [escaped] at silent
      exact absurd silent (escapedUse_ne_nil quiet)

theorem consumeSource_of_silent {action : String}
    (silent : (consumeSource context state place point span action).diagnostics = []) :
    (state.ownership.stateOf context.tree place = .owned ∨
        state.ownership.stateOf context.tree place = .dropped) ∧
      (state.ledger.activeOn place = [] ∨
        (state.ownership.record context.tree place).copy.isTrue = true) := by
  have owned : (requireOwned context state place point action span).1.diagnostics = [] →
      requireOwned context state place point action span = (state, true) ∧
        (state.ownership.stateOf context.tree place = .owned ∨
          state.ownership.stateOf context.tree place = .dropped) := requireOwned_of_silent
  unfold consumeSource at silent
  generalize requireOwned context state place point action span = answer at silent owned
  obtain ⟨judged, isOwned⟩ := answer
  simp only at silent owned
  split at silent
  · next borrow rest borrowed =>
      split at silent
      · next copied =>
          obtain ⟨same, kept⟩ := owned silent
          cases same
          exact ⟨kept, .inr copied⟩
      · exact absurd silent (report_ne_nil _ _ _ _ _ _ _)
  · next free =>
      obtain ⟨same, kept⟩ := owned silent
      cases same
      refine ⟨kept, .inl ?_⟩
      cases borrowed : state.ledger.activeOn place with
      | nil => rfl
      | cons borrow rest => exact absurd borrowed (free borrow rest rfl)

theorem overwrite_of_silent
    (silent : (overwrite context state place point span).diagnostics = []) :
    state.ledger.activeOn place = [] := by
  unfold overwrite at silent
  split at silent
  · assumption
  · exact absurd silent (report_ne_nil _ _ _ _ _ _ _)

theorem foldl_reportOutliving_adds {borrows : List Borrow} {borrow : Borrow}
    (listed : borrow ∈ borrows) (place : PlaceId) (state : State) :
    Adds state
      (borrows.foldl
        (fun state borrow => reportOutliving context state place point span borrow) state)
      (Diagnostic.Tells .danglingReference point (some borrow.id)) := by
  induction borrows generalizing state with
  | nil => cases listed
  | cons first rest inductionHypothesis =>
      rw [List.foldl_cons]
      rcases List.mem_cons.mp listed with rfl | later
      · apply Adds.then_reports _
          (foldl_reportOutliving_becomes context place point span rest _).reports
        exact report_adds state _ _ _ _ _ _
      · apply (inductionHypothesis later _).after_reports
        exact (reportOutliving_becomes context state place point span first).reports

theorem checkDrop_of_silent
    (silent : (checkDrop context state place point span).diagnostics = []) :
    state.ledger.activeOn place = [] := by
  cases borrowed : state.ledger.activeOn place with
  | nil => rfl
  | cons borrow rest =>
      rw [checkDrop, borrowed] at silent
      exact absurd silent (foldl_reportOutliving_adds List.mem_cons_self place state).ne_nil

theorem checkReferent_of_silent {kind : BorrowKind}
    (silent : (checkReferent context state kind place point span).diagnostics = []) :
    state.ownership.stateOf context.tree place = .owned ∨
      state.ownership.stateOf context.tree place = .dropped := by
  simp only [checkReferent] at silent
  split at silent
  · exact absurd silent (report_ne_nil _ _ _ _ _ _ _)
  · exact (requireOwned_of_silent silent).2

theorem writeOwned_of_silent
    (silent : (writeOwned context state place point span).diagnostics = []) :
    state.ledger.activeOn place = [] := by
  unfold writeOwned at silent
  extract_lets name isReference judged at silent
  have sameLedger : judged.ledger = state.ledger := by
    unfold judged
    split <;> rfl
  clear_value judged
  split at silent
  · exact absurd silent (report_ne_nil _ _ _ _ _ _ _)
  · next free =>
      rw [sameLedger] at free
      exact free

/-- A place that is bound again while it has its value is a duplicate. -/
theorem rebindTarget_adds {mutable copy : Flag}
    (owned : state.ownership.stateOf context.tree place = .owned) :
    Adds state (rebindTarget context state (.existing place) mutable copy point span)
      (Diagnostic.Tells .duplicateBinding point none) := by
  have still : (state.retireHeldBy place point).ownership.stateOf context.tree place = .owned :=
    owned
  simp only [rebindTarget, owned, beq_self_eq_true, if_true, bindPlace, Target.place,
    Target.declares, Bool.not_false, Bool.true_and, still]
  exact report_adds _ _ _ _ _ _ _

theorem rebindTarget_of_silent {mutable copy : Flag}
    (silent : (rebindTarget context state (.existing place) mutable copy point
      span).diagnostics = []) :
    state.ownership.stateOf context.tree place ≠ .owned :=
  fun owned => (rebindTarget_adds owned).ne_nil silent

theorem takeSource_of_silent {source : Use} (quiet : state.Quiet)
    (silent : (takeSource context state source point span).1.diagnostics = []) :
    source.escaped = false ∧
      (takeSource context state source point span).1 =
        consumeSource context state source.place point span "move" := by
  cases escaped : source.escaped with
  | false => exact ⟨rfl, by simp [takeSource, liveUse, escaped]⟩
  | true =>
      have same : (takeSource context state source point span).1 =
          (liveUse context state source point span).1 := by
        simp [takeSource, liveUse, escaped]
      rw [same] at silent
      have inside := (liveUse_of_silent quiet silent).1
      rw [escaped] at inside
      cases inside

theorem bind_of_silent {target : Target} {source : Use} {mutable copy : Flag}
    (silent : (bind context state target (some source) mutable copy point
      span).diagnostics = []) :
    (rebindTarget context (takeSource context state source point span).1 target mutable copy
        point span).diagnostics = [] ∧
      (takeSource context state source point span).1.diagnostics = [] := by
  rw [bind_some] at silent
  have rebound := (passOn_becomes context _ source target).silent_before silent
  exact ⟨rebound, (rebindTarget_becomes context _ target mutable copy point span).silent_before
    rebound⟩

theorem move_of_silent {target : Target} {source : Use}
    (silent : (move context state target source point span).diagnostics = []) :
    (assignTarget context (takeSource context state source point span).1 target point
        span).diagnostics = [] ∧
      (takeSource context state source point span).1.diagnostics = [] := by
  rw [move_eq] at silent
  have assigned := (passOn_becomes context _ source target).silent_before silent
  exact ⟨assigned, (assignTarget_becomes context _ target point span).silent_before assigned⟩

theorem consume_of_silent {source : Use} (quiet : state.Quiet)
    (silent : (consume context state source point span).diagnostics = []) :
    source.escaped = false ∧
      (consumeSource context state source.place point span "consume").diagnostics = [] := by
  cases escaped : source.escaped with
  | false =>
      simp only [consume, liveUse, escaped, Bool.false_eq_true, if_false, if_true] at silent
      exact ⟨rfl, silent⟩
  | true =>
      simp only [consume, liveUse, escaped, if_true, Bool.false_eq_true, if_false] at silent
      exact absurd silent (escapedUse_ne_nil quiet)

theorem read_of_silent {source : Use} (quiet : state.Quiet)
    (silent : (read context state source point span).diagnostics = []) :
    source.escaped = false ∧
      (requireOwned context state source.place point "read" span).1.diagnostics = [] := by
  cases escaped : source.escaped with
  | false =>
      simp only [read, liveUse, escaped, Bool.false_eq_true, if_false, if_true] at silent
      exact ⟨rfl, silent⟩
  | true =>
      simp only [read, liveUse, escaped, if_true, Bool.false_eq_true, if_false] at silent
      exact absurd silent (escapedUse_ne_nil quiet)

theorem writeOwned_silent_of_write {source : Use} (quiet : state.Quiet)
    (silent : (write context state source point span).diagnostics = []) :
    source.escaped = false ∧
      (state.ownership.stateOf context.tree source.place = .owned ∨
        state.ownership.stateOf context.tree source.place = .dropped) ∧
      (writeOwned context state source.place point span).diagnostics = [] := by
  cases escaped : source.escaped with
  | false =>
      simp only [write, liveUse, escaped, Bool.false_eq_true, if_false, if_true] at silent
      split at silent
      · have judged := (writeOwned_becomes context _ source.place point span).silent_before silent
        obtain ⟨same, kept⟩ := requireOwned_of_silent judged
        rw [same] at silent
        exact ⟨rfl, kept, silent⟩
      · next notOwned =>
          rw [(requireOwned_of_silent silent).1] at notOwned
          exact absurd rfl notOwned
  | true =>
      simp only [write, liveUse, escaped, if_true, Bool.false_eq_true, if_false] at silent
      exact absurd silent (escapedUse_ne_nil quiet)

theorem lend_of_silent {referent holder : PlaceId} {kind : BorrowKind}
    (silent : (lend context state referent kind holder point span).diagnostics = []) :
    state.diagnostics = [] ∧ state.ledger.conflict? referent kind = none := by
  unfold lend at silent
  split at silent
  · exact absurd silent (report_ne_nil _ _ _ _ _ _ _)
  · next admitted => exact ⟨silent, admitted⟩

theorem readyToLend_of_silent {kind : BorrowKind} {target : Target} {source : Use}
    (quiet : state.Quiet)
    (silent : (borrow context state kind target source point span).diagnostics = []) :
    source.escaped = false ∧
      (assignTarget context (checkReferent context state kind source.place point span) target
          point span).diagnostics = [] := by
  rw [borrow_eq] at silent
  cases escaped : source.escaped with
  | false =>
      rw [escaped] at silent
      refine ⟨rfl, ?_⟩
      have ready := (lend_of_silent silent).1
      simp only [readyToLend, liveUse, escaped, Bool.false_eq_true, if_false] at ready
      exact ready
  | true =>
      simp only [escaped, if_true, readyToLend, liveUse] at silent
      have used := (assignTarget_becomes context _ target point span).silent_before silent
      exact absurd used (escapedUse_ne_nil quiet)

/-- In silence, the value that a statement takes is there, and not borrowed unless copied. -/
theorem takes_of_silent {resolution : Resolution} {source : Use} (quiet : state.Quiet)
    (takes : resolution.effect.takes? = some source)
    (silent : (state.step context resolution).diagnostics = []) :
    source.escaped = false ∧
      (state.ownership.stateOf context.tree source.place = .owned ∨
        state.ownership.stateOf context.tree source.place = .dropped) ∧
      (state.ledger.activeOn source.place = [] ∨
        (state.ownership.record context.tree source.place).copy.isTrue = true) := by
  obtain ⟨point, scope, span, effect⟩ := resolution
  cases effect with
  | bind target operand mutable copy =>
      cases takes
      obtain ⟨inside, same⟩ := takeSource_of_silent quiet (bind_of_silent silent).2
      have taken := (bind_of_silent silent).2
      rw [same] at taken
      exact ⟨inside, consumeSource_of_silent taken⟩
  | move target operand =>
      cases takes
      obtain ⟨inside, same⟩ := takeSource_of_silent quiet (move_of_silent silent).2
      have taken := (move_of_silent silent).2
      rw [same] at taken
      exact ⟨inside, consumeSource_of_silent taken⟩
  | consume operand =>
      cases takes
      obtain ⟨inside, taken⟩ := consume_of_silent quiet silent
      exact ⟨inside, consumeSource_of_silent taken⟩
  | _ => cases takes

theorem assignTarget_of_silent
    (silent : (assignTarget context state (.existing place) point span).diagnostics = []) :
    state.ledger.activeOn place = [] :=
  overwrite_of_silent ((assignPlace_becomes context _ place point span).silent_before silent)

/-- In silence, a place that is assigned is not borrowed, and one that is bound again has lost
its value. -/
theorem existing_of_silent {resolution : Resolution} (consistent : state.ledger.Consistent)
    (quiet : state.Quiet) (given : resolution.effect.target? = some (.existing place))
    (assigned : resolution.effect ≠ .declare (.existing place))
    (silent : (state.step context resolution).diagnostics = []) :
    state.ledger.activeOn place = [] ∨
      ∃ source mutable copy,
        resolution.effect = .bind (.existing place) source mutable copy ∧
        Ownership.stateOf (source.elim state.ownership (state.ownership.taken context.tree))
          context.tree place ≠ .owned := by
  obtain ⟨point, scope, span, effect⟩ := resolution
  cases effect with
  | bind target operand mutable copy =>
      cases given
      refine .inr ⟨operand, mutable, copy, rfl, ?_⟩
      cases operand with
      | none => exact rebindTarget_of_silent silent
      | some source =>
          have lost := rebindTarget_of_silent (bind_of_silent silent).1
          rw [(takeSource_becomes context state source point span).ownership] at lost
          exact lost
  | declare target =>
      cases given
      exact absurd rfl assigned
  | move target source =>
      cases given
      obtain ⟨done, taken⟩ := move_of_silent silent
      have free := assignTarget_of_silent done
      rw [(takeSource_of_silent quiet taken).2, (consumeSource_becomes context state source.place
        point span "move").activeOn_eq consistent] at free
      exact .inl free
  | borrow kind target source =>
      cases given
      have free := assignTarget_of_silent (readyToLend_of_silent quiet silent).2
      rw [(checkReferent_becomes context state kind source.place point span).activeOn_eq
        consistent] at free
      exact .inl free
  | _ => cases given

theorem write_of_silent {resolution : Resolution} {source : Use} (quiet : state.Quiet)
    (writes : resolution.effect = .write source)
    (silent : (state.step context resolution).diagnostics = []) :
    state.ledger.activeOn source.place = [] := by
  obtain ⟨point, scope, span, effect⟩ := resolution
  cases writes
  exact writeOwned_of_silent (writeOwned_silent_of_write quiet silent).2.2

/-- In silence, a place that is borrowed has its value. -/
theorem borrow_of_silent {resolution : Resolution} {kind : BorrowKind} {target : Target}
    {source : Use} (quiet : state.Quiet)
    (lends : resolution.effect = .borrow kind target source)
    (silent : (state.step context resolution).diagnostics = []) :
    state.ownership.stateOf context.tree source.place = .owned ∨
      state.ownership.stateOf context.tree source.place = .dropped := by
  obtain ⟨point, scope, span, effect⟩ := resolution
  cases lends
  exact checkReferent_of_silent ((assignTarget_becomes context _ target point
    span).silent_before (readyToLend_of_silent quiet silent).2)

end State

end LoanCheck
