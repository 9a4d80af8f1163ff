import LoanCheck.Proofs.Check.Composition

/-!
# Diagnostics stand in the order of the statements

Each statement adds its diagnostics after those of the statements before it, all of them at its
own point and location.  The end of the unit is no statement, and adds none.
-/

namespace LoanCheck

/-- The diagnostics of the statements before a point, in their order. -/
structure State.InOrder (unit : CodeUnit) (point : Point) (state : State) : Prop where
  ordered : state.diagnostics.Pairwise fun first second => first.point ≤ second.point
  anchored : ∀ diagnostic ∈ state.diagnostics, ∃ earlier statement,
    unit.statements[earlier]? = some statement ∧ earlier < point ∧
      diagnostic.point = (earlier : Point) ∧ diagnostic.span = statement.loc

namespace State.InOrder

variable {unit : CodeUnit} {point : Point} {before after : State}

theorem empty (unit : CodeUnit) : InOrder unit 0 {} :=
  ⟨.nil, fun _ told => absurd told List.not_mem_nil⟩

/-- A statement may report anything, as long as it is anchored at that statement. -/
theorem next {statement : Statement} {kinds : List DiagnosticKind}
    (listed : unit.statements[point]? = some statement) (inOrder : before.InOrder unit point)
    (reports : before.Reports (Diagnostic.Anchored point statement.loc kinds) after) :
    after.InOrder unit (point + 1) := by
  obtain ⟨added, same, fits⟩ := reports
  refine ⟨?_, ?_⟩
  · rw [same, List.pairwise_append]
    refine ⟨inOrder.ordered, ?_, ?_⟩
    · refine List.pairwise_of_forall_mem_list ?_
      intro first firstAdded second secondAdded
      exact Int.le_of_eq ((fits first firstAdded).1.trans (fits second secondAdded).1.symm)
    · intro first earlierTold second secondAdded
      obtain ⟨earlier, _, _, past, at_point, _⟩ := inOrder.anchored first earlierTold
      rw [at_point, (fits second secondAdded).1]
      exact Int.ofNat_le.mpr (Nat.le_of_lt past)
  · intro diagnostic told
    rw [same, List.mem_append] at told
    rcases told with old | new
    · obtain ⟨earlier, statement, known, past, anchored⟩ := inOrder.anchored diagnostic old
      exact ⟨earlier, statement, known, Nat.lt_succ_of_lt past, anchored⟩
    · obtain ⟨at_point, at_span, _⟩ := fits diagnostic new
      exact ⟨point, statement, listed, Nat.lt_succ_self point, at_point, at_span⟩

end State.InOrder

namespace CodeUnit

variable {unit : CodeUnit} {tree : ScopeTree}

theorem inOrder_stateBefore (built : unit.scopeTree = .ok tree) (config : Config) {point : Point}
    (inside : point ≤ unit.statements.length) :
    ((Context.ofTree config tree).stateBefore point).InOrder unit point := by
  obtain ⟨builder, _, reached, _⟩ := leads_builderAt built inside
  refine walk_induction built config (fun point _ state => state.InOrder unit point)
    (.empty unit) ?_ inside reached
  intro point statement before resolution after rest state passage inOrder
  have reports := State.advance_reports (Context.ofTree config tree) state resolution
  rw [passage.resolves.at_point, passage.resolves.loc] at reports
  exact inOrder.next passage.listed reports

/-- An analysis that comes to an end is a run over the scope tree. -/
theorem scopeTree_of_check {config : Config} {recordStates : Bool} {outcome : Outcome}
    (checked : unit.check config recordStates = .ok outcome) :
    ∃ tree, unit.scopeTree = .ok tree ∧ outcome.context = Context.ofTree config tree ∧
      outcome.final = (Context.ofTree config tree).run := by
  rw [check, bind_eq_ok_iff] at checked
  obtain ⟨_, _, checked⟩ := checked
  split at checked
  · cases checked
  · cases checked
  · next tree built =>
      cases checked
      exact ⟨tree, built, rfl, rfl⟩

/-- Diagnostics come in the order of the statements they are about.  Each one is at the point and
the location of a statement of the unit, so the end of the unit, which is none, tells of nothing:
all diagnostics are there before it. -/
theorem diagnostics_follow_statements {config : Config} {recordStates : Bool} {outcome : Outcome}
    (checked : unit.check config recordStates = .ok outcome) :
    outcome.diagnostics.Pairwise (fun first second => first.point ≤ second.point) ∧
      (∀ diagnostic ∈ outcome.diagnostics, ∃ point statement,
        unit.statements[point]? = some statement ∧ point < unit.statements.length ∧
          diagnostic.point = (point : Point) ∧ diagnostic.span = statement.loc) ∧
      outcome.diagnostics =
        (outcome.context.walk {} outcome.context.tree.resolved).diagnostics := by
  obtain ⟨tree, built, context, final⟩ := scopeTree_of_check checked
  have leads : Builder.Leads (Context.ofTree config tree).tree 0 {} _ :=
    (Builder.leads_of_scopeTree built).2
  have silent := Context.run_diagnostics leads
  have inOrder := inOrder_stateBefore built config (Nat.le_refl _)
  rw [← length_of_scopeTree built] at inOrder
  obtain ⟨ordered, anchored⟩ := inOrder
  rw [Outcome.diagnostics, final, context, silent]
  refine ⟨ordered, ?_, ?_⟩
  · intro diagnostic told
    obtain ⟨point, statement, listed, _, at_point⟩ := anchored diagnostic told
    exact ⟨point, statement, listed, (List.getElem?_eq_some_iff.mp listed).1, at_point⟩
  · rw [Context.stateBefore, List.take_length]

end CodeUnit

/-- A unit whose statements stand on lines of their own, with blank lines between them. -/
def spacedOut : CodeUnit where
  name := "spaced out"
  statements := [
    ⟨.declare (.str "r") (.bool true) (.bool false), { line := some 1 }⟩,
    ⟨.enter, { line := some 3 }⟩,
    ⟨.bind (.str "x") (.bool false) none (.bool false) (.bool false), { line := some 4 }⟩,
    ⟨.borrow .shared (.str "r") (.str "x"), { line := some 6 }⟩,
    ⟨.write (.str "x"), { line := some 9 }⟩,
    ⟨.exit, { line := some 12 }⟩,
    ⟨.borrow .shared (.str "s") (.str "r"), { line := some 20 }⟩]

/-- A write breaks two rules, and the end of a block is told of at its own line. -/
theorem spacedOut_diagnostics_follow_statements :
    ∃ outcome, spacedOut.check {} false = .ok outcome ∧
      outcome.diagnostics.map (fun diagnostic => (diagnostic.point, diagnostic.span.line)) =
        [(4, some 9), (4, some 9), (5, some 12)] ∧
      outcome.diagnostics.Pairwise (fun first second => first.point ≤ second.point) ∧
      (∀ diagnostic ∈ outcome.diagnostics, ∃ point statement,
        spacedOut.statements[point]? = some statement ∧ point < 7 ∧
          diagnostic.point = (point : Point) ∧ diagnostic.span = statement.loc) ∧
      outcome.diagnostics =
        (outcome.context.walk {} outcome.context.tree.resolved).diagnostics := by
  have told : ((spacedOut.check {} false).toOption.map fun outcome =>
      outcome.diagnostics.map fun diagnostic => (diagnostic.point, diagnostic.span.line)) =
        some [(4, some 9), (4, some 9), (5, some 12)] := by
    decide +kernel
  obtain ⟨outcome, found, lines⟩ := Option.map_eq_some_iff.mp told
  have checked := toOption_eq_some_iff.mp found
  exact ⟨outcome, checked, lines, CodeUnit.diagnostics_follow_statements checked⟩

end LoanCheck
