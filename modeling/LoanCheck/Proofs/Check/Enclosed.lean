import LoanCheck.Proofs.Check.Composition

/-!
# The end of a unit is the end of a scope

The outermost scope ends with the unit, without a statement that says so.  To put a unit into a
scope of its own makes that end a statement, and nothing else comes of it: the same is reported,
one point later, and neither the end of the new scope nor that of the outermost one reports
anything, because what the places of a scope keep has ended before they are dropped.
-/

namespace LoanCheck

/-- The statements of a unit between the markers of a scope. -/
def CodeUnit.enclosed (unit : CodeUnit) (opening closing : Span) : CodeUnit :=
  { unit with
    statements :=
      { action := .enter, loc := opening } ::
        (unit.statements ++ [{ action := .exit, loc := closing }]) }

theorem CodeUnit.length_enclosed (unit : CodeUnit) (opening closing : Span) :
    (unit.enclosed opening closing).statements.length = unit.statements.length + 2 := by
  simp [enclosed]

/-- The shift of a unit in a scope of its own. -/
def Shift.enclosed : Shift where
  places := 0
  points := 1
  borrows := 0
  scopes := follow 1 2

/-- A tree whose outermost scope has one part, the scope of another tree. -/
structure ScopeTree.Encloses (inner tree : ScopeTree) : Prop where
  embeds : inner.Embeds .enclosed tree
  root : tree.placesOf 1 = inner.placesOf rootId
  resolved : ∃ first last : Resolution, first.effect = .enter ∧ last.effect = .exit 1 ∧
    tree.resolved = first :: (inner.resolved.map Shift.enclosed.resolution ++ [last])

section Scopes

variable {opening closing : Span} {guest host : Builder}
  (embeds : Builder.Embeds (({} : Builder).enter 0 opening) .enclosed guest host)

include embeds

theorem Builder.Embeds.placesIn_enclosed (scope : ScopeId) :
    host.placesIn (Shift.enclosed.scopes scope) = guest.placesIn scope := by
  have unmoved : (fun place : PlaceId => place + Shift.enclosed.places) = id := rfl
  cases scope with
  | zero =>
      have root := embeds.root
      rw [unmoved, List.map_id] at root
      exact root
  | succ inner =>
      have listed := embeds.inner inner
      rw [unmoved, List.map_id] at listed
      exact listed

/-- Where the unit ends, the scope around it can be left and is the last one. -/
theorem Builder.Embeds.exit_enclosed {unit whole : CodeUnit} {inner : ScopeTree}
    (wellFormed : guest.WellFormed unit.endPoint) (finished : guest.finish unit = .ok inner)
    (point : Point) :
    ∃ last tree, host.exit point closing = .ok last ∧ last.finish whole = .ok tree ∧
      inner.Encloses tree := by
  obtain ⟨alone, _, innerPlaces, innerResolved, _⟩ := finish_cases finished
  have opened := embeds.openScopes
  rw [alone, current_of_finish wellFormed finished] at opened
  obtain ⟨current, outer⟩ := List.cons.inj opened
  obtain ⟨last, left⟩ : ∃ last, host.exit point closing = .ok last := by
    simp only [Builder.exit, show host.outer = [ScopeTree.rootId] from outer]
    exact ⟨_, rfl⟩
  obtain ⟨scopes, _, places, _, resolved⟩ := exit_cases left
  have rest : last.outer = [] := by
    have remaining := (List.cons.inj (opened.symm.trans scopes)).2
    exact (List.cons.inj remaining).2.symm
  obtain ⟨tree, treeFinished⟩ : ∃ tree, last.finish whole = .ok tree := by
    rw [Builder.finish, rest]
    exact ⟨_, rfl⟩
  obtain ⟨_, _, allPlaces, allResolved, _⟩ := finish_cases treeFinished
  have listed : ∀ scope, tree.placesOf (Shift.enclosed.scopes scope) = inner.placesOf scope := by
    intro scope
    rw [placesOf_of_finish treeFinished, placesIn_exit left, embeds.placesIn_enclosed,
      placesOf_of_finish finished]
  refine ⟨last, tree, left, treeFinished, ⟨?_, ?_⟩, listed ScopeTree.rootId, ?_⟩
  · intro place _
    rw [allPlaces, places, innerPlaces]
    exact embeds.getElem?_places place
  · intro scope _ _
    rw [listed]
    exact (List.map_id _).symm
  · rw [allResolved, resolved, embeds.resolved, innerResolved,
      show host.current = Shift.enclosed.scopes ScopeTree.rootId from current]
    exact ⟨_, _, rfl, rfl, rfl⟩

end Scopes

/-- A unit that has a scope tree has one in a scope of its own. -/
theorem CodeUnit.encloses_of_scopeTree {unit : CodeUnit} {inner : ScopeTree}
    (built : unit.scopeTree = .ok inner) (opening closing : Span) :
    ∃ tree, (unit.enclosed opening closing).scopeTree = .ok tree ∧ inner.Encloses tree := by
  rw [scopeTree, bind_eq_ok_iff] at built
  obtain ⟨guest, taken, finished⟩ := built
  have entered : Builder.step {} 0 { action := .enter, loc := opening } =
      .ok (({} : Builder).enter 0 opening) := rfl
  have regular := Builder.regular_empty.step entered
  have guestRegular := Builder.regular_empty.run taken
  rw [Nat.zero_add] at guestRegular
  obtain ⟨host, hostTaken, embeds⟩ :=
    (Builder.embeds_empty (({} : Builder).enter 0 opening) 1 0).run regular Builder.regular_empty
      regular (fun _ _ _ _ _ _ _ there => absurd there List.not_mem_nil) taken
  obtain ⟨last, tree, left, treeFinished, encloses⟩ :=
    Builder.Embeds.exit_enclosed embeds guestRegular.wellFormed finished
      (0 + 1 + unit.statements.length)
  refine ⟨tree, bind_eq_ok_iff.mpr ⟨last, ?_, treeFinished⟩, encloses⟩
  refine bind_eq_ok_iff.mpr ⟨_, entered, ?_⟩
  rw [Builder.run_append]
  exact bind_eq_ok_iff.mpr ⟨host, hostTaken, bind_eq_ok_iff.mpr ⟨last, left, rfl⟩⟩

/-- At the beginning two analyses are in step if one knows the places of the other. -/
theorem State.embeds_initial {shift : Shift} {guest host : Context}
    (embeds : guest.tree.Embeds shift host.tree) (first : shift.borrows = 0) :
    State.Embeds shift guest host {} {} {} where
  ownership := fun _ known => embeds.freshRecord_eq known
  ledger :=
    { guestConsistent := Ledger.consistent_empty
      hostConsistent := Ledger.consistent_empty
      inside := fun _ absent => absurd absent List.not_mem_nil
      borrows := ⟨[], first.symm, fun _ absent => absurd absent List.not_mem_nil, rfl⟩ }
  escapes := rfl
  noted := fun _ absent => absurd absent List.not_mem_nil
  apart := fun _ _ => List.not_mem_nil
  diagnostics := rfl

/-- To open a scope before anything else changes nothing. -/
theorem Context.advance_enter (context : Context) {resolution : Resolution}
    (enters : resolution.effect = .enter) : context.advance {} resolution = {} := by
  simp only [advance, State.step, enters, State.retireDead]
  split <;> rfl

namespace ScopeTree.Encloses

section Resolved

variable {inner tree : ScopeTree} (encloses : inner.Encloses tree)

include encloses

theorem length_resolved : tree.resolved.length = inner.resolved.length + 2 := by
  obtain ⟨first, last, _, _, resolved⟩ := encloses.resolved
  rw [resolved, List.length_cons, List.length_append, List.length_map, List.length_singleton]

theorem getElem?_resolved {point : Point} {resolution : Resolution}
    (listed : inner.resolved[point]? = some resolution) :
    tree.resolved[point + 1]? = some (Shift.enclosed.resolution resolution) := by
  obtain ⟨first, last, _, _, resolved⟩ := encloses.resolved
  have inside := (List.getElem?_eq_some_iff.mp listed).1
  rw [resolved, List.getElem?_cons_succ, List.getElem?_append_left (by rwa [List.length_map]),
    List.getElem?_map, listed]
  rfl

theorem first_enters : ∃ first, tree.resolved[0]? = some first ∧ first.effect = .enter := by
  obtain ⟨first, _, enters, _, resolved⟩ := encloses.resolved
  exact ⟨first, congrArg (·[0]?) resolved, enters⟩

theorem last_leaves :
    ∃ last, tree.resolved[inner.resolved.length + 1]? = some last ∧ last.effect = .exit 1 := by
  obtain ⟨_, last, _, leaves, resolved⟩ := encloses.resolved
  refine ⟨last, ?_, leaves⟩
  rw [resolved, List.getElem?_cons_succ, ← List.length_map Shift.enclosed.resolution,
    List.getElem?_concat_length]

/-- The markers use no place. -/
theorem liveness_agree (known : ∀ resolution ∈ inner.resolved, resolution.effect.Within inner) :
    Liveness.Agree .enclosed inner.places.length inner.liveness tree.liveness := by
  obtain ⟨first, last, enters, leaves, resolved⟩ := encloses.resolved
  have between : tree.resolved =
      [first] ++ (inner.resolved.map Shift.enclosed.resolution ++ [last]) := resolved
  apply ScopeTree.liveness_agree encloses.embeds known between
  intro resolution listed use source
  rcases List.mem_cons.mp listed with rfl | isLast
  · rw [enters] at source
    cases source
  · rw [List.mem_singleton.mp isLast, leaves] at source
    cases source

end Resolved

variable {guest host : Context} (encloses : guest.tree.Encloses host.tree)
  (contexts : guest.Embeds .enclosed host)
  (leads : Builder.Leads guest.tree 0 {} guest.tree.resolved)
  (known : ∀ resolution ∈ guest.tree.resolved, resolution.effect.Within guest.tree)

include encloses contexts leads known

/-- Up to the closing marker the unit is judged as on its own. -/
theorem embeds_stateBefore :
    State.Embeds .enclosed guest host {} (guest.stateBefore guest.tree.resolved.length)
      (host.stateBefore (guest.tree.resolved.length + 1)) := by
  apply Context.embeds_stateBefore contexts leads known
    (fun _ _ listed => encloses.getElem?_resolved listed) _ (Nat.le_refl _)
  obtain ⟨first, isFirst, enters⟩ := encloses.first_enters
  have start : host.stateBefore 1 = {} :=
    (Context.stateBefore_succ isFirst).trans (host.advance_enter enters)
  rw [show Shift.enclosed.points = 1 from rfl, start]
  exact State.embeds_initial encloses.embeds rfl

/-- The places of the unit keep all borrows that are active where it ends. -/
theorem holder_remains {borrow : Borrow}
    (listed : borrow ∈ (host.stateBefore (guest.tree.resolved.length + 1)).ledger.borrows)
    (active : borrow.isActive = true) :
    borrow.holder ∈
      (host.stateBefore (guest.tree.resolved.length + 1)).ownership.remaining host.tree 1 := by
  have embeds := encloses.embeds_stateBefore contexts leads known
  obtain ⟨others, count, _, borrows⟩ := embeds.ledger.borrows
  rw [borrows, List.eq_nil_of_length_eq_zero count, List.nil_append] at listed
  obtain ⟨own, ownListed, rfl⟩ := List.mem_map.mp listed
  have inside := (embeds.ledger.inside own ownListed).2
  have remains := Context.holder_remains leads ownListed
    ((Shift.isActive_borrow own).symm.trans active)
  simp only [Ownership.remaining, List.mem_filter] at remains ⊢
  rw [encloses.root, Shift.holder_borrow, embeds.ownership.stateOf_eq inside]
  exact remains

/-- The end of the new scope reports nothing, and neither does that of the outermost one. -/
theorem run_diagnostics (outerLeads : Builder.Leads host.tree 0 {} host.tree.resolved) :
    host.run.diagnostics =
      (host.stateBefore (guest.tree.resolved.length + 1)).diagnostics := by
  obtain ⟨last, isLast, leaves⟩ := encloses.last_leaves
  obtain ⟨_, _, sound⟩ := Context.sound_stateBefore outerLeads
    (Nat.le_of_lt (List.getElem?_eq_some_iff.mp isLast).1)
  have exits := State.exitScope_of_kept sound.consistent
    (fun _ => encloses.holder_remains contexts leads known) last.point last.loc
  rw [Context.run_diagnostics outerLeads, encloses.length_resolved,
    Context.stateBefore_succ isLast, Context.advance, State.retireDead_diagnostics]
  simp only [State.step, leaves]
  exact exits

end ScopeTree.Encloses

/-- The end of a unit is that of a scope.  Put into a scope of its own, a unit is analysed and
has the reports it has on its own, each one point later; all of them have been made before the
new scope ends. -/
theorem CodeUnit.enclosed_judged_alike {unit : CodeUnit} {inner : ScopeTree}
    (built : unit.scopeTree = .ok inner) (opening closing : Span) :
    ∃ tree, (unit.enclosed opening closing).scopeTree = .ok tree ∧
      ∀ (config : Config) (recordStates : Bool),
        config.admits (unit.enclosed opening closing) = .ok () →
          ∃ own whole,
            unit.check config recordStates = .ok own ∧
            (unit.enclosed opening closing).check config recordStates = .ok whole ∧
            whole.diagnostics.map Diagnostic.bare =
              own.diagnostics.map (fun diagnostic => (diagnostic.moved 1 0).bare) ∧
            whole.diagnostics =
              (whole.context.stateBefore (unit.statements.length + 1)).diagnostics := by
  obtain ⟨tree, outerBuilt, encloses⟩ := encloses_of_scopeTree built opening closing
  refine ⟨tree, outerBuilt, ?_⟩
  intro config recordStates admitted
  have room : config.admits unit = .ok () := by
    refine Config.admits_of_length_le ?_ admitted
    rw [length_enclosed]
    exact Nat.le_add_right _ _
  obtain ⟨_, own⟩ := check_of_scopeTree room built recordStates
  obtain ⟨_, whole⟩ := check_of_scopeTree admitted outerBuilt recordStates
  have leads := (Builder.leads_of_scopeTree built).2
  have known : ∀ resolution ∈ inner.resolved, resolution.effect.Within inner :=
    fun _ => within_of_scopeTree built
  have contexts := Context.embeds_ofTree encloses.embeds (encloses.liveness_agree known) config
  have embeds := ScopeTree.Encloses.embeds_stateBefore encloses contexts leads known
  have silent := ScopeTree.Encloses.run_diagnostics encloses contexts leads known
    (Builder.leads_of_scopeTree outerBuilt).2
  refine ⟨_, _, own, whole, ?_, ?_⟩
  · have all : (Context.ofTree config inner).run.diagnostics =
        ((Context.ofTree config inner).stateBefore inner.resolved.length).diagnostics :=
      Context.run_diagnostics leads
    rw [Outcome.diagnostics, Outcome.diagnostics, silent, embeds.diagnostics, all]
    rfl
  · rw [← length_of_scopeTree built]
    exact silent

/-- The end of the inner scope reports a reference that outlives its place, the end of the one
around the unit does not report those of the unit. -/
theorem outlivedWhileLent_enclosed :
    ∃ own whole,
      outlivedWhileLent.check {} false = .ok own ∧
      (outlivedWhileLent.enclosed {} {}).check {} false = .ok whole ∧
      (own.diagnostics.map fun diagnostic => (diagnostic.point, diagnostic.borrow)) =
        [(4, some 0), (5, some 0)] ∧
      (whole.diagnostics.map fun diagnostic => (diagnostic.point, diagnostic.borrow)) =
        [(5, some 0), (6, some 0)] ∧
      whole.diagnostics.map Diagnostic.bare =
        own.diagnostics.map (fun diagnostic => (diagnostic.moved 1 0).bare) ∧
      whole.diagnostics = (whole.context.stateBefore 7).diagnostics := by
  have found : outlivedWhileLent.scopeTree.toOption.isSome = true := by decide +kernel
  obtain ⟨inner, built⟩ := Option.isSome_iff_exists.mp found
  obtain ⟨_, _, judged⟩ :=
    CodeUnit.enclosed_judged_alike (toOption_eq_some_iff.mp built) {} {}
  obtain ⟨own, whole, checked, checkedWhole, alike, silent⟩ := judged {} false rfl
  have told : ((outlivedWhileLent.check {} false).toOption.map fun outcome =>
      outcome.diagnostics.map fun diagnostic => (diagnostic.point, diagnostic.borrow)) =
        some [(4, some 0), (5, some 0)] := by
    decide +kernel
  have toldWhole : (((outlivedWhileLent.enclosed {} {}).check {} false).toOption.map fun outcome =>
      outcome.diagnostics.map fun diagnostic => (diagnostic.point, diagnostic.borrow)) =
        some [(5, some 0), (6, some 0)] := by
    decide +kernel
  rw [checked] at told
  rw [checkedWhole] at toldWhole
  exact ⟨own, whole, checked, checkedWhole, Option.some.inj told, Option.some.inj toldWhole, alike,
    silent⟩

end LoanCheck
