import LoanCheck.Proofs.Check.Frozen
import LoanCheck.Proofs.Loan.Relaxation

/-!
# Ending borrows early relaxes the analysis

The same unit is analysed twice: once every borrow lasts as long as its holder, once it ends with
the last use of its holder.  What the first run admits in silence, the second one admits, because
fewer borrows are active in it.  So the two runs stay in step from statement to statement.
-/

namespace LoanCheck

namespace State

variable {context : Context} {state : State} {place : PlaceId} {point : Point} {span : Span}

theorem requireOwned_of_kept {action : String}
    (kept : state.ownership.stateOf context.tree place = .owned ∨
      state.ownership.stateOf context.tree place = .dropped) :
    requireOwned context state place point action span = (state, true) := by
  unfold requireOwned
  rcases kept with owned | dropped
  · rw [owned]
  · rw [dropped]

theorem consumeSource_of_free {action : String}
    (kept : state.ownership.stateOf context.tree place = .owned ∨
      state.ownership.stateOf context.tree place = .dropped)
    (free : state.ledger.activeOn place = [] ∨
      (state.ownership.record context.tree place).copy.isTrue = true) :
    consumeSource context state place point span action =
      { state with ownership := state.ownership.moveOut context.tree place } := by
  simp only [consumeSource, requireOwned_of_kept kept]
  rcases free with unborrowed | copied
  · rw [unborrowed]
  · cases state.ledger.activeOn place <;> simp [copied]

theorem checkDrop_of_free (free : state.ledger.activeOn place = []) :
    checkDrop context state place point span = state := by
  rw [checkDrop, free]
  rfl

theorem overwrite_of_free (free : state.ledger.activeOn place = []) :
    overwrite context state place point span = state.retireHeldBy place point := by
  rw [overwrite, free]

theorem writeThroughBorrow_of_writable {holder : PlaceId} {borrow : Borrow}
    (writable : state.ledger.Writable borrow) :
    writeThroughBorrow context state holder point span borrow = state := by
  have alone : (state.ledger.activeOn borrow.referent).filter
      (fun other => other.id != borrow.id) = [] := by
    rw [List.filter_eq_nil_iff]
    intro other membership
    simp [writable.2 other membership]
  simp only [writeThroughBorrow, writable.1, alone]

theorem writeThroughBorrow_of_silent {holder : PlaceId} {borrow : Borrow}
    (silent : (writeThroughBorrow context state holder point span borrow).diagnostics = []) :
    state.ledger.Writable borrow := by
  simp only [writeThroughBorrow] at silent
  split at silent
  · exact absurd silent (report_ne_nil _ _ _ _ _ _ _)
  · next exclusive =>
      split at silent
      · next alone =>
          refine ⟨exclusive, ?_⟩
          intro other membership
          simpa using List.filter_eq_nil_iff.mp alone other membership
      · exact absurd silent (report_ne_nil _ _ _ _ _ _ _)

theorem foldl_writeThroughBorrow_of_writable {holder : PlaceId} {borrows : List Borrow}
    (writable : ∀ borrow ∈ borrows, state.ledger.Writable borrow) :
    borrows.foldl
      (fun state borrow => writeThroughBorrow context state holder point span borrow) state =
        state := by
  induction borrows with
  | nil => rfl
  | cons first rest inductionHypothesis =>
      rw [List.foldl_cons, writeThroughBorrow_of_writable (writable first List.mem_cons_self)]
      exact inductionHypothesis fun borrow later => writable borrow (List.mem_cons_of_mem _ later)

theorem foldl_writeThroughBorrow_of_silent {holder : PlaceId} {borrows : List Borrow}
    (silent : (borrows.foldl
      (fun state borrow => writeThroughBorrow context state holder point span borrow)
      state).diagnostics = []) : ∀ borrow ∈ borrows, state.ledger.Writable borrow := by
  induction borrows with
  | nil => exact fun _ membership => absurd membership List.not_mem_nil
  | cons first rest inductionHypothesis =>
      rw [List.foldl_cons] at silent
      have writable := writeThroughBorrow_of_silent
        ((foldl_writeThroughBorrow_becomes context holder point span rest _).silent_before silent)
      rw [writeThroughBorrow_of_writable writable] at silent
      intro borrow membership
      rcases List.mem_cons.mp membership with rfl | later
      · exact writable
      · exact inductionHypothesis silent borrow later

/-- A value may be written if it is mutable and not borrowed, and what a reference refers to if
each borrow that it keeps is exclusive and alone. -/
structure MayWrite (tree : ScopeTree) (state : State) (place : PlaceId) : Prop where
  mutable : tree.holdsReference place = false → state.ownership.isMutable tree place = true
  free : state.ledger.activeOn place = []
  through : tree.holdsReference place = true →
    ∀ borrow ∈ state.ledger.heldBy place, state.ledger.Writable borrow

theorem mayWrite_of_silent
    (silent : (writeOwned context state place point span).diagnostics = []) :
    state.MayWrite context.tree place := by
  have free := writeOwned_of_silent silent
  simp only [writeOwned] at silent
  cases reference : context.tree.holdsReference place with
  | true =>
      simp only [reference, Bool.not_true, Bool.false_and, Bool.false_eq_true, if_false, if_true,
        free] at silent
      refine ⟨fun isValue => ?_, free, fun _ => foldl_writeThroughBorrow_of_silent silent⟩
      cases reference.symm.trans isValue
  | false =>
      cases mutable : state.ownership.isMutable context.tree place with
      | true =>
          refine ⟨fun _ => mutable, free, fun isReference => ?_⟩
          cases reference.symm.trans isReference
      | false =>
          simp [reference, mutable, reportPlace, report, free] at silent

theorem writeOwned_of_mayWrite (may : state.MayWrite context.tree place) :
    writeOwned context state place point span = state := by
  simp only [writeOwned]
  cases reference : context.tree.holdsReference place with
  | true =>
      simp only [Bool.not_true, Bool.false_and, Bool.false_eq_true, if_false, if_true, may.free]
      exact foldl_writeThroughBorrow_of_writable (may.through reference)
  | false => simp [may.mutable reference, may.free]

/-- Two states that agree on ownership, where borrows of the narrow one may have ended early and
nothing was reported in it. -/
structure Relaxes (now : Point) (broad narrow : State) : Prop where
  ownership : narrow.ownership = broad.ownership
  ledger : broad.ledger.Relaxes now narrow.ledger
  silent : narrow.diagnostics = []

namespace Relaxes

variable {broad narrow : State} {now : Point} (relaxes : Relaxes now broad narrow)

include relaxes

theorem own {first second : Ownership} (same : second = first) :
    Relaxes now { broad with ownership := first } { narrow with ownership := second } :=
  { relaxes with ownership := same }

theorem retireHeldBy (holder : PlaceId) (later : now ≤ point) :
    Relaxes now (broad.retireHeldBy holder point) (narrow.retireHeldBy holder point) :=
  { relaxes with ledger := relaxes.ledger.retireHeldBy holder later }

theorem requireOwned {action : String}
    (kept : broad.ownership.stateOf context.tree place = .owned ∨
      broad.ownership.stateOf context.tree place = .dropped) :
    State.requireOwned context narrow place point action span = (narrow, true) := by
  apply requireOwned_of_kept
  rw [relaxes.ownership]
  exact kept

theorem consumeSource {action : String}
    (silent : (State.consumeSource context broad place point span action).diagnostics = []) :
    Relaxes now (State.consumeSource context broad place point span action)
      (State.consumeSource context narrow place point span action) := by
  obtain ⟨kept, free⟩ := consumeSource_of_silent silent
  rw [consumeSource_of_free kept free, consumeSource_of_free]
  · exact relaxes.own (by rw [relaxes.ownership])
  · rw [relaxes.ownership]
    exact kept
  · rw [relaxes.ownership]
    exact free.imp_left relaxes.ledger.activeOn_eq_nil

theorem dropPlace (later : now ≤ point)
    (silent : (State.dropPlace context broad place point span).diagnostics = []) :
    Relaxes now (State.dropPlace context broad place point span)
      (State.dropPlace context narrow place point span) := by
  have free := checkDrop_of_silent silent
  have ended := relaxes.retireHeldBy place later
  simp only [State.dropPlace, checkDrop_of_free free,
    checkDrop_of_free (ended.ledger.activeOn_eq_nil free)]
  exact ended.own (by rw [ended.ownership])

theorem declareFresh {shadowed : Option PlaceId} (later : now ≤ point)
    (silent : (State.declareFresh context broad place shadowed point span).diagnostics = []) :
    Relaxes now (State.declareFresh context broad place shadowed point span)
      (State.declareFresh context narrow place shadowed point span) := by
  cases shadowed with
  | none => exact relaxes.own (by rw [relaxes.ownership])
  | some old =>
      have dropped := relaxes.dropPlace later silent
      exact dropped.own (by rw [dropped.ownership])

theorem assignPlace
    (silent : (State.assignPlace context broad place point span).1.diagnostics = []) :
    Relaxes now (State.assignPlace context broad place point span).1
      (State.assignPlace context narrow place point span).1 := by
  simp only [State.assignPlace, relaxes.ownership] at silent ⊢
  split at silent
  · exact absurd silent (report_ne_nil _ _ _ _ _ _ _)
  · next admitted =>
      rw [if_neg admitted, if_neg admitted]
      exact relaxes.own (by rw [relaxes.ownership])

theorem assignTarget {target : Target} (later : now ≤ point)
    (silent : (State.assignTarget context broad target point span).diagnostics = []) :
    Relaxes now (State.assignTarget context broad target point span)
      (State.assignTarget context narrow target point span) := by
  cases target with
  | existing place =>
      have overwritten := (assignPlace_becomes context _ place point span).silent_before silent
      have free := overwrite_of_silent overwritten
      simp only [State.assignTarget, overwrite_of_free free,
        overwrite_of_free (relaxes.ledger.activeOn_eq_nil free)] at silent ⊢
      exact (relaxes.retireHeldBy place later).assignPlace silent
  | fresh place shadowed rebinds =>
      have declared : Relaxes now (State.declareFresh context broad place shadowed point span)
          (State.declareFresh context narrow place shadowed point span) :=
        relaxes.declareFresh later silent
      exact declared.own (by rw [declared.ownership])

theorem bindPlace {mutable copy : Flag} {fresh : Bool} {broadNotes narrowNotes : List String}
    (silent : (State.bindPlace context broad place point mutable copy fresh span
      broadNotes).1.diagnostics = []) :
    Relaxes now (State.bindPlace context broad place point mutable copy fresh span broadNotes).1
      (State.bindPlace context narrow place point mutable copy fresh span narrowNotes).1 := by
  simp only [State.bindPlace, relaxes.ownership] at silent ⊢
  split at silent
  · exact absurd silent (report_ne_nil _ _ _ _ _ _ _)
  · next admitted =>
      rw [if_neg admitted, if_neg admitted]
      exact relaxes.own (by rw [relaxes.ownership])

theorem rebindTarget {target : Target} {mutable copy : Flag} (later : now ≤ point)
    (silent : (State.rebindTarget context broad target mutable copy point span).diagnostics = []) :
    Relaxes now (State.rebindTarget context broad target mutable copy point span)
      (State.rebindTarget context narrow target mutable copy point span) := by
  cases target with
  | existing place =>
      have lost : ¬(broad.ownership.stateOf context.tree place == .owned) = true := by
        simpa using rebindTarget_of_silent silent
      simp only [State.rebindTarget, relaxes.ownership, if_neg lost] at silent ⊢
      exact relaxes.bindPlace silent
  | fresh place shadowed rebinds =>
      simp only [State.rebindTarget] at silent ⊢
      have declared := (bindPlace_becomes context _ place point mutable copy true span
        []).silent_before silent
      cases shadowed with
      | none => exact (relaxes.declareFresh later declared).bindPlace silent
      | some old =>
          simp only [relaxes.ownership] at silent declared ⊢
          have before := (declareFresh_becomes context _ place (some old) point
            span).silent_before declared
          split at before
          · exact absurd before (report_ne_nil _ _ _ _ _ _ _)
          · next admitted =>
              rw [if_neg admitted] at silent declared ⊢
              rw [if_neg admitted]
              exact (relaxes.declareFresh later declared).bindPlace silent

/-- A reference is passed on in both runs. -/
theorem passOn (source : Use) (target : Target) :
    Relaxes now
      (if !source.escaped && context.tree.holdsReference source.place then
        State.transfer context broad source.place target.place
      else broad)
      (if !source.escaped && context.tree.holdsReference source.place then
        State.transfer context narrow source.place target.place
      else narrow) := by
  split
  · exact { relaxes with ledger := relaxes.ledger.transfer context.tree _ _ }
  · exact relaxes

theorem takeSource {source : Use} (quiet : broad.Quiet)
    (silent : (State.takeSource context broad source point span).1.diagnostics = []) :
    Relaxes now (State.takeSource context broad source point span).1
      (State.takeSource context narrow source point span).1 := by
  obtain ⟨inside, same⟩ := takeSource_of_silent quiet silent
  have alsoSame : (State.takeSource context narrow source point span).1 =
      State.consumeSource context narrow source.place point span "move" := by
    simp [State.takeSource, liveUse, inside]
  rw [same] at silent ⊢
  rw [alsoSame]
  exact relaxes.consumeSource silent

theorem checkReferent {kind : BorrowKind}
    (silent : (State.checkReferent context broad kind place point span).diagnostics = []) :
    Relaxes now (State.checkReferent context broad kind place point span)
      (State.checkReferent context narrow kind place point span) := by
  have kept := checkReferent_of_silent silent
  simp only [State.checkReferent, requireOwned_of_kept kept, relaxes.requireOwned kept,
    relaxes.ownership] at silent ⊢
  split at silent
  · exact absurd silent (report_ne_nil _ _ _ _ _ _ _)
  · next admitted =>
      rw [if_neg admitted, if_neg admitted]
      exact relaxes

theorem lend {kind : BorrowKind} {holder : PlaceId}
    (silent : (State.lend context broad place kind holder point span).diagnostics = []) :
    Relaxes now (State.lend context broad place kind holder point span)
      (State.lend context narrow place kind holder point span) := by
  have admitted := (lend_of_silent silent).2
  simp only [State.lend, admitted, relaxes.ledger.conflict?_eq_none admitted]
  exact { relaxes with ledger := relaxes.ledger.lend context.tree holder point span admitted }

theorem writeOwned
    (silent : (State.writeOwned context broad place point span).diagnostics = []) :
    Relaxes now (State.writeOwned context broad place point span)
      (State.writeOwned context narrow place point span) := by
  have may := mayWrite_of_silent silent
  have alsoMay : narrow.MayWrite context.tree place := by
    refine ⟨?_, relaxes.ledger.activeOn_eq_nil may.free, fun reference => ?_⟩
    · rw [relaxes.ownership]
      exact may.mutable
    · exact relaxes.ledger.writable (may.through reference)
  rw [writeOwned_of_mayWrite may, writeOwned_of_mayWrite alsoMay]
  exact relaxes

theorem foldl_retireHeldBy (places : List PlaceId) (later : now ≤ point) :
    Relaxes now (places.foldl (fun state place => state.retireHeldBy place point) broad)
      (places.foldl (fun state place => state.retireHeldBy place point) narrow) := by
  induction places generalizing broad narrow with
  | nil => exact relaxes
  | cons place rest inductionHypothesis =>
      exact inductionHypothesis (relaxes.retireHeldBy place later)

theorem foldl_dropPlace (places : List PlaceId) (later : now ≤ point)
    (silent : (places.foldl (fun state place => State.dropPlace context state place point span)
      broad).diagnostics = []) :
    Relaxes now
      (places.foldl (fun state place => State.dropPlace context state place point span) broad)
      (places.foldl (fun state place => State.dropPlace context state place point span)
        narrow) := by
  induction places generalizing broad narrow with
  | nil => exact relaxes
  | cons place rest inductionHypothesis =>
      have first := (foldl_dropPlace_becomes context rest point span _).silent_before silent
      exact inductionHypothesis (relaxes.dropPlace later first) silent

theorem exitScope {scope : ScopeId} (later : now ≤ point)
    (silent : (State.exitScope context broad scope point span).diagnostics = []) :
    Relaxes now (State.exitScope context broad scope point span)
      (State.exitScope context narrow scope point span) := by
  simp only [State.exitScope, relaxes.ownership] at silent ⊢
  exact (relaxes.foldl_retireHeldBy _ later).foldl_dropPlace _ later silent

theorem bind {target : Target} {source : Option Use} {mutable copy : Flag} (quiet : broad.Quiet)
    (later : now ≤ point)
    (silent : (State.bind context broad target source mutable copy point span).diagnostics = []) :
    Relaxes now (State.bind context broad target source mutable copy point span)
      (State.bind context narrow target source mutable copy point span) := by
  cases source with
  | none => exact relaxes.rebindTarget later silent
  | some source =>
      obtain ⟨rebound, taken⟩ := bind_of_silent silent
      rw [bind_some, bind_some]
      exact ((relaxes.takeSource quiet taken).rebindTarget later rebound).passOn source target

theorem move {target : Target} {source : Use} (quiet : broad.Quiet) (later : now ≤ point)
    (silent : (State.move context broad target source point span).diagnostics = []) :
    Relaxes now (State.move context broad target source point span)
      (State.move context narrow target source point span) := by
  obtain ⟨assigned, taken⟩ := move_of_silent silent
  rw [move_eq, move_eq]
  exact ((relaxes.takeSource quiet taken).assignTarget later assigned).passOn source target

theorem borrow {kind : BorrowKind} {target : Target} {source : Use} (quiet : broad.Quiet)
    (later : now ≤ point)
    (silent : (State.borrow context broad kind target source point span).diagnostics = []) :
    Relaxes now (State.borrow context broad kind target source point span)
      (State.borrow context narrow kind target source point span) := by
  obtain ⟨inside, assigned⟩ := readyToLend_of_silent quiet silent
  have referent := (assignTarget_becomes context _ target point span).silent_before assigned
  simp only [State.borrow, liveUse, inside, Bool.false_eq_true, if_false, if_true] at silent ⊢
  exact ((relaxes.checkReferent referent).assignTarget later assigned).lend silent

theorem read {source : Use} (quiet : broad.Quiet)
    (silent : (State.read context broad source point span).diagnostics = []) :
    Relaxes now (State.read context broad source point span)
      (State.read context narrow source point span) := by
  obtain ⟨inside, required⟩ := read_of_silent quiet silent
  have kept := (requireOwned_of_silent required).2
  simp only [State.read, liveUse, inside, Bool.false_eq_true, if_false, if_true,
    requireOwned_of_kept kept, relaxes.requireOwned kept]
  exact relaxes

theorem write {source : Use} (quiet : broad.Quiet)
    (silent : (State.write context broad source point span).diagnostics = []) :
    Relaxes now (State.write context broad source point span)
      (State.write context narrow source point span) := by
  obtain ⟨inside, kept, written⟩ := writeOwned_silent_of_write quiet silent
  simp only [State.write, liveUse, inside, Bool.false_eq_true, if_false, if_true,
    requireOwned_of_kept kept, relaxes.requireOwned kept]
  exact relaxes.writeOwned written

theorem consume {source : Use} (quiet : broad.Quiet) (later : now ≤ point)
    (silent : (State.consume context broad source point span).diagnostics = []) :
    Relaxes now (State.consume context broad source point span)
      (State.consume context narrow source point span) := by
  obtain ⟨inside, consumed⟩ := consume_of_silent quiet silent
  simp only [State.consume, liveUse, inside, Bool.false_eq_true, if_false, if_true]
  exact (relaxes.consumeSource consumed).retireHeldBy source.place (Nat.le_succ_of_le later)

theorem step {resolution : Resolution} (quiet : broad.Quiet) (later : now ≤ resolution.point)
    (silent : (broad.step context resolution).diagnostics = []) :
    Relaxes now (broad.step context resolution) (narrow.step context resolution) := by
  obtain ⟨point, scope, span, effect⟩ := resolution
  cases effect with
  | enter => exact relaxes
  | exit closes => exact relaxes.exitScope later silent
  | bind target source mutable copy => exact relaxes.bind quiet later silent
  | declare target => exact relaxes.declareFresh later silent
  | move target source => exact relaxes.move quiet later silent
  | borrow kind target source => exact relaxes.borrow quiet later silent
  | write source => exact relaxes.write quiet silent
  | read source => exact relaxes.read quiet silent
  | consume source => exact relaxes.consume quiet later silent

/-- Ending what is used no more affects the narrow state alone. -/
theorem retireDead (context : Context) (later : now ≤ point + 1) :
    Relaxes (point + 1) broad (narrow.retireDead context point) := by
  have becomes := retireDead_becomes context narrow point
  refine ⟨becomes.ownership.trans relaxes.ownership, ?_, ?_⟩
  · exact relaxes.ledger.endsEarly (becomes.consistent relaxes.ledger.narrowly)
      (becomes.borrows relaxes.ledger.narrowly) later
  · unfold State.retireDead
    split
    · exact relaxes.silent
    · exact relaxes.silent

end Relaxes

/-- Last uses matter only for what is ended after a statement. -/
theorem step_of_tree (tree : ScopeTree) (first second : Option Liveness) (state : State)
    (resolution : Resolution) :
    state.step ⟨tree, first⟩ resolution = state.step ⟨tree, second⟩ resolution := by
  obtain ⟨point, scope, span, effect⟩ := resolution
  cases effect <;> rfl

theorem Relaxes.advance {tree : ScopeTree} {broad narrow : State} {resolution : Resolution}
    (liveness : Liveness) (at_point : resolution.point = point)
    (relaxes : Relaxes point broad narrow) (quiet : broad.Quiet)
    (silent : ((Context.mk tree none).advance broad resolution).diagnostics = []) :
    Relaxes (point + 1) ((Context.mk tree none).advance broad resolution)
      ((Context.mk tree (some liveness)).advance narrow resolution) := by
  subst at_point
  have stepped := relaxes.step quiet (Nat.le_refl _) silent
  rw [step_of_tree tree none (some liveness) narrow] at stepped
  exact stepped.retireDead _ (Nat.le_succ _)

end State

namespace Context

variable {tree : ScopeTree}

theorem relaxes_stateBefore (leads : Builder.Leads tree 0 {} tree.resolved) (liveness : Liveness)
    (silent : (Context.mk tree none).run.diagnostics = []) {point : Point}
    (inside : point ≤ tree.resolved.length) :
    State.Relaxes point ((Context.mk tree none).stateBefore point)
      ((Context.mk tree (some liveness)).stateBefore point) := by
  induction point with
  | zero => exact ⟨rfl, ⟨Ledger.consistent_empty, Ledger.consistent_empty, .nil⟩, rfl⟩
  | succ point inductionHypothesis =>
      have listed := List.getElem?_eq_getElem (Nat.lt_of_succ_le inside)
      generalize tree.resolved[point] = resolution at listed
      have broadly : Builder.Leads (Context.mk tree none).tree 0 {} tree.resolved := leads
      obtain ⟨before, after, rest, crossing, sound⟩ := crossing_at broadly listed
      have silentNext := (later_run broadly inside).silent_before silent
      have relaxes := inductionHypothesis (Nat.le_of_succ_le inside)
      rw [stateBefore_succ listed] at silentNext ⊢
      rw [stateBefore_succ listed]
      exact relaxes.advance liveness crossing.at_point sound.quiet silentNext

theorem relaxes_run (leads : Builder.Leads tree 0 {} tree.resolved) (liveness : Liveness)
    (silent : (Context.mk tree none).run.diagnostics = []) :
    State.Relaxes tree.unit.endPoint (Context.mk tree none).run
      (Context.mk tree (some liveness)).run := by
  have relaxes := relaxes_stateBefore leads liveness silent (Nat.le_refl _)
  have length : tree.resolved.length = tree.unit.endPoint := by simpa using leads.end_eq
  rw [stateBefore, stateBefore, List.take_length, length] at relaxes
  exact relaxes.exitScope (Nat.le_refl _) silent

end Context

theorem Borrow.Relaxes.extent_inside {now : Point} {broad narrow : Borrow}
    (relaxes : Relaxes now broad narrow) (ended : broad.isActive = false) :
    ∃ outer inner, broad.extent? = some outer ∧ narrow.extent? = some inner ∧
      inner.inside outer = true := by
  have narrowEnded : narrow.isActive = false := by
    rw [← Bool.not_eq_true] at ended ⊢
    exact fun active => ended (relaxes.active active).1
  obtain ⟨last, retired, outer⟩ := extent?_of_ended ended
  obtain ⟨stop, narrowRetired, inner⟩ := extent?_of_ended narrowEnded
  have bound := relaxes.ended stop narrowRetired
  rw [retired] at bound
  refine ⟨_, _, outer, inner, ?_⟩
  simp only [Extent.inside, Bool.and_eq_true, decide_eq_true_eq]
  exact ⟨Nat.le_of_eq relaxes.created.symm, bound⟩

theorem CodeUnit.analyse_eq_ok {unit : CodeUnit} {config : Config} {tree : ScopeTree}
    (admitted : config.admits unit = .ok ()) (built : unit.scopeTree = .ok tree)
    (recordStates : Bool) :
    ∃ result, unit.analyse config recordStates = .ok result ∧ result.fault = none ∧
      result.diagnostics = (Context.ofTree config tree).run.diagnostics ∧
      result.borrows = (Context.ofTree config tree).run.ledger.borrows := by
  rw [CodeUnit.analyse, CodeUnit.check, admitted, built]
  exact ⟨_, rfl, rfl, rfl, rfl⟩

/-- A unit that is accepted where borrows last as long as their holders is accepted where they end
with the last use.  The borrows are the same, and none of them lasts longer. -/
theorem precise_relaxes_lexical {unit : CodeUnit} (config : Config) {recordStates : Bool}
    {lexical : UnitResult}
    (analysed : unit.analyse { config with precise := false } recordStates = .ok lexical)
    (accepted : lexical.accepted = true) :
    ∃ precise, unit.analyse { config with precise := true } recordStates = .ok precise ∧
      precise.accepted = true ∧
      List.Forall₂ (fun broad narrow => narrow.id = broad.id ∧ narrow.referent = broad.referent ∧
        narrow.kind = broad.kind ∧ narrow.created = broad.created ∧
        ∃ outer inner, broad.extent? = some outer ∧ narrow.extent? = some inner ∧
          inner.inside outer = true) lexical.borrows precise.borrows := by
  obtain ⟨admitted, tree, built, borrows, silent⟩ :=
    CodeUnit.admitted_of_accepted analysed accepted
  have leads := (Builder.leads_of_scopeTree built).2
  have broadly : Builder.Leads (Context.mk tree none).tree 0 {} tree.resolved := leads
  have alsoAdmitted : Config.admits { config with precise := true } unit = .ok () := admitted
  obtain ⟨precise, alsoAnalysed, faultless, diagnostics, alsoBorrows⟩ :=
    CodeUnit.analyse_eq_ok alsoAdmitted built recordStates
  have relaxes : State.Relaxes tree.unit.endPoint (Context.mk tree none).run
      (Context.mk tree (some tree.liveness)).run := Context.relaxes_run leads tree.liveness silent
  have reported : precise.diagnostics = [] := diagnostics.trans relaxes.silent
  refine ⟨precise, alsoAnalysed, ?_, ?_⟩
  · simp [UnitResult.accepted, faultless, reported]
  · obtain ⟨_, _, ended, _⟩ := Context.sound_run broadly
    rw [borrows, alsoBorrows]
    have paired := (List.forall₂_and_left _ _).mpr
      ⟨fun borrow membership => (ended borrow membership).2, relaxes.ledger.borrows⟩
    refine paired.imp ?_
    rintro broad narrow ⟨broadEnded, both⟩
    exact ⟨both.id, both.referent, both.kind, both.created, both.extent_inside broadEnded⟩

/-- Shared borrows, one of them moved on in an inner scope, and then an exclusive one. -/
def narrowedUnit : CodeUnit := .ofActions "narrowed" [
  .bind (.str "x") (.bool true) none (.bool false) (.bool false),
  .borrow .shared (.str "r") (.str "x"),
  .enter,
  .borrow .shared (.str "s") (.str "x"),
  .move (.str "t") (.str "s"),
  .read (.str "t"),
  .enter,
  .exit,
  .exit,
  .consume (.str "r"),
  .borrow .exclusive (.str "u") (.str "x"),
  .write (.str "u"),
  .enter,
  .exit]

theorem narrowed_relaxes_lexical :
    ((narrowedUnit.analyse { precise := true } false).toOption.map fun result =>
      result.borrows.map Borrow.extent?) = some [some ⟨1, 10⟩, some ⟨3, 6⟩, some ⟨10, 12⟩] ∧
    ∃ lexical, narrowedUnit.analyse { precise := false } false = .ok lexical ∧
      lexical.accepted = true ∧
      lexical.borrows.map Borrow.extent? = [some ⟨1, 10⟩, some ⟨3, 8⟩, some ⟨10, 14⟩] ∧
      ∃ precise, narrowedUnit.analyse { precise := true } false = .ok precise ∧
        precise.accepted = true ∧
        List.Forall₂ (fun broad narrow => narrow.id = broad.id ∧
          narrow.referent = broad.referent ∧ narrow.kind = broad.kind ∧
          narrow.created = broad.created ∧
          ∃ outer inner, broad.extent? = some outer ∧ narrow.extent? = some inner ∧
            inner.inside outer = true) lexical.borrows precise.borrows := by
  have known : ((narrowedUnit.analyse { precise := false } false).toOption.map fun result =>
      (result.accepted, result.borrows.map Borrow.extent?)) =
        some (true, [some ⟨1, 10⟩, some ⟨3, 8⟩, some ⟨10, 14⟩]) := by decide +kernel
  obtain ⟨lexical, found, facts⟩ := Option.map_eq_some_iff.mp known
  obtain ⟨accepted, extents⟩ := Prod.mk.inj facts
  have analysed := toOption_eq_some_iff.mp found
  exact ⟨by decide +kernel, lexical, analysed, accepted, extents,
    precise_relaxes_lexical {} analysed accepted⟩

end LoanCheck
