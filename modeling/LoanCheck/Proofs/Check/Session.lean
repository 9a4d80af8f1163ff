import LoanCheck.Check.Session
import LoanCheck.Proofs.Check.Attempt

/-!
# Units one after another

A session is changed piece by piece while a unit is analysed.  Whatever can stop the analysis of a
unit does so before the first change: the walk over a unit whose scopes are known goes through to
its end.  So a unit is judged as in a session that has seen no other, and one that cannot be
analysed leaves everything as it was.
-/

namespace LoanCheck

namespace CodeUnit

variable {unit : CodeUnit} {tree : ScopeTree} (built : unit.scopeTree = .ok tree)

include built

/-- The outermost scope and its places are there when the unit ends. -/
theorem ending_listed : tree.ending.effect.Listed tree := by
  have leads := (Builder.leads_of_scopeTree built).2
  refine ⟨?_, ?_⟩
  · rintro _ ⟨⟩
    have started : Builder.startOf? {} ScopeTree.rootId = some 0 := rfl
    obtain ⟨entry, there, _⟩ := leads.enter_of_started started
    exact (List.getElem?_eq_some_iff.mp there).1
  · intro place told
    have inRoot : place ∈ tree.placesOf ScopeTree.rootId := by
      simpa [ScopeTree.ending, Effect.places, Effect.source?, Effect.target?, Effect.closes?]
        using told
    obtain ⟨_, found, _⟩ := leads.exists_of_mem_placesOf inRoot
    exact (List.getElem?_eq_some_iff.mp found).1

theorem tryContext_eq_ok (config : Config) :
    tree.tryContext config = .ok (Context.ofTree config tree) := by
  have operands : tree.lookUpPlaces (tree.resolved.filterMap fun resolution =>
      resolution.effect.source?.map Use.place) = .ok () := by
    apply ScopeTree.lookUpPlaces_eq_ok
    intro place told
    obtain ⟨resolution, resolved, isOperand⟩ := List.mem_filterMap.mp told
    obtain ⟨use, source, rfl⟩ := Option.map_eq_some_iff.mp isOperand
    exact (within_of_scopeTree built resolved).source use source
  rw [ScopeTree.tryContext, ScopeTree.tryLiveness, bind_of_ok operands, Context.ofTree]
  cases config.precise <;> rfl

omit built

theorem scopeTree_of_admittedTree {config : Config}
    (admitted : unit.admittedTree config = .ok tree) : unit.scopeTree = .ok tree := by
  rw [admittedTree, bind_eq_ok_iff] at admitted
  obtain ⟨_, _, named⟩ := admitted
  cases built : unit.scopeTree with
  | ok other =>
      rw [built] at named
      cases named
      rfl
  | error error =>
      rw [built] at named
      cases error <;> cases named

/-- A unit whose scopes are known is analysed. -/
theorem check_eq_map (unit : CodeUnit) (config : Config) (recordStates : Bool) :
    unit.check config recordStates =
      (fun tree =>
        let context := Context.ofTree config tree
        ⟨context, context.run, if recordStates then some context.snapshots else none⟩) <$>
        unit.admittedTree config := by
  rw [check, admittedTree]
  cases config.admits unit with
  | error reason => rfl
  | ok _ =>
      cases unit.scopeTree with
      | ok tree => rfl
      | error error => cases error <;> rfl

end CodeUnit

namespace Session

/-- The walk goes through to the last statement, and notes the live places after each of them if
they are asked for. -/
theorem walk_eq {context : Context} {resolved : List Resolution}
    (listed : ∀ resolution ∈ resolved, resolution.effect.Listed context.tree) (session : Session)
    (consistent : session.state.ledger.Consistent) (within : session.state.Within context.tree) :
    walk context resolved session =
        ({ session with
            state := context.walk session.state resolved
            states := session.states.map fun earlier =>
              earlier ++ (context.trace session.state resolved).map context.snapshot },
          .ok ()) ∧
      (context.walk session.state resolved).ledger.Consistent ∧
      (context.walk session.state resolved).Within context.tree := by
  induction resolved generalizing session with
  | nil => simpa [walk, Context.walk, Context.trace] using ⟨consistent, within⟩
  | cons resolution rest inductionHypothesis =>
      have known := listed resolution List.mem_cons_self
      have stepped := State.consistent_step context consistent resolution
      have later := (State.retireDead_becomes context _ resolution.point).consistent stepped
      have laterWithin := within.advance consistent known
      have there := ScopeTree.lookUpPlaces_eq_ok laterWithin
      obtain ⟨walked, kept⟩ := inductionHypothesis
        (fun other member => listed other (List.mem_cons_of_mem resolution member))
        { session with
          state := context.advance session.state resolution
          states := session.states.map fun earlier =>
            earlier ++ [context.snapshot (context.advance session.state resolution)] }
        later laterWithin
      refine ⟨?_, kept⟩
      simp only [walk, bind_of_ok (State.tryAdvance_eq_ok consistent within known),
        bind_of_ok there]
      refine walked.trans ?_
      simp [Context.trace, Context.walk, Function.comp_def]

/-- The session after an analysis that came to its end. -/
def keep (session : Session) (outcome : Outcome) : Session :=
  { session with
    diagnostics := outcome.diagnostics
    tree := some outcome.context.tree
    state := outcome.final
    liveness := outcome.context.liveness
    states := outcome.states }

theorem judge_eq {unit : CodeUnit} {tree : ScopeTree} (built : unit.scopeTree = .ok tree)
    (session : Session) :
    let context := Context.ofTree session.config tree
    session.judge tree =
      (session.keep ⟨context, context.run,
          if session.recordStates then some context.snapshots else none⟩,
        .ok context.run.diagnostics) := by
  intro context
  have listed : ∀ resolution ∈ tree.resolved, resolution.effect.Listed context.tree :=
    fun _ resolved => (CodeUnit.within_of_scopeTree built resolved).listed
  obtain ⟨walked, consistent, within⟩ := walk_eq listed
    { session with
      tree := some tree
      state := {}
      liveness := context.liveness
      states := if session.recordStates then some [] else none }
    Ledger.consistent_empty (fun _ absent => absurd absent List.not_mem_nil)
  have ended : State.attempt context (context.walk {} tree.resolved) tree.ending =
      .ok context.run :=
    State.attempt_eq_ok consistent within (CodeUnit.ending_listed built)
  have known : tree.tryContext session.config = .ok context :=
    CodeUnit.tryContext_eq_ok built session.config
  have noted : Option.map
      (fun earlier => earlier ++ (context.trace {} tree.resolved).map context.snapshot)
      (if session.recordStates then some [] else none) =
        if session.recordStates then some context.snapshots else none := by
    cases session.recordStates <;> rfl
  simp only [judge, known]
  rw [walked]
  simp only [ended, noted]
  rfl

variable {session : Session} {unit : CodeUnit}

theorem check_of_ok {outcome : Outcome}
    (finished : unit.check session.config session.recordStates = .ok outcome) :
    session.check unit = (session.keep outcome, .ok outcome.diagnostics) := by
  rw [CodeUnit.check_eq_map, map_eq_ok_iff] at finished
  obtain ⟨tree, admitted, rfl⟩ := finished
  rw [check, admitted]
  simp only [judge_eq (CodeUnit.scopeTree_of_admittedTree admitted) session]
  rfl

theorem check_of_error {reason : CheckError}
    (stopped : unit.check session.config session.recordStates = .error reason) :
    session.check unit = (session, .error (.unit reason)) := by
  rw [CodeUnit.check_eq_map] at stopped
  rw [check]
  cases admitted : unit.admittedTree session.config with
  | ok tree =>
      rw [admitted] at stopped
      cases stopped
  | error other =>
      rw [admitted] at stopped
      cases stopped
      rfl

/-- The session that has seen no unit. -/
def fresh (session : Session) : Session :=
  { config := session.config, recordStates := session.recordStates }

/-- A unit is judged as in a session that has seen no other. -/
theorem check_fresh (session : Session) (unit : CodeUnit) :
    (session.check unit).2 = (session.fresh.check unit).2 ∧
      (session.check unit).1 =
        if (session.fresh.check unit).2.isOk then (session.fresh.check unit).1 else session := by
  cases analysed : unit.check session.config session.recordStates with
  | ok outcome =>
      have alone : session.fresh.check unit =
          (session.fresh.keep outcome, .ok outcome.diagnostics) := check_of_ok analysed
      rw [check_of_ok analysed, alone]
      exact ⟨rfl, rfl⟩
  | error reason =>
      have alone : session.fresh.check unit = (session.fresh, .error (.unit reason)) :=
        check_of_error analysed
      rw [check_of_error analysed, alone]
      exact ⟨rfl, rfl⟩

theorem fresh_check (session : Session) (unit : CodeUnit) :
    (session.check unit).1.fresh = session.fresh := by
  cases analysed : unit.check session.config session.recordStates with
  | ok outcome =>
      rw [check_of_ok analysed]
      rfl
  | error reason => rw [check_of_error analysed]

theorem checkAll_results (session : Session) (units : List CodeUnit) :
    (session.checkAll units).2 = units.map fun unit => (session.fresh.check unit).2 := by
  induction units generalizing session with
  | nil => rfl
  | cons unit rest inductionHypothesis =>
      have later := inductionHypothesis (session.check unit).1
      rw [fresh_check] at later
      rw [checkAll, List.map_cons, ← later, ← (check_fresh session unit).1]

/-- A session is left as the last unit left it that could be analysed. -/
theorem checkAll_session (session : Session) (units : List CodeUnit) :
    (session.checkAll units).1 =
      (units.filter fun unit => (session.fresh.check unit).2.isOk).getLast?.elim session
        fun unit => (session.fresh.check unit).1 := by
  induction units generalizing session with
  | nil => rfl
  | cons unit rest inductionHypothesis =>
      have later := inductionHypothesis (session.check unit).1
      rw [fresh_check] at later
      rw [checkAll, later, (check_fresh session unit).2, List.filter_cons]
      split
      · rw [List.getLast?_cons]
        cases (rest.filter fun unit => (session.fresh.check unit).2.isOk).getLast? <;> rfl
      · rfl

end Session

/-- Whatever units a session was used for, each is judged as by a new session, the session is left
as a new one is left by the last unit that could be analysed, and a unit that cannot be analysed
changes nothing; what stops it is found before its statements are judged. -/
theorem session_forgets (session : Session) (units : List CodeUnit) :
    let alone (unit : CodeUnit) := session.fresh.check unit
    (session.checkAll units).2 = units.map (fun unit => (alone unit).2) ∧
      (session.checkAll units).1 =
        (units.filter fun unit => (alone unit).2.isOk).getLast?.elim session
          (fun unit => (alone unit).1) ∧
      ∀ unit error, (session.check unit).2 = .error error →
        (session.check unit).1 = session ∧
          ∃ reason, error = .unit reason ∧
            unit.check session.config session.recordStates = .error reason := by
  refine ⟨session.checkAll_results units, session.checkAll_session units, ?_⟩
  intro unit error failed
  cases analysed : unit.check session.config session.recordStates with
  | ok outcome =>
      rw [Session.check_of_ok analysed] at failed
      cases failed
  | error reason =>
      rw [Session.check_of_error analysed] at failed ⊢
      cases failed
      exact ⟨rfl, reason, rfl, rfl⟩

/-- A reference that is written through. -/
def writtenReference : CodeUnit := .ofActions "written reference" [
  .bind (.str "x") (.bool false) none (.bool false) (.bool false),
  .borrow .shared (.str "r") (.str "x"),
  .write (.str "r")]

def unclosedScope : CodeUnit := .ofActions "unclosed scope" [.enter]

def emptyScopes : CodeUnit := .ofActions "empty scopes" [.enter, .exit, .enter, .exit]

/-- The session shows the one unit that could be analysed, also after a scope that is not closed
and a unit that is too large. -/
theorem writtenReference_shown :
    let session : Session := { config := { maxStatements := some 3 }, recordStates := true }
    let shown := (session.check writtenReference).1
    (session.check writtenReference).2.isOk = true ∧
      (session.checkAll [writtenReference, unclosedScope, emptyScopes]).1 = shown ∧
      (shown.check unclosedScope).1 = shown := by
  intro session shown
  have built : writtenReference.scopeTree.isOk = true := rfl
  obtain ⟨outcome, finished, _⟩ :=
    CodeUnit.check_eq_ok built (rfl : session.config.admits writtenReference = .ok ()) true
  have unchanged : session.fresh = session := rfl
  have first : session.check writtenReference = (session.keep outcome, .ok outcome.diagnostics) :=
    Session.check_of_ok finished
  have second : (session.check unclosedScope).2.isOk = false := rfl
  have third : (session.check emptyScopes).2.isOk = false := rfl
  have kept : shown = session.keep outcome := congrArg Prod.fst first
  have succeeds : (session.check writtenReference).2.isOk = true := by
    rw [first]
    rfl
  have forgets := (session_forgets session [writtenReference, unclosedScope, emptyScopes]).2.1
  refine ⟨succeeds, ?_, ?_⟩
  · simpa only [unchanged, List.filter, succeeds, second, third, List.getLast?_singleton,
      Option.elim_some] using forgets
  · rw [kept]
    exact ((session_forgets (session.keep outcome) []).2.2 unclosedScope _ rfl).1

end LoanCheck
