import LoanCheck.Proofs.Scope.Transition

/-!
# The way from the first statement to the scope tree

`Builder.Leads` follows the builder over the statements still to come, up to the scope
tree.  What the builder knows at a point holds of the tree, and a scope that is open at a
point does not end before it.
-/

namespace LoanCheck

namespace Builder

/-- From a builder at a point, statements resolved as listed lead to the tree. -/
inductive Leads (tree : ScopeTree) : Point → Builder → List Resolution → Prop where
  | finish {builder : Builder} (wellFormed : builder.WellFormed tree.unit.endPoint)
      (finished : builder.finish tree.unit = .ok tree) :
      Leads tree tree.unit.endPoint builder []
  | step {point : Point} {before after : Builder} {resolution : Resolution}
      {rest : List Resolution} (wellFormed : before.WellFormed point)
      (at_point : resolution.point = point)
      (transition : Transition before point resolution.effect after)
      (leads : Leads tree (point + 1) after rest) :
      Leads tree point before (resolution :: rest)

/-- What finishing makes of a builder. -/
theorem finish_cases {builder : Builder} {unit : CodeUnit} {tree : ScopeTree}
    (finished : builder.finish unit = .ok tree) :
    builder.openScopes = [builder.current] ∧ tree.unit = unit ∧ tree.places = builder.places ∧
      tree.resolved = builder.resolved ∧
      tree.scopes = builder.scopes.modify ScopeTree.rootId fun scope =>
        { scope with exit := some unit.endPoint } := by
  cases around : builder.outer with
  | nil =>
      simp only [finish, around, Except.ok.injEq] at finished
      subst finished
      exact ⟨by simp only [openScopes, around], rfl, rfl, rfl, rfl⟩
  | cons scope outer => simp [finish, around] at finished

theorem placesOf_of_finish {builder : Builder} {unit : CodeUnit} {tree : ScopeTree}
    (finished : builder.finish unit = .ok tree) (scope : ScopeId) :
    tree.placesOf scope = builder.placesIn scope := by
  simp only [ScopeTree.placesOf, placesIn, outline?, (finish_cases finished).2.2.2.2,
    List.getElem?_modify]
  cases builder.scopes[scope]? with
  | none => rfl
  | some entry => by_cases root : ScopeTree.rootId = scope <;> simp [root, Scope.outline]

/-- Taking statements and finishing is a way to the tree. -/
theorem leads_of_run {unit : CodeUnit} {tree : ScopeTree} {statements : List Statement}
    {builder last : Builder} {point : Point} (wellFormed : builder.WellFormed point)
    (counted : point + statements.length = unit.endPoint)
    (taken : builder.run point statements = .ok last) (finished : last.finish unit = .ok tree) :
    ∃ resolved, tree.resolved = builder.resolved ++ resolved ∧
      Leads tree point builder resolved := by
  induction statements generalizing builder point with
  | nil =>
      cases taken
      have same := (finish_cases finished).2.1
      subst same
      simp only [List.length_nil, Nat.add_zero] at counted
      subst counted
      exact ⟨[], by simp [(finish_cases finished).2.2.2.1], .finish wellFormed finished⟩
  | cons statement rest inductionHypothesis =>
      simp only [run, bind_eq_ok_iff] at taken
      rcases taken with ⟨next, stepped, taken⟩
      rcases step_cases wellFormed stepped with
        ⟨resolution, recorded, at_point, _, transition, inOrder⟩
      rcases inductionHypothesis inOrder (by simpa [Nat.add_assoc, Nat.add_comm 1] using counted)
        taken with ⟨resolved, listed, leads⟩
      refine ⟨resolution :: resolved, ?_, .step wellFormed at_point transition leads⟩
      rw [listed, recorded, List.append_assoc, List.singleton_append]

/-- A unit with a scope tree is a way from nothing to that tree. -/
theorem leads_of_scopeTree {unit : CodeUnit} {tree : ScopeTree}
    (built : unit.scopeTree = .ok tree) : tree.unit = unit ∧ Leads tree 0 {} tree.resolved := by
  rw [CodeUnit.scopeTree, bind_eq_ok_iff] at built
  rcases built with ⟨last, taken, finished⟩
  rcases leads_of_run wellFormed_empty (Nat.zero_add _) taken finished with
    ⟨resolved, listed, leads⟩
  refine ⟨(finish_cases finished).2.1, ?_⟩
  rw [listed]
  exact leads

namespace Leads

variable {tree : ScopeTree} {point : Point} {builder : Builder} {resolved : List Resolution}

theorem wellFormed (leads : Leads tree point builder resolved) : builder.WellFormed point := by
  cases leads with
  | finish wellFormed finished => exact wellFormed
  | step wellFormed at_point transition leads => exact wellFormed

theorem end_eq (leads : Leads tree point builder resolved) :
    point + resolved.length = tree.unit.endPoint := by
  induction leads with
  | finish => rfl
  | step wellFormed at_point transition leads inductionHypothesis =>
      rw [List.length_cons, Nat.add_comm _ 1, ← Nat.add_assoc]
      exact inductionHypothesis

theorem next {before : Builder} {resolution : Resolution} {rest : List Resolution}
    (leads : Leads tree point before (resolution :: rest)) :
    ∃ after, resolution.point = point ∧ Transition before point resolution.effect after ∧
      Leads tree (point + 1) after rest := by
  cases leads with
  | step wellFormed at_point transition leads => exact ⟨_, at_point, transition, leads⟩

theorem declared {place : PlaceId} {found : Place} (leads : Leads tree point builder resolved)
    (known : builder.declared? place = some found) :
    (tree.places[place]?).map Place.declaration = some found := by
  induction leads with
  | finish wellFormed finished =>
      rw [(finish_cases finished).2.2.1]
      exact known
  | step wellFormed at_point transition leads inductionHypothesis =>
      exact inductionHypothesis (transition.declarations place found known)

theorem scopeOf_eq {place : PlaceId} {found : Place} (leads : Leads tree point builder resolved)
    (known : builder.declared? place = some found) : tree.scopeOf place = found.scope := by
  rcases Option.map_eq_some_iff.mp (leads.declared known) with ⟨entry, listed, rfl⟩
  simp [ScopeTree.scopeOf, listed, Place.declaration]

theorem declaredAt_eq {place : PlaceId} {found : Place}
    (leads : Leads tree point builder resolved)
    (known : builder.declared? place = some found) : tree.declaredAt place = found.point := by
  rcases Option.map_eq_some_iff.mp (leads.declared known) with ⟨entry, listed, rfl⟩
  simp [ScopeTree.declaredAt, listed, Place.declaration]

theorem holdsReference {place : PlaceId} (leads : Leads tree point builder resolved)
    (held : builder.holding? place = some .reference) : tree.holdsReference place = true := by
  induction leads with
  | finish wellFormed finished =>
      rcases Option.bind_eq_some_iff.mp held with ⟨entry, listed, holding⟩
      simp [ScopeTree.holdsReference, (finish_cases finished).2.2.1, listed, holding]
  | step wellFormed at_point transition leads inductionHypothesis =>
      exact inductionHypothesis (transition.holdings place .reference held)

/-- A scope of the tree lists exactly the places declared in it. -/
theorem mem_placesOf_iff {place : PlaceId} {found : Place} {scope : ScopeId}
    (leads : Leads tree point builder resolved)
    (known : builder.declared? place = some found) :
    place ∈ tree.placesOf scope ↔ found.scope = scope := by
  induction leads with
  | finish wellFormed finished =>
      rw [placesOf_of_finish finished, wellFormed.listed, known]
      simp
  | step wellFormed at_point transition leads inductionHypothesis =>
      exact inductionHypothesis (transition.declarations place found known)

theorem exists_of_mem_placesOf {place : PlaceId} {scope : ScopeId}
    (leads : Leads tree point builder resolved) (listed : place ∈ tree.placesOf scope) :
    ∃ found, tree.places[place]? = some found ∧ found.scope = scope := by
  induction leads with
  | finish wellFormed finished =>
      rw [placesOf_of_finish finished, wellFormed.listed] at listed
      obtain ⟨_, declared, inScope⟩ := listed
      obtain ⟨entry, known, rfl⟩ := Option.map_eq_some_iff.mp declared
      rw [(finish_cases finished).2.2.1]
      exact ⟨entry, known, inScope⟩
  | step wellFormed at_point transition leads inductionHypothesis => exact inductionHypothesis

theorem exitPoint_of_ended {scope : ScopeId} {stop : Point}
    (leads : Leads tree point builder resolved) (ended : builder.endOf? scope = some stop) :
    tree.exitPoint scope = stop := by
  induction leads with
  | @finish builder wellFormed finished =>
      have other : scope ≠ ScopeTree.rootId := by
        rintro rfl
        rcases wellFormed.root with ⟨inner, rooted⟩
        have isOpen : ScopeTree.rootId ∈ builder.openScopes := by simp [rooted]
        rw [wellFormed.unended _ isOpen] at ended
        cases ended
      simp only [endOf?, outline?] at ended
      simp only [ScopeTree.exitPoint, (finish_cases finished).2.2.2.2, List.getElem?_modify,
        if_neg (Ne.symm other)]
      cases listed : builder.scopes[scope]? with
      | none => simp [listed] at ended
      | some entry =>
          have exits : entry.exit = some stop := by simpa [listed, Scope.outline] using ended
          simp [exits]
  | step wellFormed at_point transition leads inductionHypothesis =>
      exact inductionHypothesis (transition.ends scope stop ended)

theorem enter_of_started {scope : ScopeId} {start : Point}
    (leads : Leads tree point builder resolved) (started : builder.startOf? scope = some start) :
    ∃ found, tree.scopes[scope]? = some found ∧ found.enter = start := by
  induction leads with
  | @finish builder wellFormed finished =>
      obtain ⟨outline, known, rfl⟩ := Option.map_eq_some_iff.mp started
      obtain ⟨entry, listed, rfl⟩ := Option.map_eq_some_iff.mp known
      rw [(finish_cases finished).2.2.2.2, List.getElem?_modify, listed]
      refine ⟨_, rfl, ?_⟩
      by_cases root : ScopeTree.rootId = scope <;> simp [root, Scope.outline]
  | step wellFormed at_point transition leads inductionHypothesis =>
      exact inductionHypothesis (transition.starts scope start started)

/-- The outermost scope is the last open one, and it ends with the unit. -/
theorem root_of_finish (wellFormed : builder.WellFormed tree.unit.endPoint)
    (finished : builder.finish tree.unit = .ok tree) :
    builder.openScopes = [ScopeTree.rootId] ∧
      tree.exitPoint ScopeTree.rootId = tree.unit.endPoint := by
  have single := (finish_cases finished).1
  rcases wellFormed.root with ⟨inner, rooted⟩
  have isRoot : builder.current = ScopeTree.rootId := by
    have last := congrArg List.getLast? (single.symm.trans rooted)
    simpa using last
  refine ⟨by rw [single, isRoot], ?_⟩
  have inside := wellFormed.current_lt
  rw [isRoot] at inside
  simp [ScopeTree.exitPoint, (finish_cases finished).2.2.2.2, List.getElem?_eq_getElem inside]

/-- An open scope has not ended before the point at hand. -/
theorem le_exitPoint {scope : ScopeId} (leads : Leads tree point builder resolved)
    (isOpen : scope ∈ builder.openScopes) : point ≤ tree.exitPoint scope := by
  induction leads with
  | finish wellFormed finished =>
      rcases root_of_finish wellFormed finished with ⟨scopes, ends⟩
      rw [scopes, List.mem_singleton] at isOpen
      rw [isOpen]
      exact Nat.le_of_eq ends.symm
  | step wellFormed at_point transition leads inductionHypothesis =>
      rcases transition.open_after scope isOpen with stays | closes
      · exact Nat.le_of_succ_le (inductionHypothesis stays)
      · have ends := leads.exitPoint_of_ended (transition.closes scope closes).2
        exact Nat.le_of_eq ends.symm

theorem le_exitPoint_of_live {place : PlaceId} (leads : Leads tree point builder resolved)
    (live : builder.Live place) : point ≤ tree.exitPoint (tree.scopeOf place) := by
  rcases leads.wellFormed.declared_of_live live with ⟨found, known, isOpen, _⟩
  rw [leads.scopeOf_eq known]
  exact leads.le_exitPoint isOpen

/-- After the last statement only places of the outermost scope can be named. -/
theorem mem_placesOf_root {place : PlaceId} (leads : Leads tree point builder [])
    (live : builder.Live place) : place ∈ tree.placesOf ScopeTree.rootId := by
  obtain ⟨found, known, isOpen, _⟩ := leads.wellFormed.declared_of_live live
  rw [leads.mem_placesOf_iff known]
  cases leads with
  | finish wellFormed finished =>
      rw [(root_of_finish wellFormed finished).1, List.mem_singleton] at isOpen
      exact isOpen

end Leads

/-- The statement at a point, between the builders before and after it. -/
structure Crossing (tree : ScopeTree) (point : Point) (before : Builder)
    (resolution : Resolution) (after : Builder) (rest : List Resolution) : Prop where
  leads_before : Leads tree point before (resolution :: rest)
  leads_after : Leads tree (point + 1) after rest
  at_point : resolution.point = point
  listed : tree.resolved[point]? = some resolution
  transition : Transition before point resolution.effect after

section Reach

variable {tree : ScopeTree} {Alpha : Type} (advance : Alpha → Resolution → Alpha)
  (motive : Point → Builder → Alpha → Prop)
  (keeps : ∀ {point before resolution after rest state},
    Crossing tree point before resolution after rest → motive point before state →
      motive (point + 1) after (advance state resolution))

include keeps

theorem Leads.reach_from
    {done taken rest : List Resolution} {builder : Builder} {state : Alpha}
    (listed : tree.resolved = done ++ (taken ++ rest))
    (leads : Leads tree done.length builder (taken ++ rest))
    (holds : motive done.length builder state) :
    ∃ last, Leads tree (done ++ taken).length last rest ∧
      motive (done ++ taken).length last (taken.foldl advance state) := by
  induction taken generalizing done builder state with
  | nil =>
      rw [List.append_nil]
      exact ⟨builder, leads, holds⟩
  | cons resolution taken inductionHypothesis =>
      obtain ⟨after, at_point, transition, later⟩ := leads.next
      have crossing : Crossing tree done.length builder resolution after (taken ++ rest) :=
        ⟨leads, later, at_point, by simp [listed], transition⟩
      have stillListed : tree.resolved = (done ++ [resolution]) ++ (taken ++ rest) := by
        simp [listed]
      have length : done.length + 1 = (done ++ [resolution]).length := by simp
      rw [length] at later
      have kept := keeps crossing holds
      rw [length] at kept
      have reached := inductionHypothesis stillListed later kept
      rw [List.append_assoc, List.singleton_append] at reached
      exact reached

/-- What every statement keeps holds before each point, if it holds at first. -/
theorem Leads.reach {state : Alpha} (leads : Leads tree 0 {} tree.resolved)
    (holds : motive 0 {} state) {point : Point} (inside : point ≤ tree.resolved.length) :
    ∃ builder, Leads tree point builder (tree.resolved.drop point) ∧
      motive point builder ((tree.resolved.take point).foldl advance state) := by
  have listed : tree.resolved =
      [] ++ (tree.resolved.take point ++ tree.resolved.drop point) := by simp
  have reached := Leads.reach_from advance motive keeps listed
    (by rw [List.take_append_drop]; exact leads) holds
  rw [List.nil_append, List.length_take, Nat.min_eq_left inside] at reached
  exact reached

end Reach

end Builder

end LoanCheck
