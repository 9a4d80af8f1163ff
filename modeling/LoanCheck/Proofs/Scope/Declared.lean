import LoanCheck.Proofs.Scope.Lookup

/-!
# When places are declared

Places are numbered in the order of their declarations, and a scope lists its places in that
order.  A place of the tree is known to the builder from its point on.  The scope of a place is
open then, so it ends later.
-/

namespace LoanCheck

namespace CodeUnit

variable {unit : CodeUnit} {tree : ScopeTree} {point : Point} {builder : Builder}

/-- Places are numbered in the order of their declarations. -/
theorem declared_in_order (inside : point ≤ unit.statements.length)
    (reached : unit.builderAt point = .ok builder) {first second : PlaceId} {early late : Place}
    (known : builder.declared? first = some early)
    (alsoKnown : builder.declared? second = some late) (before : first < second) :
    early.point < late.point := by
  induction point generalizing builder early late with
  | zero =>
      cases reached
      cases known
  | succ point inductionHypothesis =>
      have listed := List.getElem?_eq_getElem (Nat.lt_of_succ_le inside)
      have stepped := reached
      rw [builderAt_succ listed, bind_eq_ok_iff] at stepped
      obtain ⟨earlier, reachedEarlier, stepped⟩ := stepped
      have names := (Builder.step_resolves stepped).1
      have wellFormed := wellFormed_builderAt (Nat.le_of_succ_le inside) reachedEarlier
      rcases names.declared_cases known with old | ⟨isLast, _⟩
      · rcases names.declared_cases alsoKnown with alsoOld | ⟨_, at_point, _⟩
        · exact inductionHypothesis (Nat.le_of_succ_le inside) reachedEarlier old alsoOld
        · rw [at_point]
          exact wellFormed.earlier first early old
      · -- The last place to be declared has the greatest number.
        rcases names.declared_cases alsoKnown with alsoOld | ⟨alsoLast, _⟩
        · obtain ⟨entry, found, _⟩ := Option.map_eq_some_iff.mp alsoOld
          have lower := (List.getElem?_eq_some_iff.mp found).1
          exact absurd before (Nat.not_lt.mpr (isLast ▸ Nat.le_of_lt lower))
        · exact absurd (isLast.trans alsoLast.symm) (Nat.ne_of_lt before)

/-- A scope lists its places in the order of their numbers. -/
theorem placesIn_in_order (inside : point ≤ unit.statements.length)
    (reached : unit.builderAt point = .ok builder) (scope : ScopeId) :
    (builder.placesIn scope).Pairwise (· < ·) := by
  refine builderAt_induction
    (fun _ builder => ∀ scope, (builder.placesIn scope).Pairwise (· < ·)) ?_ ?_ inside reached
    scope
  · intro scope
    cases scope <;> simp [Builder.placesIn, Builder.outline?, Scope.outline]
  · intro point statement before after listed earlier stepped inOrder scope
    have within := Nat.le_of_lt (List.getElem?_eq_some_iff.mp listed).1
    have wellFormed := wellFormed_builderAt within earlier
    cases (Builder.step_resolves stepped).1 with
    | inside extended closed =>
        cases extended with
        | kept alike =>
            rw [alike.lists]
            exact inOrder scope
        | declared name key mutable deferred keyed alike =>
            rw [alike.lists, Builder.placesIn_declare _ _ _ _ _ _ _ _ wellFormed.current_lt]
            split
            · rw [List.pairwise_append]
              refine ⟨inOrder scope, List.pairwise_singleton _ _, ?_⟩
              intro place known new added
              rw [List.mem_singleton.mp added]
              obtain ⟨found, declared, _⟩ := (wellFormed.listed scope place).mp known
              obtain ⟨entry, entered, _⟩ := Option.map_eq_some_iff.mp declared
              exact (List.getElem?_eq_some_iff.mp entered).1
            · exact inOrder scope
    | entered =>
        rw [Builder.placesIn_enter]
        exact inOrder scope
    | left exits =>
        rw [Builder.placesIn_exit exits]
        exact inOrder scope

variable (built : unit.scopeTree = .ok tree)

include built

/-- After the last statement every place of the tree is declared. -/
theorem declared_at_end (reached : unit.builderAt unit.statements.length = .ok builder)
    {place : PlaceId} {found : Place} (listed : tree.places[place]? = some found) :
    builder.declared? place = some found.declaration := by
  obtain ⟨_, last, alsoReached, _, finished⟩ := finish_of_scopeTree built
  cases alsoReached.symm.trans reached
  rw [Builder.declared?, ← (Builder.finish_cases finished).2.2.1, listed]
  rfl

theorem placesOf_in_order (scope : ScopeId) : (tree.placesOf scope).Pairwise (· < ·) := by
  obtain ⟨_, last, reached, _, finished⟩ := finish_of_scopeTree built
  rw [Builder.placesOf_of_finish finished]
  exact placesIn_in_order (Nat.le_refl _) reached scope

theorem declaredAt_lt {first second : PlaceId} {scope : ScopeId}
    (known : first ∈ tree.placesOf scope) (alsoKnown : second ∈ tree.placesOf scope)
    (before : first < second) : tree.declaredAt first < tree.declaredAt second := by
  have leads := (Builder.leads_of_scopeTree built).2
  obtain ⟨_, last, reached, _⟩ := finish_of_scopeTree built
  obtain ⟨early, listed, _⟩ := leads.exists_of_mem_placesOf known
  obtain ⟨late, alsoListed, _⟩ := leads.exists_of_mem_placesOf alsoKnown
  have declared := declared_at_end built reached listed
  have alsoDeclared := declared_at_end built reached alsoListed
  simp only [ScopeTree.declaredAt, listed, alsoListed]
  have order := declared_in_order (Nat.le_refl _) reached declared alsoDeclared before
  exact order

/-- What is not declared yet will be declared at the point at hand or later. -/
theorem le_point_of_undeclared (inside : point ≤ unit.statements.length)
    (reached : unit.builderAt point = .ok builder) {place : PlaceId} {found : Place}
    (listed : tree.places[place]? = some found) (undeclared : builder.declared? place = none) :
    point ≤ found.point := by
  obtain ⟨remaining, total⟩ := Nat.exists_eq_add_of_le inside
  induction remaining generalizing point builder with
  | zero =>
      obtain rfl : unit.statements.length = point := total
      rw [declared_at_end built reached listed] at undeclared
      cases undeclared
  | succ remaining inductionHypothesis =>
      have later : point + 1 ≤ unit.statements.length := by
        rw [total]
        exact Nat.add_le_add_left (Nat.succ_le_succ (Nat.zero_le remaining)) point
      have bound : point < tree.resolved.length := by
        rw [length_of_scopeTree built]
        exact later
      obtain ⟨statement, before, after, rest, passage⟩ :=
        passage_at built (List.getElem?_eq_getElem bound)
      cases passage.reached.symm.trans reached
      cases known : after.declared? place with
      | none =>
          apply Nat.le_of_succ_le
          apply inductionHypothesis later passage.reached_next known
          rw [total, Nat.add_assoc, Nat.add_comm 1]
      | some declared =>
          have entered := passage.crossing.leads_after.declared known
          rw [listed, Option.map_some, Option.some.injEq] at entered
          rcases passage.names.declared_cases known with old | ⟨_, at_point, _⟩
          · rw [undeclared] at old
            cases old
          · rw [← at_point, ← entered]
            exact Nat.le_refl _

theorem declared_of_point_lt (inside : point ≤ unit.statements.length)
    (reached : unit.builderAt point = .ok builder) {place : PlaceId} {found : Place}
    (listed : tree.places[place]? = some found) (early : found.point < point) :
    builder.declared? place = some found.declaration := by
  cases known : builder.declared? place with
  | none =>
      have late := le_point_of_undeclared built inside reached listed known
      exact absurd early (Nat.not_lt.mpr late)
  | some declared =>
      obtain ⟨_, _, again, _, leads⟩ := leads_builderAt built inside
      cases again.symm.trans reached
      have entered := leads.declared known
      rw [listed] at entered
      exact entered.symm

/-- A place is declared before its scope ends. -/
theorem point_lt_exitPoint {place : PlaceId} {found : Place}
    (listed : tree.places[place]? = some found) :
    found.point < tree.exitPoint found.scope := by
  obtain ⟨last, _, reached, _, leads⟩ := leads_builderAt built (Nat.le_refl _)
  have early : found.point < unit.statements.length :=
    leads.wellFormed.earlier place found.declaration (declared_at_end built reached listed)
  have bound : found.point < tree.resolved.length := by
    rw [length_of_scopeTree built]
    exact early
  obtain ⟨statement, before, after, rest, passage⟩ :=
    passage_at built (List.getElem?_eq_getElem bound)
  have known := declared_of_point_lt built early passage.reached_next listed (Nat.lt_succ_self _)
  rcases passage.names.declared_cases known with old | ⟨_, _, _, isOpen⟩
  · have earlier := passage.crossing.leads_before.wellFormed.earlier place _ old
    exact absurd earlier (Nat.lt_irrefl _)
  · exact passage.crossing.leads_after.le_exitPoint isOpen

end CodeUnit

end LoanCheck
