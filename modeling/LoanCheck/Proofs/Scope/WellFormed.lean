import LoanCheck.Proofs.Scope.Builder

/-!
# The order among scopes, names and declarations

`Builder.WellFormed` says how open scopes, names and declarations fit together.  Declaring
a place, entering a scope and leaving one keep it.
-/

namespace LoanCheck

namespace Builder

/-- What holds of the builder before the statement at a point. -/
structure WellFormed (builder : Builder) (point : Point) : Prop where
  bounded : ∀ scope ∈ builder.openScopes, scope < builder.scopes.length
  nodup : builder.openScopes.Nodup
  /-- The outermost scope stays open. -/
  root : ∃ inner, builder.openScopes = inner ++ [ScopeTree.rootId]
  /-- A name leads to a place declared under it. -/
  named : ∀ key scope place, builder.inScope? key scope = some place →
    ∃ found, builder.declared? place = some found ∧ found.scope = scope ∧ found.key = key
  /-- A scope lists the places declared in it. -/
  listed : ∀ scope place, place ∈ builder.placesIn scope ↔
    ∃ found, builder.declared? place = some found ∧ found.scope = scope
  /-- An open scope was entered by an earlier statement, or at the start of the unit. -/
  started : ∀ scope ∈ builder.openScopes, ∃ start, builder.startOf? scope = some start ∧
    (start = 0 ∨ start < point)
  unended : ∀ scope ∈ builder.openScopes, builder.endOf? scope = none
  ended : ∀ scope, scope < builder.scopes.length → scope ∉ builder.openScopes →
    ∃ stop, builder.endOf? scope = some stop ∧ stop < point
  earlier : ∀ place found, builder.declared? place = some found → found.point < point

theorem wellFormed_empty : WellFormed {} 0 := by
  refine ⟨?_, ?_, ⟨[], rfl⟩, ?_, ?_, ?_, ?_, ?_, ?_⟩
  · intro scope isOpen
    simp only [openScopes, List.mem_singleton] at isOpen
    simp [isOpen]
  · simp [openScopes]
  · intro key scope place named
    cases scope <;> simp [inScope?] at named
  · intro scope place
    cases scope <;> simp [placesIn, outline?, declared?, Scope.outline]
  · intro scope isOpen
    simp only [openScopes, List.mem_singleton] at isOpen
    simp [isOpen, startOf?, outline?, Scope.outline]
  · intro scope isOpen
    simp only [openScopes, List.mem_singleton] at isOpen
    simp [isOpen, endOf?, outline?, Scope.outline]
  · intro scope inside isClosed
    simp only [List.length_singleton, Nat.lt_one_iff] at inside
    simp [openScopes, inside] at isClosed
  · intro place found declared
    simp [declared?] at declared

namespace WellFormed

variable {builder next : Builder} {point : Point} (wellFormed : builder.WellFormed point)

include wellFormed

theorem of_alike (alike : Alike builder next) : next.WellFormed point := by
  refine ⟨?_, ?_, ?_, ?_, ?_, ?_, ?_, ?_, ?_⟩
  · rw [alike.openScopes, alike.scopeCount]
    exact wellFormed.bounded
  · rw [alike.openScopes]
    exact wellFormed.nodup
  · rw [alike.openScopes]
    exact wellFormed.root
  · rw [alike.names, alike.declarations]
    exact wellFormed.named
  · rw [alike.lists, alike.declarations]
    exact wellFormed.listed
  · rw [alike.openScopes, alike.starts]
    exact wellFormed.started
  · rw [alike.openScopes, alike.ends]
    exact wellFormed.unended
  · rw [alike.openScopes, alike.ends, alike.scopeCount]
    exact wellFormed.ended
  · rw [alike.declarations]
    exact wellFormed.earlier

theorem later : builder.WellFormed (point + 1) := by
  refine { wellFormed with started := ?_, ended := ?_, earlier := ?_ }
  · intro scope isOpen
    obtain ⟨start, started, before⟩ := wellFormed.started scope isOpen
    exact ⟨start, started, before.imp_right Nat.lt_succ_of_lt⟩
  · intro scope inside isClosed
    rcases wellFormed.ended scope inside isClosed with ⟨stop, ended, before⟩
    exact ⟨stop, ended, Nat.lt_succ_of_lt before⟩
  · intro place found declared
    exact Nat.lt_succ_of_lt (wellFormed.earlier place found declared)

theorem current_lt : builder.current < builder.scopes.length :=
  wellFormed.bounded builder.current List.mem_cons_self

theorem start_le {scope : ScopeId} {start : Point} (isOpen : scope ∈ builder.openScopes)
    (starts : builder.startOf? scope = some start) : start ≤ point := by
  obtain ⟨_, known, earlier⟩ := wellFormed.started scope isOpen
  cases known.symm.trans starts
  rcases earlier with rfl | earlier
  · exact Nat.zero_le _
  · exact Nat.le_of_lt earlier

/-- A place that can be named is declared in an open scope. -/
theorem declared_of_live {place : PlaceId} (live : builder.Live place) :
    ∃ found, builder.declared? place = some found ∧ found.scope ∈ builder.openScopes ∧
      builder.inScope? found.key found.scope = some place := by
  rcases live with ⟨scope, isOpen, key, named⟩
  rcases wellFormed.named key scope place named with ⟨found, declared, rfl, rfl⟩
  exact ⟨found, declared, isOpen, named⟩

theorem declare (name : Name) (key : Key) (mutable copy : Flag) (deferred rebinds : Bool) :
    (builder.declare point name key mutable copy deferred rebinds).1.WellFormed (point + 1) := by
  have inside := wellFormed.current_lt
  refine ⟨?_, wellFormed.nodup, wellFormed.root, ?_, ?_, ?_, ?_, ?_, ?_⟩
  · intro scope isOpen
    rw [length_scopes_declare]
    exact wellFormed.bounded scope isOpen
  · intro other scope place named
    rw [inScope?_declare _ _ _ _ _ _ _ _ inside] at named
    rw [declared?_declare]
    split at named
    · next same =>
        cases named
        exact ⟨_, if_pos rfl, same.1.symm, same.2.symm⟩
    · rcases wellFormed.named other scope place named with ⟨found, declared, kept⟩
      have old : place ≠ builder.places.length := by
        rintro rfl
        simp at declared
      exact ⟨found, (if_neg old).trans declared, kept⟩
  · intro scope place
    rw [placesIn_declare _ _ _ _ _ _ _ _ inside, declared?_declare]
    by_cases fresh : place = builder.places.length
    · subst fresh
      have absent : builder.places.length ∉ builder.placesIn scope := by
        intro membership
        rcases (wellFormed.listed scope _).mp membership with ⟨found, declared, _⟩
        simp at declared
      by_cases current : scope = builder.current
      · simp [current]
      · simp [current, absent, Ne.symm current]
    · simp only [if_neg fresh, ← wellFormed.listed]
      by_cases current : scope = builder.current
      · simp [current, fresh]
      · simp [current]
  · intro scope isOpen
    rw [startOf?_declare]
    exact wellFormed.later.started scope isOpen
  · intro scope isOpen
    rw [endOf?_declare]
    exact wellFormed.unended scope isOpen
  · intro scope bound isClosed
    rw [endOf?_declare]
    rw [length_scopes_declare] at bound
    rcases wellFormed.ended scope bound isClosed with ⟨stop, ended, before⟩
    exact ⟨stop, ended, Nat.lt_succ_of_lt before⟩
  · intro place found declared
    rw [declared?_declare] at declared
    split at declared
    · cases declared
      exact Nat.lt_succ_self point
    · exact Nat.lt_succ_of_lt (wellFormed.earlier place found declared)

/-- After a declaration the new place can be named, and the one it shadows cannot. -/
theorem live_declare_iff (name : Name) (key : Key) (mutable copy : Flag)
    (deferred rebinds : Bool) (place : PlaceId) :
    (builder.declare point name key mutable copy deferred rebinds).1.Live place ↔
      place = builder.places.length ∨
        (builder.Live place ∧ builder.inScope? key builder.current ≠ some place) := by
  have inside := wellFormed.current_lt
  simp only [Live, inScope?_declare _ _ _ _ _ _ _ _ inside]
  constructor
  · rintro ⟨scope, isOpen, other, named⟩
    split at named
    · cases named
      exact .inl rfl
    · next different =>
        refine .inr ⟨⟨scope, isOpen, other, named⟩, ?_⟩
        intro shadowed
        rcases wellFormed.named other scope place named with ⟨found, declared, rfl, rfl⟩
        rcases wellFormed.named key builder.current place shadowed with
          ⟨same, sameDeclared, inCurrent, sameKey⟩
        rw [declared, Option.some.injEq] at sameDeclared
        subst sameDeclared
        exact different ⟨inCurrent, sameKey⟩
  · rintro (rfl | ⟨⟨scope, isOpen, other, named⟩, notShadowed⟩)
    · exact ⟨builder.current, List.mem_cons_self, key, by simp⟩
    · refine ⟨scope, isOpen, other, ?_⟩
      rw [if_neg]
      · exact named
      · rintro ⟨rfl, rfl⟩
        exact notShadowed named

theorem enter (loc : Span) : (builder.enter point loc).WellFormed (point + 1) := by
  refine ⟨?_, ?_, ?_, ?_, ?_, ?_, ?_, ?_, ?_⟩
  · intro scope isOpen
    rw [openScopes_enter, List.mem_cons] at isOpen
    rw [length_scopes_enter]
    rcases isOpen with rfl | old
    · exact Nat.lt_succ_self _
    · exact Nat.lt_succ_of_lt (wellFormed.bounded scope old)
  · refine List.nodup_cons.mpr ⟨?_, wellFormed.nodup⟩
    intro isOpen
    exact Nat.lt_irrefl _ (wellFormed.bounded _ isOpen)
  · rcases wellFormed.root with ⟨inner, scopes⟩
    exact ⟨builder.scopes.length :: inner, congrArg (builder.scopes.length :: ·) scopes⟩
  · rw [inScope?_enter]
    exact wellFormed.named
  · rw [placesIn_enter]
    exact wellFormed.listed
  · intro scope isOpen
    rw [startOf?_enter]
    split
    · exact ⟨point, rfl, .inr (Nat.lt_succ_self point)⟩
    · next old =>
        rw [openScopes_enter, List.mem_cons] at isOpen
        exact wellFormed.later.started scope (isOpen.resolve_left old)
  · rw [endOf?_enter, openScopes_enter]
    intro scope isOpen
    rcases List.mem_cons.mp isOpen with rfl | old
    · simp [endOf?, outline?_length]
    · exact wellFormed.unended scope old
  · rw [endOf?_enter, length_scopes_enter, openScopes_enter]
    intro scope inside isClosed
    simp only [List.mem_cons, not_or] at isClosed
    have old : scope < builder.scopes.length :=
      Nat.lt_of_le_of_ne (Nat.le_of_lt_succ inside) isClosed.1
    rcases wellFormed.ended scope old isClosed.2 with ⟨stop, ended, before⟩
    exact ⟨stop, ended, Nat.lt_succ_of_lt before⟩
  · exact wellFormed.later.earlier

/-- Leaving takes the innermost scope from the open ones; another one has to be left. -/
theorem exit {loc : Span} (left : builder.exit point loc = .ok next) :
    next.WellFormed (point + 1) := by
  rcases exit_cases left with ⟨scopes, _, _, count, _⟩
  have distinct := wellFormed.nodup
  rw [scopes, List.nodup_cons] at distinct
  refine ⟨?_, distinct.2, ?_, ?_, ?_, ?_, ?_, ?_, ?_⟩
  · intro scope isOpen
    rw [count]
    exact wellFormed.bounded scope (by rw [scopes]; exact List.mem_cons_of_mem _ isOpen)
  · rcases wellFormed.root with ⟨inner, rooted⟩
    rw [scopes] at rooted
    cases inner with
    | nil =>
        simp only [openScopes, List.nil_append, List.cons.injEq, reduceCtorEq, and_false] at rooted
    | cons first rest => exact ⟨rest, (List.cons.inj rooted).2⟩
  · rw [names_exit left, declared?_exit left]
    exact wellFormed.named
  · rw [placesIn_exit left, declared?_exit left]
    exact wellFormed.listed
  · intro scope isOpen
    rw [startOf?_exit left]
    exact wellFormed.later.started scope (by rw [scopes]; exact List.mem_cons_of_mem _ isOpen)
  · intro scope isOpen
    have other : scope ≠ builder.current := fun same => distinct.1 (same ▸ isOpen)
    rw [endOf?_exit left wellFormed.current_lt, if_neg other]
    exact wellFormed.unended scope (by rw [scopes]; exact List.mem_cons_of_mem _ isOpen)
  · intro scope inside isClosed
    rw [endOf?_exit left wellFormed.current_lt]
    by_cases current : scope = builder.current
    · exact ⟨point, if_pos current, Nat.lt_succ_self point⟩
    · rw [if_neg current]
      rw [count] at inside
      have wasClosed : scope ∉ builder.openScopes := by
        rw [scopes, List.mem_cons, not_or]
        exact ⟨current, isClosed⟩
      rcases wellFormed.ended scope inside wasClosed with ⟨stop, ended, before⟩
      exact ⟨stop, ended, Nat.lt_succ_of_lt before⟩
  · rw [declared?_exit left]
    exact wellFormed.later.earlier

end WellFormed

end Builder

end LoanCheck
