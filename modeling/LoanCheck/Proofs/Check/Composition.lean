import LoanCheck.Proofs.Check.Environment
import LoanCheck.Proofs.Check.Relaxation
import LoanCheck.Proofs.Check.Shift
import LoanCheck.Proofs.Liveness

/-!
# Units without a common name are judged apart

Where two units have no name in common, the unit with the statements of the one and then of the
other is told of what each is told of on its own.  Nothing of the first unit is used by the
second one, although its places are still there and its borrows may still be active; and the
end of the outermost scope, which comes once and not twice, reports nothing.
-/

namespace LoanCheck

namespace CodeUnit

variable {unit : CodeUnit} {tree : ScopeTree} {point : Point} {resolution : Resolution}

theorem lt_length_of_declared {builder : Builder} {rest : List Resolution} {place : PlaceId}
    {found : Place} (leads : Builder.Leads tree point builder rest)
    (known : builder.declared? place = some found) : place < tree.places.length := by
  obtain ⟨entry, listed, _⟩ := Option.map_eq_some_iff.mp (leads.declared known)
  exact (List.getElem?_eq_some_iff.mp listed).1

theorem within_of_scopeTree (built : unit.scopeTree = .ok tree)
    (listed : resolution ∈ tree.resolved) : resolution.effect.Within tree := by
  obtain ⟨point, found⟩ := List.mem_iff_getElem?.mp listed
  obtain ⟨statement, before, after, rest, passage⟩ := passage_at built found
  have leads := passage.crossing.leads_before
  have later := passage.crossing.leads_after
  have transition := passage.crossing.transition
  refine ⟨?_, ?_, ?_⟩
  · intro use source
    obtain ⟨found, known⟩ := passage.declared_source source
    exact lt_length_of_declared leads known
  · intro target given
    obtain ⟨found, known, _⟩ :=
      later.wellFormed.declared_of_live (transition.target_live target given)
    refine ⟨lt_length_of_declared later known, ?_⟩
    intro old shadowed
    obtain ⟨_, wasKnown, _⟩ := leads.wellFormed.declared_of_live
      (passage.shadowed_live given shadowed)
    exact lt_length_of_declared leads wasKnown
  · intro scope closes
    obtain ⟨scopes, _⟩ := transition.closes scope closes
    have isOpen : scope ∈ before.openScopes := by
      rw [scopes]
      exact List.mem_cons_self
    obtain ⟨start, started, _⟩ := leads.wellFormed.started scope isOpen
    obtain ⟨entry, there, _⟩ := leads.enter_of_started started
    refine ⟨?_, (List.getElem?_eq_some_iff.mp there).1, ?_⟩
    · -- The outermost scope is still open after the statement.
      rintro rfl
      have distinct := leads.wellFormed.nodup
      obtain ⟨inner, rooted⟩ := later.wellFormed.root
      rw [scopes, List.nodup_cons, rooted] at distinct
      exact distinct.1 (List.mem_append_right inner List.mem_cons_self)
    · intro place inScope
      obtain ⟨_, found, _⟩ := leads.exists_of_mem_placesOf inScope
      exact (List.getElem?_eq_some_iff.mp found).1

end CodeUnit

theorem Shift.source?_effect (shift : Shift) (effect : Effect) :
    (shift.effect effect).source? = effect.source?.map shift.use := by
  cases effect <;> rfl

/-- The operand of a statement is none of the first so many shifted places. -/
def Resolution.Spares (shift : Shift) (bound : Nat) (resolution : Resolution) : Prop :=
  ∀ use, resolution.effect.source? = some use → ∀ place, place < bound →
    use.place ≠ place + shift.places

namespace Liveness

/-- Two tables have the same last uses of the places of a unit, shifted. -/
def Agree (shift : Shift) (bound : Nat) (liveness host : Liveness) : Prop :=
  ∀ place, place < bound →
    host.get? (place + shift.places) = (liveness.get? place).map (· + shift.points)

namespace Agree

variable {shift : Shift} {bound : Nat} {liveness host : Liveness}
  (agree : Agree shift bound liveness host)

include agree

theorem liveAfter_eq {place : PlaceId} (known : place < bound) (point : Point) :
    host.liveAfter (place + shift.places) (point + shift.points : Nat) =
      liveness.liveAfter place point := by
  rw [liveAfter, agree place known, liveAfter]
  cases liveness.get? place with
  | none =>
      simp only [Option.map_none, decide_eq_decide]
      omega
  | some last =>
      simp only [Option.map_some, decide_eq_decide]
      omega

theorem set (place : PlaceId) (last : Point) :
    Agree shift bound (liveness.set place last)
      (host.set (place + shift.places) (last + shift.points)) := by
  intro other known
  rw [Table.get?_set, Table.get?_set, agree other known]
  simp only [Nat.add_right_cancel_iff]
  split <;> rfl

/-- A last use of another place changes nothing. -/
theorem set_other {place : PlaceId} (other : ∀ inner, inner < bound → place ≠ inner + shift.places)
    (last : Point) : Agree shift bound liveness (host.set place last) := by
  intro inner known
  rw [Table.get?_set, if_neg (other inner known).symm]
  exact agree inner known

theorem addUse_other {tree : ScopeTree} {resolution : Resolution}
    (spared : resolution.Spares shift bound) :
    Agree shift bound liveness (addUse tree host resolution) := by
  unfold addUse
  split
  · exact agree
  · next source found =>
      split
      · split
        · exact agree.set_other (spared source found) _
        · exact agree.set_other (spared source found) _
      · exact agree

theorem carryBack_other {tree : ScopeTree} {resolution : Resolution}
    (spared : resolution.Spares shift bound) :
    Agree shift bound liveness (carryBack tree host resolution) := by
  rcases carryBack_cases tree host resolution with
    same | ⟨kind, target, source, last, lends, _, _, carried⟩
  · rw [same]
    exact agree
  · rw [carried]
    exact agree.set_other (spared source (by rw [lends]; rfl)) last

theorem foldl_other {carry : Liveness → Resolution → Liveness} {resolved : List Resolution}
    (keeps : ∀ {host resolution}, resolution ∈ resolved → Agree shift bound liveness host →
      Agree shift bound liveness (carry host resolution)) :
    Agree shift bound liveness (resolved.foldl carry host) := by
  induction resolved generalizing host with
  | nil => exact agree
  | cons resolution rest inductionHypothesis =>
      exact inductionHypothesis (keeps List.mem_cons_self agree)
        fun later => keeps (List.mem_cons_of_mem _ later)

theorem foldl {carry hostCarry : Liveness → Resolution → Liveness} {resolved : List Resolution}
    (keeps : ∀ {liveness host resolution}, resolution ∈ resolved →
      Agree shift bound liveness host →
        Agree shift bound (carry liveness resolution)
          (hostCarry host (shift.resolution resolution))) :
    Agree shift bound (resolved.foldl carry liveness)
      ((resolved.map shift.resolution).foldl hostCarry host) := by
  induction resolved generalizing liveness host with
  | nil => exact agree
  | cons resolution rest inductionHypothesis =>
      exact inductionHypothesis (keeps List.mem_cons_self agree)
        fun later => keeps (List.mem_cons_of_mem _ later)

/-- Statements before and after those of the unit do not matter if they leave its places alone. -/
theorem foldl_between {carry hostCarry : Liveness → Resolution → Liveness}
    {front resolved back : List Resolution}
    (keeps : ∀ {liveness host resolution}, resolution ∈ resolved →
      Agree shift bound liveness host →
        Agree shift bound (carry liveness resolution)
          (hostCarry host (shift.resolution resolution)))
    (ignores : ∀ {liveness host resolution}, resolution ∈ front ++ back →
      Agree shift bound liveness host → Agree shift bound liveness (hostCarry host resolution)) :
    Agree shift bound (resolved.foldl carry liveness)
      ((front ++ (resolved.map shift.resolution ++ back)).foldl hostCarry host) := by
  rw [List.foldl_append, List.foldl_append]
  have before := agree.foldl_other fun listed => ignores (List.mem_append_left back listed)
  exact (before.foldl keeps).foldl_other fun listed => ignores (List.mem_append_right front listed)

end Agree

section Tree

variable {shift : Shift} {tree hostTree : ScopeTree} (embeds : tree.Embeds shift hostTree)
  {liveness host : Liveness} (agree : Agree shift tree.places.length liveness host)
  {resolution : Resolution} (known : resolution.effect.Within tree)

include embeds agree known

theorem Agree.addUse :
    Agree shift tree.places.length (addUse tree liveness resolution)
      (Liveness.addUse hostTree host (shift.resolution resolution)) := by
  simp only [Liveness.addUse, Shift.resolution, shift.source?_effect]
  cases source : resolution.effect.source? with
  | none => exact agree
  | some use =>
      have inside := known.source use source
      simp only [Option.map_some, Shift.use, embeds.holdsReference_eq inside,
        agree use.place inside]
      split
      · cases liveness.get? use.place with
        | none => exact agree.set use.place resolution.point
        | some last =>
            simp only [Option.map_some, Nat.add_max_add_right]
            exact agree.set use.place (max last resolution.point)
      · exact agree

theorem Agree.carryBack :
    Agree shift tree.places.length (carryBack tree liveness resolution)
      (Liveness.carryBack hostTree host (shift.resolution resolution)) := by
  obtain ⟨point, scope, loc, effect⟩ := resolution
  cases effect with
  | borrow kind target source =>
      have inside := known.source source rfl
      have given := (known.target target rfl).1
      simp only [Liveness.carryBack, Shift.resolution, Shift.effect, Shift.use, shift.target_place,
        embeds.holdsReference_eq inside, agree source.place inside, agree target.place given]
      split
      · cases liveness.get? target.place with
        | none => exact agree
        | some last =>
            have earlier : (((liveness.get? source.place).map (· + shift.points)).all fun own =>
                decide (own < last + shift.points)) =
                  (liveness.get? source.place).all fun own => decide (own < last) := by
              cases liveness.get? source.place <;> simp
            simp only [Option.map_some, earlier]
            split
            · exact agree.set source.place last
            · exact agree
      · exact agree
  | _ => exact agree

end Tree

end Liveness

/-- The last uses of a unit inside another one are its own. -/
theorem ScopeTree.liveness_agree {shift : Shift} {guest host : ScopeTree}
    (embeds : guest.Embeds shift host) {front back : List Resolution}
    (known : ∀ resolution ∈ guest.resolved, resolution.effect.Within guest)
    (resolved : host.resolved = front ++ (guest.resolved.map shift.resolution ++ back))
    (spared : ∀ resolution ∈ front ++ back, resolution.Spares shift guest.places.length) :
    Liveness.Agree shift guest.places.length guest.liveness host.liveness := by
  have empty : Liveness.Agree shift guest.places.length [] [] := fun _ _ => rfl
  have uses : Liveness.Agree shift guest.places.length
      (guest.resolved.foldl (Liveness.addUse guest) [])
      (host.resolved.foldl (Liveness.addUse host) []) := by
    rw [resolved]
    apply empty.foldl_between
    · exact fun listed agree => agree.addUse embeds (known _ listed)
    · exact fun listed agree => agree.addUse_other (spared _ listed)
  have reversed : host.resolved.reverse =
      back.reverse ++ (guest.resolved.reverse.map shift.resolution ++ front.reverse) := by
    rw [resolved, List.reverse_append, List.reverse_append, List.map_reverse, List.append_assoc]
  rw [liveness, liveness, reversed]
  apply uses.foldl_between
  · exact fun listed agree => agree.carryBack embeds (known _ (List.mem_reverse.mp listed))
  · intro _ _ resolution listed agree
    refine agree.carryBack_other (spared resolution ?_)
    rw [← List.reverse_append, List.mem_reverse] at listed
    exact listed

namespace State

variable {context : Context} {state : State}

/-- Where no borrow is active, a place is dropped in silence. -/
theorem dropPlace_of_idle (consistent : state.ledger.Consistent)
    (idle : ∀ borrow ∈ state.ledger.borrows, borrow.isActive = false) (place : PlaceId)
    (point : Point) (span : Span) :
    (dropPlace context state place point span).diagnostics = state.diagnostics := by
  have ended := retireHeldBy_becomes state place point
  have free : (state.retireHeldBy place point).ledger.activeOn place = [] := by
    rw [(ended.consistent consistent).activeOn_eq_nil_iff, ended.borrows consistent]
    intro _ listed active
    obtain ⟨borrow, old, rfl⟩ := List.mem_map.mp listed
    rw [Borrow.isActive_endedIf, idle borrow old] at active
    cases active
  rw [dropPlace, checkDrop_of_free free]
  rfl

theorem foldl_dropPlace_of_idle (consistent : state.ledger.Consistent)
    (idle : ∀ borrow ∈ state.ledger.borrows, borrow.isActive = false) (places : List PlaceId)
    (point : Point) (span : Span) :
    (places.foldl (fun state place => dropPlace context state place point span)
      state).diagnostics = state.diagnostics := by
  induction places generalizing state with
  | nil => rfl
  | cons place rest inductionHypothesis =>
      have dropped := dropPlace_becomes context state place point span
      rw [List.foldl_cons, inductionHypothesis (dropped.consistent consistent)]
      · exact dropPlace_of_idle consistent idle place point span
      · rw [dropped.borrows consistent]
        intro _ listed
        obtain ⟨borrow, old, rfl⟩ := List.mem_map.mp listed
        rw [Function.comp_apply, Borrow.isActive_outlivedIf, Borrow.isActive_endedIf,
          idle borrow old]
        rfl

theorem foldl_retireHeldBy_diagnostics (places : List PlaceId) (point : Point) (state : State) :
    (places.foldl (fun state place => state.retireHeldBy place point) state).diagnostics =
      state.diagnostics := by
  induction places generalizing state with
  | nil => rfl
  | cons place rest inductionHypothesis =>
      exact inductionHypothesis (state.retireHeldBy place point)

/-- The end of a scope whose places keep all active borrows reports nothing. -/
theorem exitScope_of_kept {scope : ScopeId} (consistent : state.ledger.Consistent)
    (kept : ∀ borrow ∈ state.ledger.borrows, borrow.isActive = true →
      borrow.holder ∈ state.ownership.remaining context.tree scope)
    (point : Point) (span : Span) :
    (exitScope context state scope point span).diagnostics = state.diagnostics := by
  have ended := foldl_retireHeldBy_becomes (state.ownership.remaining context.tree scope) point
    state
  refine (foldl_dropPlace_of_idle (ended.consistent consistent) ?_ _ point span).trans
    (foldl_retireHeldBy_diagnostics _ point state)
  rw [ended.borrows consistent]
  intro _ listed
  obtain ⟨borrow, old, rfl⟩ := List.mem_map.mp listed
  rw [Borrow.isActive_endedIf, Bool.and_eq_false_iff, Bool.not_eq_false', List.contains_iff_mem,
    or_iff_not_imp_left, Bool.not_eq_false]
  exact kept borrow old

end State

namespace Context

variable {context : Context} (leads : Builder.Leads context.tree 0 {} context.tree.resolved)

include leads

/-- Everything is reported by statements. -/
theorem run_diagnostics :
    context.run.diagnostics =
      (context.stateBefore context.tree.resolved.length).diagnostics := by
  obtain ⟨_, _, sound⟩ := sound_stateBefore leads (Nat.le_refl _)
  rw [run_eq]
  exact State.exitScope_of_kept sound.consistent (fun _ => holder_remains leads) _ _

theorem length_run_borrows :
    context.run.ledger.borrows.length =
      (context.stateBefore context.tree.resolved.length).ledger.borrows.length := by
  obtain ⟨_, _, sound⟩ := sound_stateBefore leads (Nat.le_refl _)
  rw [(run_becomes context).borrows sound.consistent, List.length_map]

end Context

namespace Context

theorem embeds_ofTree {shift : Shift} {guest host : ScopeTree} (embeds : guest.Embeds shift host)
    (agree : Liveness.Agree shift guest.places.length guest.liveness host.liveness)
    (config : Config) : (ofTree config guest).Embeds shift (ofTree config host) := by
  refine ⟨embeds, ?_⟩
  intro place known point
  simp only [ofTree]
  split
  · simp only [Option.any_some, agree.liveAfter_eq known point]
  · rfl

/-- As long as both start in step, they stay so from statement to statement. -/
theorem embeds_stateBefore {shift : Shift} {guest host : Context} {earlier : State}
    (contexts : guest.Embeds shift host)
    (leads : Builder.Leads guest.tree 0 {} guest.tree.resolved)
    (known : ∀ resolution ∈ guest.tree.resolved, resolution.effect.Within guest.tree)
    (resolved : ∀ point resolution, guest.tree.resolved[point]? = some resolution →
      host.tree.resolved[point + shift.points]? = some (shift.resolution resolution))
    (start : State.Embeds shift guest host earlier {} (host.stateBefore shift.points))
    {point : Point} (inside : point ≤ guest.tree.resolved.length) :
    State.Embeds shift guest host earlier (guest.stateBefore point)
      (host.stateBefore (point + shift.points)) := by
  induction point with
  | zero =>
      rw [Nat.zero_add]
      exact start
  | succ point inductionHypothesis =>
      have listed := List.getElem?_eq_getElem (Nat.lt_of_succ_le inside)
      have early := Nat.le_of_succ_le inside
      rw [Nat.succ_eq_add_one, Nat.add_right_comm, stateBefore_succ listed,
        stateBefore_succ (resolved point _ listed)]
      exact (inductionHypothesis early).advance (known _ (List.mem_of_getElem? listed))
        (kept_stateBefore leads early).alone contexts

end Context

theorem Diagnostic.moved_still (diagnostic : Diagnostic) : diagnostic.moved 0 0 = diagnostic := by
  obtain ⟨kind, message, point, place, borrow, span, notes⟩ := diagnostic
  cases borrow <;> simp [moved]

namespace CodeUnit

variable {first second joined : CodeUnit} {early late tree : ScopeTree} {borrows : Nat}
  (builtFirst : first.scopeTree = .ok early) (builtSecond : second.scopeTree = .ok late)
  (builtJoined : joined.scopeTree = .ok tree)
  (inRow : joined.statements = first.statements ++ second.statements)
  (joins : early.Joins late borrows tree) (config : Config)

include builtFirst joins

/-- The second unit uses no place of the first one. -/
theorem contexts_first :
    (Context.ofTree config early).Embeds .still (Context.ofTree config tree) := by
  apply Context.embeds_ofTree joins.first
  have split : tree.resolved = [] ++ (early.resolved.map Shift.still.resolution ++
      late.resolved.map (early.shift borrows).resolution) := by
    rw [Shift.still_resolution, List.map_id, List.nil_append, joins.resolved]
  refine ScopeTree.liveness_agree joins.first (fun _ => within_of_scopeTree builtFirst) split ?_
  intro _ listed use source place known
  obtain ⟨resolution, member, rfl⟩ := List.mem_map.mp listed
  rw [Shift.resolution, Shift.source?_effect] at source
  obtain ⟨own, _, rfl⟩ := Option.map_eq_some_iff.mp source
  exact Nat.ne_of_gt (Nat.lt_of_lt_of_le known (Nat.le_add_left _ _))

include builtSecond in
/-- The first unit uses no place of the second one. -/
theorem contexts_second :
    (Context.ofTree config late).Embeds (early.shift borrows) (Context.ofTree config tree) := by
  apply Context.embeds_ofTree joins.second
  have split : tree.resolved = early.resolved ++
      (late.resolved.map (early.shift borrows).resolution ++ []) := by
    rw [List.append_nil, joins.resolved]
  refine ScopeTree.liveness_agree joins.second (fun _ => within_of_scopeTree builtSecond) split ?_
  intro resolution listed use source place known
  rw [List.append_nil] at listed
  have inside := (within_of_scopeTree builtFirst listed).source use source
  exact Nat.ne_of_lt (Nat.lt_of_lt_of_le inside (Nat.le_add_left _ _))

/-- Up to the seam the first unit is judged as on its own. -/
theorem embeds_first :
    State.Embeds .still (Context.ofTree config early) (Context.ofTree config tree) {}
      ((Context.ofTree config early).stateBefore early.resolved.length)
      ((Context.ofTree config tree).stateBefore early.resolved.length) := by
  apply Context.embeds_stateBefore (contexts_first builtFirst joins config)
    (Builder.leads_of_scopeTree builtFirst).2 (fun _ => within_of_scopeTree builtFirst) _ _
    (Nat.le_refl _)
  · intro point resolution listed
    have inside := (List.getElem?_eq_some_iff.mp listed).1
    rw [Shift.still_resolution]
    exact (congrArg (·[point]?) joins.resolved).trans
      ((List.getElem?_append_left inside).trans listed)
  · refine ⟨?_, ⟨Ledger.consistent_empty, Ledger.consistent_empty, ?_, [], rfl, ?_, rfl⟩, rfl, ?_,
      ?_, rfl⟩
    · exact fun place known => joins.first.freshRecord_eq known
    · exact fun _ absent => absurd absent List.not_mem_nil
    · exact fun _ absent => absurd absent List.not_mem_nil
    · exact fun _ absent => absurd absent List.not_mem_nil
    · exact fun _ _ => List.not_mem_nil

section Seam

include builtJoined inRow

omit joins in
/-- At the seam no place of the second unit has been met. -/
theorem unmet_at_seam (place : PlaceId) :
    ((Context.ofTree config tree).stateBefore early.resolved.length).ownership.get?
      (place + early.places.length) = none := by
  obtain ⟨prior, _, reached, _, leads⟩ := leads_builderAt builtFirst (Nat.le_refl _)
  have places : early.places = prior.places := by
    rw [scopeTree, bind_eq_ok_iff] at builtFirst
    obtain ⟨last, taken, finished⟩ := builtFirst
    rw [builderAt, List.take_length, taken] at reached
    cases reached
    exact (Builder.finish_cases finished).2.2.1
  have inside : first.statements.length ≤ joined.statements.length := by
    rw [inRow, List.length_append]
    exact Nat.le_add_right _ _
  have sameBuilder : joined.builderAt first.statements.length = .ok prior := by
    rw [builderAt, inRow, List.take_left, ← reached, builderAt, List.take_length]
  have mirrors := mirrors_builderAt builtJoined config inside sameBuilder
  rw [length_of_scopeTree builtFirst]
  by_contra met
  obtain ⟨found, known⟩ := mirrors.declared _ (Option.isSome_iff_ne_none.mpr met)
  obtain ⟨entry, listed, _⟩ := Option.map_eq_some_iff.mp known
  have bound := (List.getElem?_eq_some_iff.mp listed).1
  rw [places] at bound
  exact absurd bound (Nat.not_lt.mpr (Nat.le_add_left _ _))

/-- From the seam on the second unit is judged as on its own. -/
theorem embeds_second (builtSecond : second.scopeTree = .ok late)
    (counted : ((Context.ofTree config early).stateBefore
      early.resolved.length).ledger.borrows.length = borrows) :
    State.Embeds (early.shift borrows) (Context.ofTree config late) (Context.ofTree config tree)
      ((Context.ofTree config tree).stateBefore early.resolved.length)
      ((Context.ofTree config late).stateBefore late.resolved.length)
      ((Context.ofTree config tree).stateBefore
        (late.resolved.length + early.resolved.length)) := by
  have start := embeds_first builtFirst joins config
  have points : (early.shift borrows).points = early.resolved.length := by
    rw [length_of_scopeTree builtFirst]
    exact congrArg endPoint (Builder.leads_of_scopeTree builtFirst).1
  rw [← points]
  apply Context.embeds_stateBefore (contexts_second builtFirst builtSecond joins config)
    (Builder.leads_of_scopeTree builtSecond).2 (fun _ => within_of_scopeTree builtSecond) _ _
    (Nat.le_refl _)
  · intro point resolution listed
    rw [points]
    refine (congrArg (·[point + early.resolved.length]?) joins.resolved).trans
      ((List.getElem?_append_right (Nat.le_add_left _ _)).trans ?_)
    rw [Nat.add_sub_cancel, List.getElem?_map]
    exact congrArg (Option.map _) listed
  · rw [points]
    obtain ⟨others, count, _, appended⟩ := start.ledger.borrows
    have alone : others = [] := List.eq_nil_of_length_eq_zero count
    rw [alone, List.nil_append] at appended
    refine ⟨?_, ⟨Ledger.consistent_empty, start.ledger.hostConsistent, ?_, _, ?_, ?_,
      (List.append_nil _).symm⟩, rfl, ?_, ?_, (List.append_nil _).symm⟩
    · intro place known
      rw [Ownership.record, show (early.shift borrows).places = early.places.length from rfl,
        unmet_at_seam builtFirst builtJoined inRow config place]
      exact joins.second.freshRecord_eq known
    · exact fun _ absent => absurd absent List.not_mem_nil
    · rw [appended, List.length_map]
      exact counted
    · rw [appended]
      intro _ listed place _
      obtain ⟨borrow, old, rfl⟩ := List.mem_map.mp listed
      obtain ⟨referent, holder⟩ := start.ledger.inside borrow old
      exact ⟨Nat.ne_of_lt (Nat.lt_of_lt_of_le referent (Nat.le_add_left _ _)),
        Nat.ne_of_lt (Nat.lt_of_lt_of_le holder (Nat.le_add_left _ _))⟩
    · exact fun _ absent => absurd absent List.not_mem_nil
    · intro place _ noted
      rw [start.escapes, List.append_nil] at noted
      obtain ⟨own, escaped, same⟩ := List.mem_map.mp noted
      have inside := start.noted own escaped
      rw [← Nat.add_zero own, show own + 0 = place + early.places.length from same] at inside
      exact absurd inside (Nat.not_lt.mpr (Nat.le_add_left _ _))

/-- What is reported of two units in a row is what is reported of each. -/
theorem run_diagnostics_of_joins (builtSecond : second.scopeTree = .ok late)
    (counted : (Context.ofTree config early).run.ledger.borrows.length = borrows) :
    (Context.ofTree config tree).run.diagnostics.map Diagnostic.bare =
      (Context.ofTree config early).run.diagnostics.map Diagnostic.bare ++
        (Context.ofTree config late).run.diagnostics.map fun diagnostic =>
          (diagnostic.moved first.statements.length borrows).bare := by
  have leadsEarly := (Builder.leads_of_scopeTree builtFirst).2
  have start := embeds_first builtFirst joins config
  have rest := embeds_second builtFirst builtJoined inRow joins config builtSecond
    ((Context.length_run_borrows leadsEarly).symm.trans counted)
  have points : (early.shift borrows).points = first.statements.length :=
    congrArg endPoint (Builder.leads_of_scopeTree builtFirst).1
  have whole : tree.resolved.length = late.resolved.length + early.resolved.length := by
    rw [joins.resolved, List.length_append, List.length_map, Nat.add_comm]
  calc (Context.ofTree config tree).run.diagnostics.map Diagnostic.bare
    _ = ((Context.ofTree config tree).stateBefore
          (late.resolved.length + early.resolved.length)).diagnostics.map Diagnostic.bare := by
      rw [Context.run_diagnostics (Builder.leads_of_scopeTree builtJoined).2, ← whole]
      rfl
    _ = ((Context.ofTree config tree).stateBefore early.resolved.length).diagnostics.map
          Diagnostic.bare ++
        ((Context.ofTree config late).stateBefore late.resolved.length).diagnostics.map
          fun diagnostic => (diagnostic.moved first.statements.length borrows).bare := by
      rw [rest.diagnostics, points]
      rfl
    _ = _ := by
      rw [start.diagnostics, Context.run_diagnostics leadsEarly,
        Context.run_diagnostics (Builder.leads_of_scopeTree builtSecond).2]
      congr 1
      exact List.map_congr_left fun diagnostic _ =>
        congrArg Diagnostic.bare (Diagnostic.moved_still diagnostic)

end Seam

end CodeUnit

/-- A limit that leaves room for a unit leaves room for a shorter one. -/
theorem Config.admits_of_length_le {config : Config} {unit other : CodeUnit}
    (shorter : other.statements.length ≤ unit.statements.length)
    (admitted : config.admits unit = .ok ()) : config.admits other = .ok () := by
  unfold admits at admitted ⊢
  split at admitted
  · rfl
  · split at admitted
    · cases admitted
    · next limit _ room =>
        exact if_neg fun exceeded => room (Nat.lt_of_lt_of_le exceeded shorter)

/-- Two units that have no name in common are judged apart.  In a row they are analysed, and what
is reported of them is what is reported of the first one and then what is reported of the second
one, with its points counted from the end of the first one and its borrows after those of the
first one. -/
theorem CodeUnit.disjoint_units_judged_apart {first second joined : CodeUnit}
    {early late : ScopeTree} (config : Config) (recordStates : Bool)
    (builtFirst : first.scopeTree = .ok early) (builtSecond : second.scopeTree = .ok late)
    (disjoint : early.DisjointNames late)
    (inRow : joined.statements = first.statements ++ second.statements)
    (admitted : config.admits joined = .ok ()) :
    ∃ left right whole,
      first.check config recordStates = .ok left ∧
      second.check config recordStates = .ok right ∧
      joined.check config recordStates = .ok whole ∧
      whole.diagnostics.map Diagnostic.bare =
        left.diagnostics.map Diagnostic.bare ++ right.diagnostics.map fun diagnostic =>
          (diagnostic.moved first.statements.length left.borrows.length).bare := by
  obtain ⟨tree, builtJoined, joins⟩ := joins_of_append builtFirst builtSecond disjoint inRow
    (Context.ofTree config early).run.ledger.borrows.length
  have lengths : joined.statements.length =
      first.statements.length + second.statements.length := by
    rw [inRow, List.length_append]
  have roomFirst : config.admits first = .ok () :=
    Config.admits_of_length_le (lengths ▸ Nat.le_add_right _ _) admitted
  have roomSecond : config.admits second = .ok () :=
    Config.admits_of_length_le (lengths ▸ Nat.le_add_left _ _) admitted
  obtain ⟨_, left⟩ := check_of_scopeTree roomFirst builtFirst recordStates
  obtain ⟨_, right⟩ := check_of_scopeTree roomSecond builtSecond recordStates
  obtain ⟨_, whole⟩ := check_of_scopeTree admitted builtJoined recordStates
  exact ⟨_, _, _, left, right, whole,
    run_diagnostics_of_joins builtFirst builtJoined inRow joins config builtSecond rfl⟩

/-- A place is written to although it is lent, and stays lent. -/
def writtenWhileLent : CodeUnit := .ofActions "written while lent" [
  .bind (.str "x") (.bool true) none (.bool false) (.bool false),
  .borrow .shared (.str "r") (.str "x"),
  .write (.str "x")]

/-- A place is written to although it is lent, and its reference outlives it. -/
def outlivedWhileLent : CodeUnit := .ofActions "outlived while lent" [
  .declare (.str "s") (.bool true) (.bool false),
  .enter,
  .bind (.str "y") (.bool true) none (.bool false) (.bool false),
  .borrow .exclusive (.str "s") (.str "y"),
  .write (.str "y"),
  .exit]

def lentInRow : CodeUnit :=
  ⟨"lent in a row", writtenWhileLent.statements ++ outlivedWhileLent.statements⟩

/-- The borrow of the first unit is active at all points of the second one, and the borrows that
are told of by the second one are counted on. -/
theorem lentPlaces_judged_apart :
    ∃ left right whole,
      writtenWhileLent.check {} false = .ok left ∧
      outlivedWhileLent.check {} false = .ok right ∧
      lentInRow.check {} false = .ok whole ∧
      (left.diagnostics.map fun diagnostic => (diagnostic.point, diagnostic.borrow)) =
        [(2, some 0)] ∧
      (right.diagnostics.map fun diagnostic => (diagnostic.point, diagnostic.borrow)) =
        [(4, some 0), (5, some 0)] ∧
      (whole.diagnostics.map fun diagnostic => (diagnostic.point, diagnostic.borrow)) =
        [(2, some 0), (7, some 1), (8, some 1)] ∧
      whole.diagnostics.map Diagnostic.bare =
        left.diagnostics.map Diagnostic.bare ++
          right.diagnostics.map fun diagnostic =>
            (diagnostic.moved 3 left.borrows.length).bare := by
  have found : (writtenWhileLent.scopeTree.toOption.any fun early =>
      outlivedWhileLent.scopeTree.toOption.any fun late =>
        decide (early.DisjointNames late)) = true := by
    decide +kernel
  obtain ⟨early, builtFirst, found⟩ := (Option.any_eq_true _ _).mp found
  obtain ⟨late, builtSecond, disjoint⟩ := (Option.any_eq_true _ _).mp found
  have inRow : lentInRow.statements =
      writtenWhileLent.statements ++ outlivedWhileLent.statements := rfl
  obtain ⟨left, right, whole, checkedFirst, checkedSecond, checkedBoth, apart⟩ :=
    CodeUnit.disjoint_units_judged_apart {} false (toOption_eq_some_iff.mp builtFirst)
      (toOption_eq_some_iff.mp builtSecond) (of_decide_eq_true disjoint) inRow rfl
  have told : ∀ unit : CodeUnit, ∀ outcome, unit.check {} false = .ok outcome →
      ((unit.check {} false).toOption.map fun outcome =>
        outcome.diagnostics.map fun diagnostic => (diagnostic.point, diagnostic.borrow)) =
          some (outcome.diagnostics.map fun diagnostic =>
            (diagnostic.point, diagnostic.borrow)) := by
    intro unit outcome checked
    rw [checked]
    rfl
  refine ⟨left, right, whole, checkedFirst, checkedSecond, checkedBoth, ?_, ?_, ?_, apart⟩
  · exact Option.some.inj ((told _ _ checkedFirst).symm.trans (by decide +kernel))
  · exact Option.some.inj ((told _ _ checkedSecond).symm.trans (by decide +kernel))
  · exact Option.some.inj ((told _ _ checkedBoth).symm.trans (by decide +kernel))

end LoanCheck
