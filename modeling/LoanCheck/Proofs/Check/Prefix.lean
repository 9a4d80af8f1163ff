import LoanCheck.Proofs.Check.Enclosed
import LoanCheck.Proofs.Check.Renaming
import LoanCheck.Proofs.Scope.Prefix

/-!
# An accepted unit begins with accepted units

Later statements matter to earlier ones in two ways.  A reference may be used by them, so that
its borrows last longer; and they may tell what a place holds.  Neither helps the earlier
statements.  Without the later uses borrows end sooner, which relaxes the analysis.  And where
nothing is reported, a place that has its value was given it by a statement that tells what it
holds, so nothing new is learnt of an operand later.
-/

namespace LoanCheck

namespace Liveness

/-- Every last use is in the other table, too, and no sooner. -/
def Below (small big : Liveness) : Prop :=
  ∀ place last, small.get? place = some last → ∃ later, big.get? place = some later ∧ last ≤ later

namespace Below

variable {small big : Liveness} (below : Below small big)

include below

theorem liveAfter {place : PlaceId} {point : Point} (live : small.liveAfter place point = true) :
    big.liveAfter place point = true := by
  obtain ⟨last, used, after⟩ := liveAfter_iff.mp live
  obtain ⟨later, usedLater, sooner⟩ := below place last used
  exact liveAfter_iff.mpr ⟨later, usedLater, Nat.lt_of_lt_of_le after sooner⟩

theorem set_both (place : PlaceId) {last later : Point} (sooner : last ≤ later) :
    Below (small.set place last) (big.set place later) := by
  intro other found known
  rw [Table.get?_set] at known ⊢
  split at known
  · next same =>
      cases known
      exact ⟨later, if_pos same, sooner⟩
  · next different =>
      rw [if_neg different]
      exact below other found known

theorem set_small {place : PlaceId} {last later : Point} (used : big.get? place = some later)
    (sooner : last ≤ later) : Below (small.set place last) big := by
  intro other found known
  rw [Table.get?_set] at known
  split at known
  · next same =>
      cases known
      exact ⟨later, same ▸ used, sooner⟩
  · exact below other found known

theorem set_big {place : PlaceId} {later : Point}
    (raises : ∀ own, big.get? place = some own → own ≤ later) :
    Below small (big.set place later) := by
  intro other found known
  obtain ⟨own, used, sooner⟩ := below other found known
  rw [Table.get?_set]
  split
  · next same => exact ⟨later, rfl, Nat.le_trans sooner (raises own (same ▸ used))⟩
  · exact ⟨own, used, sooner⟩

variable {early tree : ScopeTree} {resolution : Resolution}

theorem addUse_big : Below small (addUse tree big resolution) := by
  unfold addUse
  split
  · exact below
  · split
    · split
      · next last used =>
          apply below.set_big
          intro own known
          cases used.symm.trans known
          exact Nat.le_max_left _ _
      · next unused =>
          apply below.set_big
          intro own known
          cases unused.symm.trans known
    · exact below

theorem carryBack_big : Below small (carryBack tree big resolution) := by
  rcases carryBack_cases tree big resolution with
    same | ⟨kind, target, source, last, lends, found, raises, carried⟩
  · rw [same]
    exact below
  · rw [carried]
    exact below.set_big fun own known => Nat.le_of_lt (raises own known)

variable (references : ∀ place, early.holdsReference place = true →
  tree.holdsReference place = true)

include references

theorem addUse : Below (addUse early small resolution) (Liveness.addUse tree big resolution) := by
  cases source : resolution.effect.source? with
  | none =>
      simp only [Liveness.addUse, source]
      exact below
  | some use =>
      cases reference : early.holdsReference use.place with
      | false =>
          have unchanged : Liveness.addUse early small resolution = small := by
            simp [Liveness.addUse, source, reference]
          rw [unchanged]
          exact below.addUse_big
      | true =>
          simp only [Liveness.addUse, source, reference, references _ reference, if_true]
          cases used : small.get? use.place with
          | none =>
              cases usedLater : big.get? use.place with
              | none => exact below.set_both use.place (Nat.le_refl _)
              | some later => exact below.set_both use.place (Nat.le_max_right _ _)
          | some last =>
              obtain ⟨later, usedLater, sooner⟩ := below use.place last used
              have raised : max last resolution.point ≤ max later resolution.point :=
                Nat.max_le.mpr ⟨Nat.le_trans sooner (Nat.le_max_left _ _), Nat.le_max_right _ _⟩
              rw [usedLater]
              exact below.set_both use.place raised

theorem carryBack :
    Below (carryBack early small resolution) (Liveness.carryBack tree big resolution) := by
  rcases carryBack_cases early small resolution with
    same | ⟨kind, target, source, last, lends, found, raises, carried⟩
  · rw [same]
    exact below.carryBack_big
  · cases reference : early.holdsReference source.place with
    | false =>
        have unchanged : Liveness.carryBack early small resolution = small := by
          simp [Liveness.carryBack, lends, reference]
        rw [unchanged]
        exact below.carryBack_big
    | true =>
        obtain ⟨later, usedLater, sooner⟩ := below target.place last found
        rw [carried]
        simp only [Liveness.carryBack, lends, references _ reference, if_true, usedLater]
        split
        · exact below.set_both source.place sooner
        · next kept =>
            cases known : big.get? source.place with
            | none => simp [known] at kept
            | some own =>
                rw [known, Option.all_some, decide_eq_true_eq] at kept
                exact below.set_small known (Nat.le_trans sooner (Nat.le_of_not_lt kept))

end Below

theorem Below.foldl_big {small big : Liveness} (carry : Liveness → Resolution → Liveness)
    (keeps : ∀ {big resolution}, Below small big → Below small (carry big resolution))
    (resolved : List Resolution) (below : Below small big) :
    Below small (resolved.foldl carry big) := by
  induction resolved generalizing big with
  | nil => exact below
  | cons resolution rest inductionHypothesis => exact inductionHypothesis (keeps below)

theorem Below.foldl {small big : Liveness} (carry carryBig : Liveness → Resolution → Liveness)
    (keeps : ∀ {small big resolution}, Below small big →
      Below (carry small resolution) (carryBig big resolution))
    (resolved : List Resolution) (below : Below small big) :
    Below (resolved.foldl carry small) (resolved.foldl carryBig big) := by
  induction resolved generalizing small big with
  | nil => exact below
  | cons resolution rest inductionHypothesis => exact inductionHypothesis (keeps below)

end Liveness

/-- More statements use no reference sooner for the last time. -/
theorem ScopeTree.Begins.liveness_below {early tree : ScopeTree} (begins : early.Begins tree) :
    Liveness.Below early.liveness tree.liveness := by
  obtain ⟨rest, resolved⟩ := begins.resolved
  have empty : Liveness.Below [] [] := fun _ last known => ⟨last, known, Nat.le_refl _⟩
  have uses : Liveness.Below (early.resolved.foldl (Liveness.addUse early) [])
      (tree.resolved.foldl (Liveness.addUse tree) []) := by
    rw [resolved, List.foldl_append]
    apply Liveness.Below.foldl_big (Liveness.addUse tree) fun below => below.addUse_big
    exact empty.foldl (Liveness.addUse early) (Liveness.addUse tree)
      (fun below => below.addUse begins.references) early.resolved
  rw [liveness, liveness, resolved, List.reverse_append, List.foldl_append, ← resolved]
  apply Liveness.Below.foldl (Liveness.carryBack early) (Liveness.carryBack tree)
    fun below => below.carryBack begins.references
  exact uses.foldl_big (Liveness.carryBack tree) (fun below => below.carryBack_big) rest.reverse

/-- Whatever ends by the last uses of one table has ended by those of the other one. -/
def Liveness.Sooner (broad narrow : Option Liveness) : Prop :=
  ∀ place (point : Point),
    (broad.any fun liveness => !liveness.liveAfter place point) = true →
      (narrow.any fun liveness => !liveness.liveAfter place point) = true

theorem ScopeTree.Begins.sooner {early tree : ScopeTree} (begins : early.Begins tree)
    (config : Config) :
    Liveness.Sooner (Context.ofTree config tree).liveness
      (Context.ofTree config early).liveness := by
  intro place point
  simp only [Context.ofTree]
  split
  · simp only [Option.any_some, Bool.not_eq_true', ← Bool.not_eq_true]
    exact fun dead live => dead (begins.liveness_below.liveAfter live)
  · exact id

namespace State.Relaxes

variable {tree : ScopeTree} {broad narrow : State} {first second : Option Liveness}
  {point : Point} {resolution : Resolution} (sooner : Liveness.Sooner first second)

include sooner

theorem retireBoth (relaxes : Relaxes point broad narrow) :
    Relaxes (point + 1) (broad.retireDead ⟨tree, first⟩ point)
      (narrow.retireDead ⟨tree, second⟩ point) := by
  have broadly := retireDead_becomes ⟨tree, first⟩ broad point
  have narrowly := retireDead_becomes ⟨tree, second⟩ narrow point
  refine ⟨?_, ?_, ?_⟩
  · exact narrowly.ownership.trans (relaxes.ownership.trans broadly.ownership.symm)
  · apply relaxes.ledger.bothEnd (broadly.consistent relaxes.ledger.broadly)
      (broadly.borrows relaxes.ledger.broadly) (narrowly.consistent relaxes.ledger.narrowly)
      (narrowly.borrows relaxes.ledger.narrowly) (Nat.le_succ point)
    intro old new sameHolder ends
    rw [sameHolder]
    exact sooner old.holder point ends
  · rw [retireDead_diagnostics]
    exact relaxes.silent

theorem advanceBoth (at_point : resolution.point = point) (relaxes : Relaxes point broad narrow)
    (quiet : broad.Quiet)
    (silent : ((Context.mk tree first).advance broad resolution).diagnostics = []) :
    Relaxes (point + 1) ((Context.mk tree first).advance broad resolution)
      ((Context.mk tree second).advance narrow resolution) := by
  subst at_point
  rw [Context.advance, retireDead_diagnostics] at silent
  have stepped := relaxes.step quiet (Nat.le_refl _) silent
  rw [step_of_tree tree first second narrow] at stepped
  exact stepped.retireBoth sooner

end State.Relaxes

/-- What is reported stays reported. -/
theorem Context.silent_stateBefore {context : Context}
    (leads : Builder.Leads context.tree 0 {} context.tree.resolved) {point bound : Point}
    (within : bound ≤ context.tree.resolved.length) (inside : point ≤ bound)
    (silent : (context.stateBefore bound).diagnostics = []) :
    (context.stateBefore point).diagnostics = [] := by
  obtain ⟨count, rfl⟩ := Nat.exists_eq_add_of_le inside
  exact (later_stateBefore leads count within).silent_before silent

/-- Where nothing is reported, nothing is reported if borrows end sooner. -/
theorem Context.relaxes_of_sooner {tree : ScopeTree} {first second : Option Liveness}
    (sooner : Liveness.Sooner first second) (leads : Builder.Leads tree 0 {} tree.resolved)
    {bound : Point} (within : bound ≤ tree.resolved.length)
    (silent : ((Context.mk tree first).stateBefore bound).diagnostics = []) {point : Point}
    (inside : point ≤ bound) :
    State.Relaxes point ((Context.mk tree first).stateBefore point)
      ((Context.mk tree second).stateBefore point) := by
  have broadly : Builder.Leads (Context.mk tree first).tree 0 {} tree.resolved := leads
  induction point with
  | zero => exact ⟨rfl, ⟨Ledger.consistent_empty, Ledger.consistent_empty, .nil⟩, rfl⟩
  | succ point inductionHypothesis =>
      have here : point < tree.resolved.length := Nat.lt_of_succ_le (Nat.le_trans inside within)
      have listed := List.getElem?_eq_getElem here
      generalize tree.resolved[point] = resolution at listed
      obtain ⟨before, after, rest, crossing, sound⟩ := crossing_at broadly listed
      have silentNext := silent_stateBefore broadly within inside silent
      have relaxes := inductionHypothesis (Nat.le_of_succ_le inside)
      rw [stateBefore_succ listed] at silentNext ⊢
      rw [stateBefore_succ listed]
      exact relaxes.advanceBoth sooner crossing.at_point sound.quiet silentNext

/-- In silence, an operand can be named and has its value. -/
theorem State.source_of_silent {context : Context} {state : State} {resolution : Resolution}
    {use : Use} (quiet : state.Quiet) (source : resolution.effect.source? = some use)
    (silent : (state.step context resolution).diagnostics = []) :
    use.escaped = false ∧
      (state.ownership.stateOf context.tree use.place = .owned ∨
        state.ownership.stateOf context.tree use.place = .dropped) := by
  cases takes : resolution.effect.takes? with
  | some taken =>
      have same : taken = use := by
        cases effect : resolution.effect with
        | bind | move | consume =>
            rw [effect] at takes source
            exact Option.some.inj (takes.symm.trans source)
        | _ =>
            rw [effect] at takes
            cases takes
      obtain ⟨inside, kept, _⟩ := takes_of_silent quiet takes silent
      exact same ▸ ⟨inside, kept⟩
  | none =>
      obtain ⟨point, scope, span, effect⟩ := resolution
      cases effect with
      | borrow kind target operand =>
          cases source
          exact ⟨(readyToLend_of_silent quiet silent).1, borrow_of_silent quiet rfl silent⟩
      | write operand =>
          cases source
          obtain ⟨inside, kept, _⟩ := writeOwned_silent_of_write quiet silent
          exact ⟨inside, kept⟩
      | read operand =>
          cases source
          obtain ⟨inside, required⟩ := read_of_silent quiet silent
          exact ⟨inside, (requireOwned_of_silent required).2⟩
      | bind | move | consume => cases takes.symm.trans source
      | _ => cases source

/-- It is known of every place that has its value what it holds. -/
def Ownership.Told (tree : ScopeTree) (builder : Builder) (ownership : Ownership) : Prop :=
  ∀ place, ownership.stateOf tree place = .owned → (builder.holding? place).isSome = true

namespace CodeUnit

variable {unit : CodeUnit} {tree : ScopeTree} {config : Config} {point : Point}
  {statement : Statement} {before after : Builder} {resolution : Resolution}
  {rest : List Resolution} {state : State}
  (passage : Passage unit tree point statement before resolution after rest)
  (sound : State.Sound tree point before state)
  (told : state.ownership.Told tree before)
  (silent : ((Context.ofTree config tree).advance state resolution).diagnostics = [])

include passage sound told silent

/-- It is known what an operand holds. -/
theorem Passage.source_told {use : Use} (source : resolution.effect.source? = some use) :
    (before.holding? use.place).isSome = true := by
  rw [Context.advance, State.retireDead_diagnostics] at silent
  obtain ⟨inside, kept⟩ := State.source_of_silent sound.quiet source silent
  have live := passage.crossing.transition.source_live use source inside
  exact told use.place (kept.resolve_right (sound.there use.place live))

/-- A statement that is taken in silence tells what it gives its target. -/
theorem Passage.told_after (built : unit.scopeTree = .ok tree) :
    ((Context.ofTree config tree).advance state resolution).ownership.Told tree after := by
  intro place owned
  rw [Context.advance_ownership] at owned
  have changed := Ownership.changed_after tree resolution.effect state.ownership place
  generalize now : (state.ownership.after tree resolution.effect).stateOf tree place = result
    at changed
  have isOwned : result = .owned := now.symm.trans owned
  cases changed with
  | @given target gives same =>
      rw [← same]
      apply passage.isSome_holding? built gives
      · intro declares
        rw [declares, ← same] at owned
        have unset : (state.ownership.after tree (.declare target)).stateOf tree target.place =
            .uninitialized := by
          rw [Ownership.after, Ownership.stateOf_declareOver, if_pos rfl]
        cases unset.symm.trans owned
      · intro source passes
        apply passage.source_told sound told silent
        rcases Effect.passes?_cases passes with ⟨mutable, copy, isBind⟩ | isMove
        · rw [isBind]
          rfl
        · rw [isMove]
          rfl
  | kept other =>
      obtain ⟨holding, held⟩ := Option.isSome_iff_exists.mp (told place isOwned)
      rw [passage.crossing.transition.holdings place holding held]
      rfl
  | _ => cases isOwned

omit passage sound told silent in
theorem told_builderAt (built : unit.scopeTree = .ok tree) {builder : Builder}
    (inside : point ≤ unit.statements.length) (reached : unit.builderAt point = .ok builder)
    (quietly : ((Context.ofTree config tree).stateBefore point).diagnostics = []) :
    ((Context.ofTree config tree).stateBefore point).ownership.Told tree builder := by
  have both : State.Sound tree point builder ((Context.ofTree config tree).stateBefore point) ∧
      (((Context.ofTree config tree).stateBefore point).diagnostics = [] →
        ((Context.ofTree config tree).stateBefore point).ownership.Told tree builder) := by
    apply walk_induction built config
      (fun point builder state => State.Sound tree point builder state ∧
        (state.diagnostics = [] → state.ownership.Told tree builder)) _ _ inside reached
    · refine ⟨State.sound_empty tree, fun _ place owned => ?_⟩
      rw [Ownership.stateOf, Ownership.record, ScopeTree.freshRecord] at owned
      split at owned <;> cases owned
    · rintro point statement before resolution after rest state passage ⟨sound, told⟩
      have crossing : Builder.Crossing (Context.ofTree config tree).tree point before resolution
          after rest := passage.crossing
      refine ⟨State.Sound.advance crossing sound, fun silent => ?_⟩
      have before := (State.Sound.later_advance crossing sound).silent_before silent
      exact passage.told_after sound (told before) silent built
  exact both.2 quietly

end CodeUnit

/-- A tree with what its first places hold in another one. -/
def ScopeTree.graft (early tree : ScopeTree) : ScopeTree :=
  { tree with places := early.places ++ tree.places.drop early.places.length }

namespace ScopeTree.Begins

variable {early tree : ScopeTree} (begins : early.Begins tree)

include begins

theorem declaration_graft (place : PlaceId) :
    ((early.graft tree).places[place]?).map Place.declaration =
      (tree.places[place]?).map Place.declaration := by
  rcases Nat.lt_or_ge place early.places.length with inside | outside
  · rw [graft, List.getElem?_append_left inside, begins.declared place inside]
  · rw [graft, List.getElem?_append_right outside, List.getElem?_drop,
      Nat.add_sub_cancel' outside]

theorem graft_cases (place : PlaceId) :
    ((early.graft tree).places[place]? = none ∧ tree.places[place]? = none) ∨
      ∃ found other, (early.graft tree).places[place]? = some found ∧
        tree.places[place]? = some other ∧ found.declaration = other.declaration := by
  have same := begins.declaration_graft place
  cases known : tree.places[place]? with
  | none =>
      rw [known, Option.map_none, Option.map_eq_none_iff] at same
      exact .inl ⟨same, rfl⟩
  | some other =>
      rw [known, Option.map_some, Option.map_eq_some_iff] at same
      obtain ⟨found, there, declared⟩ := same
      exact .inr ⟨found, other, there, rfl, declared⟩

/-- Of the grafted tree the same is known but for what places hold. -/
theorem renames_graft (liveness : Option Liveness) :
    Context.Renames id ⟨tree, liveness⟩ ⟨early.graft tree, liveness⟩ := by
  refine ⟨?_, ?_, ?_, rfl, rfl⟩
  · intro place
    simp only [name, id]
    rcases begins.graft_cases place with ⟨absent, missing⟩ | ⟨found, other, there, known, same⟩
    · rw [absent, missing]
    · rw [there, known]
      exact (congrArg Place.name same :)
  · funext place
    simp only [scopeOf]
    rcases begins.graft_cases place with ⟨absent, missing⟩ | ⟨found, other, there, known, same⟩
    · rw [absent, missing]
    · rw [there, known]
      exact (congrArg Place.scope same :)
  · funext place
    simp only [freshRecord]
    rcases begins.graft_cases place with ⟨absent, missing⟩ | ⟨found, other, there, known, same⟩
    · rw [absent, missing]
    · rw [there, known]
      exact (congrArg (fun place : Place =>
        OwnershipRecord.mk .uninitialized place.mutable place.copy) same :)

theorem take_resolved : tree.resolved.take early.resolved.length = early.resolved := by
  obtain ⟨rest, resolved⟩ := begins.resolved
  rw [resolved, List.take_left]

theorem length_le : early.resolved.length ≤ tree.resolved.length := by
  rw [← begins.take_resolved, List.length_take]
  exact Nat.min_le_right _ _

theorem embeds_graft : early.Embeds .still (early.graft tree) where
  places := by
    intro place inside
    have unmoved : Shift.still.place = id := rfl
    rw [unmoved, Option.map_id_apply]
    exact List.getElem?_append_left inside
  lists := by
    intro scope inner known
    have unmoved : (fun place : PlaceId => place + Shift.still.places) = id := rfl
    rw [unmoved, List.map_id]
    exact begins.lists scope inner known

end ScopeTree.Begins

namespace CodeUnit

variable {whole part : CodeUnit} {rest : List Statement} {early tree : ScopeTree}
  (built : whole.scopeTree = .ok tree) (builtPart : part.scopeTree = .ok early)
  (inRow : whole.statements = part.statements ++ rest) (begins : early.Begins tree)
  {config : Config}
  (silent : ((Context.ofTree config tree).stateBefore early.resolved.length).diagnostics = [])

include built builtPart inRow begins silent

/-- Nothing is learnt of an operand later. -/
theorem holdsReference_of_begins {resolution : Resolution}
    (listed : resolution ∈ tree.resolved.take early.resolved.length) {use : Use}
    (source : resolution.effect.source? = some use) :
    (early.graft tree).holdsReference use.place = tree.holdsReference use.place := by
  have leads : Builder.Leads (Context.ofTree config tree).tree 0 {} tree.resolved :=
    (Builder.leads_of_scopeTree built).2
  rw [begins.take_resolved] at listed
  have inside := (within_of_scopeTree builtPart listed).source use source
  obtain ⟨point, foundPart⟩ := List.mem_iff_getElem?.mp listed
  have bound := (List.getElem?_eq_some_iff.mp foundPart).1
  have found : tree.resolved[point]? = some resolution := by
    rw [← begins.take_resolved, List.getElem?_take_of_lt bound] at foundPart
    exact foundPart
  obtain ⟨statement, before, after, later, passage⟩ := passage_at built found
  have reached : point ≤ whole.statements.length :=
    Nat.le_of_lt (List.getElem?_eq_some_iff.mp passage.listed).1
  have silentBefore := Context.silent_stateBefore leads begins.length_le (Nat.le_of_lt bound) silent
  have silentAfter := Context.silent_stateBefore leads begins.length_le (Nat.succ_le_of_lt bound)
    silent
  rw [Nat.succ_eq_add_one, Context.stateBefore_succ found] at silentAfter
  have told := told_builderAt built reached passage.reached silentBefore
  obtain ⟨holding, held⟩ := Option.isSome_iff_exists.mp
    (passage.source_told (sound_builderAt built config reached passage.reached) told silentAfter
      source)
  -- The builder of the part is at the same statement, and knows as much.
  have boundPart : point ≤ part.statements.length := by
    rw [← length_of_scopeTree builtPart]
    exact Nat.le_of_lt bound
  obtain ⟨same, _, reachedPart, _, leadsPart⟩ := leads_builderAt builtPart boundPart
  have sameBuilder : part.builderAt point = whole.builderAt point := by
    rw [builderAt, builderAt, inRow, List.take_append_of_le_length boundPart]
  cases reachedPart.symm.trans (sameBuilder.trans passage.reached)
  have grafted : (early.graft tree).holdsReference use.place = early.holdsReference use.place :=
    begins.embeds_graft.holdsReference_eq inside
  rw [grafted, leadsPart.holdsReference_eq held,
    passage.crossing.leads_before.holdsReference_eq held]

theorem silent_of_begins : (Context.ofTree config early).run.diagnostics = [] := by
  have leads : Builder.Leads (Context.ofTree config tree).tree 0 {} tree.resolved :=
    (Builder.leads_of_scopeTree built).2
  have leadsEarly : Builder.Leads (Context.ofTree config early).tree 0 {} early.resolved :=
    (Builder.leads_of_scopeTree builtPart).2
  -- Borrows end with the last uses of the first statements.
  have relaxes := Context.relaxes_of_sooner (begins.sooner config) leads begins.length_le
    silent (Nat.le_refl _)
  -- It is known what an operand holds.
  have renames := Context.renames_walk (begins.renames_graft (Context.ofTree config early).liveness)
    (State.renames_empty id) (List.forall₂_same.mpr fun _ _ => ⟨rfl, rfl⟩)
    (fun resolution listed use source =>
      holdsReference_of_begins built builtPart inRow begins silent listed source)
  -- The places of the other statements do not matter.
  have contexts : (Context.ofTree config early).Embeds .still
      ⟨early.graft tree, (Context.ofTree config early).liveness⟩ :=
    ⟨begins.embeds_graft, fun _ _ _ => rfl⟩
  have prefixed : ∀ (point : Point) resolution, early.resolved[point]? = some resolution →
      tree.resolved[point]? = some (Shift.still.resolution resolution) := by
    intro point resolution listed
    have bound := (List.getElem?_eq_some_iff.mp listed).1
    rw [← begins.take_resolved, List.getElem?_take_of_lt bound] at listed
    rw [Shift.still_resolution]
    exact listed
  have embeds := Context.embeds_stateBefore contexts leadsEarly
    (fun _ => within_of_scopeTree builtPart) prefixed
    (State.embeds_initial begins.embeds_graft rfl) (Nat.le_refl _)
  have grafted : ((Context.mk (early.graft tree) (Context.ofTree config early).liveness).stateBefore
      early.resolved.length).diagnostics = [] :=
    renames.diagnostics_eq_nil_iff.mpr relaxes.silent
  have own : ((Context.ofTree config early).stateBefore early.resolved.length).diagnostics = [] :=
    List.map_eq_nil_iff.mp
      (embeds.diagnostics.symm.trans (congrArg (List.map Diagnostic.bare) grafted))
  exact (Context.run_diagnostics leadsEarly).trans own

end CodeUnit

/-- The beginning of an accepted unit is accepted, if all scopes that it enters end in it. -/
theorem CodeUnit.accepted_of_balanced_beginning {whole part : CodeUnit} {rest : List Statement}
    {config : Config} {recordStates : Bool} {result : UnitResult}
    (inRow : whole.statements = part.statements ++ rest) (balanced : part.Balanced)
    (analysed : whole.analyse config recordStates = .ok result)
    (accepted : result.accepted = true) :
    ∃ own, part.analyse config recordStates = .ok own ∧ own.accepted = true := by
  obtain ⟨admitted, tree, built, _, silent⟩ := admitted_of_accepted analysed accepted
  obtain ⟨early, builtPart, begins⟩ := begins_of_balanced built inRow balanced
  have room : config.admits part = .ok () := by
    refine Config.admits_of_length_le ?_ admitted
    rw [inRow, List.length_append]
    exact Nat.le_add_right _ _
  obtain ⟨own, analysedPart, faultless, diagnostics, _⟩ :=
    analyse_eq_ok room builtPart recordStates
  have leads : Builder.Leads (Context.ofTree config tree).tree 0 {} tree.resolved :=
    (Builder.leads_of_scopeTree built).2
  have silentPart := silent_of_begins built builtPart inRow begins
    ((Context.later_run leads begins.length_le).silent_before silent)
  refine ⟨own, analysedPart, ?_⟩
  simp [UnitResult.accepted, faultless, diagnostics, silentPart]

/-- A reference is taken, and a place is declared of which it is not known what it will hold. -/
def referenceTaken : CodeUnit := .ofActions "reference taken" [
  .bind (.str "x") (.bool true) none (.bool false) (.bool false),
  .borrow .shared (.str "r") (.str "x"),
  .enter,
  .bind (.str "y") (.bool false) (some (.str "r")) (.bool false) (.bool false),
  .read (.str "y"),
  .exit,
  .declare (.str "q") (.bool true) (.bool false)]

/-- Another reference is taken, put into the place and used. -/
def referencePassed : CodeUnit where
  name := "reference passed"
  statements := referenceTaken.statements ++ [
    { action := .borrow .shared (.str "s") (.str "x") },
    { action := .move (.str "q") (.str "s") },
    { action := .read (.str "q") }]

theorem referenceTaken_accepted :
    referenceTaken.Balanced ∧
      (∃ result, referencePassed.analyse { precise := true } false = .ok result ∧
        result.accepted = true) ∧
      ∃ own, referenceTaken.analyse { precise := true } false = .ok own ∧ own.accepted = true := by
  have balanced : referenceTaken.Balanced := by decide
  have known : ((referencePassed.analyse { precise := true } false).toOption.map
      UnitResult.accepted) = some true := by
    decide +kernel
  obtain ⟨result, found, accepted⟩ := Option.map_eq_some_iff.mp known
  have analysed := toOption_eq_some_iff.mp found
  exact ⟨balanced, ⟨result, analysed, accepted⟩,
    CodeUnit.accepted_of_balanced_beginning rfl balanced analysed accepted⟩

end LoanCheck
