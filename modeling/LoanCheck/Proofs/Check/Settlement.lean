import LoanCheck.Proofs.Check.Change

/-!
# What a statement settles

A statement ends borrows, drops places and passes references on, in an order that depends
on its kind.  `State.settlement` says which places it concerns, `Borrow.settled` what that
means for one borrow and `Ownership.after` what it means for ownership.  The transition of
a statement does exactly this, and a borrow statement may enter one new borrow.
-/

namespace LoanCheck

/-- The places and borrows that a statement is about, by what it does to them. -/
structure Settlement where
  /-- The borrow that an escaped use is blamed on. -/
  marked : Option BorrowId := none
  /-- The places that stop keeping borrows. -/
  ended : PlaceId → Bool := fun _ => false
  /-- The places whose borrows outlive them. -/
  dropped : PlaceId → Bool := fun _ => false
  /-- From where and to where references are passed on. -/
  passed : Option (PlaceId × PlaceId) := none
  /-- The place whose borrows end after the statement. -/
  spent : Option PlaceId := none

namespace Borrow

def passedAlong (tree : ScopeTree) (passed : Option (PlaceId × PlaceId)) (borrow : Borrow) :
    Borrow :=
  match passed with
  | some (source, dest) => borrow.passedOn tree source dest
  | none => borrow

/-- A borrow after a statement has ended what it ends at its own point. -/
def endedBy (settlement : Settlement) (point : Point) : Borrow → Borrow :=
  outlivedIf settlement.dropped point ∘
    endedIf (fun borrow => settlement.ended borrow.holder) point ∘ markedIf settlement.marked

/-- A borrow after a statement. -/
def settled (tree : ScopeTree) (point : Point) (settlement : Settlement) : Borrow → Borrow :=
  endedIf (fun borrow => settlement.spent == some borrow.holder) (point + 1) ∘
    passedAlong tree settlement.passed ∘ endedBy settlement point

/-- A statement that passes nothing on and uses nothing up is done at its own point. -/
theorem settled_eq_endedBy {settlement : Settlement} (kept : settlement.passed = none)
    (unspent : settlement.spent = none) (tree : ScopeTree) (point : Point) (borrow : Borrow) :
    borrow.settled tree point settlement = borrow.endedBy settlement point := by
  simp [settled, passedAlong, endedIf, kept, unspent]

@[simp]
theorem endedIf_never (point : Point) (borrow : Borrow) :
    borrow.endedIf (fun _ => false) point = borrow := by
  simp [endedIf]

@[simp]
theorem outlivedIf_never (point : Point) (borrow : Borrow) :
    borrow.outlivedIf (fun _ => false) point = borrow := by
  simp [outlivedIf]

@[simp]
theorem markedIf_none (borrow : Borrow) : borrow.markedIf none = borrow := rfl

theorem endedBy_holder (settlement : Settlement) (point : Point) (borrow : Borrow) :
    (borrow.endedBy settlement point).holder = borrow.holder := by
  simp [endedBy]

theorem endedBy_referent (settlement : Settlement) (point : Point) (borrow : Borrow) :
    (borrow.endedBy settlement point).referent = borrow.referent := by
  simp [endedBy]

/-- A borrow stays active when its holder goes on keeping it and its referent is there. -/
theorem isActive_endedBy_iff (settlement : Settlement) (point : Point) (borrow : Borrow) :
    (borrow.endedBy settlement point).isActive = true ↔
      borrow.isActive = true ∧ settlement.ended borrow.holder = false ∧
        settlement.dropped borrow.referent = false := by
  simp [endedBy, isActive_endedIf, isActive_outlivedIf, and_assoc]

/-- What becomes of a borrow when places are dropped one after the other. -/
def droppedAll (places : List PlaceId) (point : Point) (borrow : Borrow) : Borrow :=
  places.foldl (fun borrow place =>
    (borrow.endedIf (fun other => other.holder == place) point).outlivedIf (· == place) point)
    borrow

theorem droppedAll_of_ended (places : List PlaceId) (point : Point) {borrow : Borrow}
    (ended : borrow.isActive = false) : borrow.droppedAll places point = borrow := by
  induction places with
  | nil => rfl
  | cons place rest inductionHypothesis =>
      have unchanged : (borrow.endedIf (fun other => other.holder == place) point).outlivedIf
          (· == place) point = borrow := by
        rw [endedIf_of_ended ended]
        simp [outlivedIf, ended]
      rw [droppedAll, List.foldl_cons, unchanged]
      exact inductionHypothesis

/-- If none of the places keeps the borrow, it matters only whether one of them is borrowed. -/
theorem droppedAll_of_free (places : List PlaceId) (point : Point) {borrow : Borrow}
    (free : borrow.isActive = true → borrow.holder ∉ places) :
    borrow.droppedAll places point = borrow.outlivedIf places.contains point := by
  induction places with
  | nil => simp [droppedAll, outlivedIf]
  | cons place rest inductionHypothesis =>
      cases active : borrow.isActive with
      | false =>
          rw [droppedAll_of_ended _ _ active]
          simp [outlivedIf, active]
      | true =>
          obtain ⟨other, kept⟩ := not_or.mp (List.mem_cons.not.mp (free active))
          have stays : borrow.endedIf (fun other => other.holder == place) point = borrow := by
            simp [endedIf, other]
          rw [droppedAll, List.foldl_cons, stays]
          by_cases borrowed : borrow.referent = place
          · have struck : borrow.outlivedIf (· == place) point =
                { borrow with retired := some point, dangling := true } := by
              simp [outlivedIf, active, borrowed]
            rw [struck]
            refine (droppedAll_of_ended rest point rfl).trans ?_
            simp [outlivedIf, active, borrowed]
          · have spared : borrow.outlivedIf (· == place) point = borrow := by
              simp [outlivedIf, borrowed]
            rw [spared]
            refine (inductionHypothesis fun _ => kept).trans ?_
            simp [outlivedIf, borrowed]

end Borrow

namespace Target

/-- Whether giving the target its value ends what a place keeps.  An existing place loses
its references only if its old value is overwritten. -/
def ends (target : Target) (overwrites : Bool) (place : PlaceId) : Bool :=
  match target with
  | .existing kept => overwrites && place == kept
  | .fresh _ shadowed _ => shadowed == some place

def drops (target : Target) (place : PlaceId) : Bool := target.shadowed? == some place

end Target

/-- From where to where an operand passes references on; a place passes nothing to itself. -/
def ScopeTree.passes? (tree : ScopeTree) (source : Use) (target : Target) :
    Option (PlaceId × PlaceId) :=
  if !source.escaped && tree.holdsReference source.place && source.place != target.place then
    some (source.place, target.place)
  else none

namespace State

/-- The borrow that an escaped use is blamed on, if that is reported. -/
def blames? (state : State) (use : Use) : Option BorrowId :=
  let history := state.ledger.everHeldBy use.place
  if use.escaped && !state.escapes.contains use.place && !history.any Borrow.dangling then
    history.getLast?.map Borrow.id
  else none

def settlement (context : Context) (state : State) : Effect → Settlement
  | .enter => {}
  | .exit scope =>
      let gone := (state.ownership.remaining context.tree scope).contains
      { ended := gone, dropped := gone }
  | .bind target source _ _ =>
      let taken := source.elim state.ownership (state.ownership.taken context.tree)
      { marked := source.bind state.blames?
        ended := target.ends (taken.stateOf context.tree target.place == .owned)
        dropped := target.drops
        passed := source.bind (context.tree.passes? · target) }
  | .declare target => { ended := target.drops, dropped := target.drops }
  | .move target source =>
      { marked := state.blames? source
        ended := target.ends true
        dropped := target.drops
        passed := context.tree.passes? source target }
  | .borrow _ target source =>
      { marked := state.blames? source, ended := target.ends true, dropped := target.drops }
  | .write source => { marked := state.blames? source }
  | .read source => { marked := state.blames? source }
  | .consume source =>
      { marked := state.blames? source
        spent := if source.escaped then none else some source.place }

variable (context : Context) (state : State)

theorem escapedUse_becomes {use : Use} (escaped : use.escaped = true) (point : Point)
    (span : Span) :
    Becomes state (Borrow.markedIf (state.blames? use)) id
      (escapedUse context state use.place point span) := by
  unfold escapedUse
  split
  · next known =>
      have blameless : state.blames? use = none := by
        simp only [blames?, known, Bool.not_true, Bool.and_false, Bool.false_and,
          Bool.false_eq_true, if_false]
      rw [blameless]
      exact .refl state
  · next unknown =>
      extract_lets noted history tree name shown ended note
      split
      · next dangles =>
          have blameless : state.blames? use = none := by
            have found : (state.ledger.everHeldBy use.place).any Borrow.dangling = true := dangles
            simp only [blames?, found, Bool.not_true, Bool.and_false, Bool.false_eq_true, if_false]
          rw [blameless]
          -- The escape is noted without a report, so something has been reported before.
          refine ⟨id, fun _ => (List.map_id _).symm, rfl, List.prefix_refl _, ?_⟩
          intro _ quiet silent
          obtain ⟨borrow, membership, dangling⟩ := List.any_eq_true.mp dangles
          have sound := (quiet silent).2 borrow (List.mem_filter.mp membership).1
          rw [sound] at dangling
          cases dangling
      · next safe =>
          have blamed : state.blames? use = history.getLast?.map Borrow.id := by
            have found : (state.ledger.everHeldBy use.place).any Borrow.dangling = false :=
              Bool.eq_false_iff.mpr safe
            simp only [blames?, escaped, Bool.eq_false_iff.mpr unknown, found, Bool.not_false,
              Bool.and_self, if_true]
            rfl
          rw [blamed]
          split
          · next absent =>
              rw [absent]
              refine ⟨id, fun _ => (List.map_id _).symm, rfl, List.prefix_append _ _, ?_⟩
              intro _ _ silent
              simp [report] at silent
          · next last found =>
              rw [found]
              refine ⟨fun consistent => consistent.markDangling last.id,
                fun consistent => consistent.markDangling_borrows last.id, rfl,
                List.prefix_append _ _, ?_⟩
              intro _ _ silent
              simp [report] at silent

theorem liveUse_becomes (use : Use) (point : Point) (span : Span) :
    Becomes state (Borrow.markedIf (state.blames? use)) id
      (liveUse context state use point span).1 := by
  unfold liveUse
  split
  · next escaped => exact escapedUse_becomes context state escaped point span
  · next inside =>
      have blameless : state.blames? use = none := by simp [blames?, inside]
      rw [blameless]
      exact .refl state

theorem liveUse_snd (use : Use) (point : Point) (span : Span) :
    (liveUse context state use point span).2 = !use.escaped := by
  unfold liveUse
  cases use.escaped <;> rfl

theorem consumeSource_becomes (place : PlaceId) (point : Point) (span : Span) (action : String) :
    Becomes state id (fun ownership => ownership.moveOut context.tree place)
      (consumeSource context state place point span action) := by
  unfold consumeSource
  have required := requireOwned_becomes context state place point action span
  generalize requireOwned context state place point action span = answer at required
  obtain ⟨judged, owned⟩ := answer
  refine (required.after_reports ?_).after_reports (Becomes.of_ownership _ _)
  split
  · split
    · exact .refl judged
    · exact report_becomes judged _ _ _ _ _ _
  · exact .refl judged

theorem takeSource_becomes (source : Use) (point : Point) (span : Span) :
    Becomes state (Borrow.markedIf (state.blames? source)) (Ownership.taken context.tree source)
      (takeSource context state source point span).1 := by
  have used := liveUse_becomes context state source point span
  have live := liveUse_snd context state source point span
  unfold takeSource
  generalize liveUse context state source point span = answer at used live
  obtain ⟨noted, isLive⟩ := answer
  simp only at used live
  subst live
  cases escaped : source.escaped with
  | false =>
      rw [Ownership.taken_of_inside context.tree escaped]
      exact used.trans (consumeSource_becomes context noted source.place point span "move")
  | true =>
      rw [Ownership.taken_of_escaped context.tree escaped]
      exact used

theorem takeSource_snd (source : Use) (point : Point) (span : Span) :
    (takeSource context state source point span).2 =
      (!source.escaped && context.tree.holdsReference source.place) := by
  unfold takeSource
  have live := liveUse_snd context state source point span
  generalize liveUse context state source point span = answer at live
  obtain ⟨noted, isLive⟩ := answer
  simp only at live
  cases escaped : source.escaped <;> simp [live, escaped]

theorem dropPlace_becomes (place : PlaceId) (point : Point) (span : Span) :
    Becomes state
      (Borrow.outlivedIf (· == place) point ∘
        Borrow.endedIf (fun borrow => borrow.holder == place) point)
      (fun ownership => ownership.drop context.tree place)
      (dropPlace context state place point span) :=
  ((retireHeldBy_becomes state place point).trans
    (checkDrop_becomes context _ place point span)).trans
      (Becomes.of_ownership _ fun ownership => ownership.drop context.tree place)

theorem overwrite_becomes (place : PlaceId) (point : Point) (span : Span) :
    Becomes state (Borrow.endedIf (fun borrow => borrow.holder == place) point) id
      (overwrite context state place point span) := by
  unfold overwrite
  refine Becomes.after_reports ?_ (retireHeldBy_becomes _ place point)
  split
  · exact .refl state
  · exact report_becomes state _ _ _ _ _ _

theorem some_beq_some (place other : PlaceId) : (some place == some other) = (other == place) := by
  rw [Bool.eq_iff_iff, beq_iff_eq, beq_iff_eq, Option.some.injEq]
  exact eq_comm

theorem declareFresh_becomes (place : PlaceId) (shadowed : Option PlaceId) (point : Point)
    (span : Span) :
    Becomes state
      (Borrow.outlivedIf (fun other => shadowed == some other) point ∘
        Borrow.endedIf (fun borrow => shadowed == some borrow.holder) point)
      (Ownership.declareOver context.tree place shadowed)
      (declareFresh context state place shadowed point span) := by
  cases shadowed with
  | none =>
      refine (Becomes.of_ownership state _).congr ?_
      intro _ borrow _
      simp
  | some old =>
      refine ((dropPlace_becomes context state old point span).trans
        (Becomes.of_ownership _ fun ownership => ownership.declare context.tree place)).congr ?_
      intro _ borrow _
      simp only [some_beq_some]
      rfl

theorem assignTarget_becomes (target : Target) (point : Point) (span : Span) :
    Becomes state
      (Borrow.outlivedIf target.drops point ∘
        Borrow.endedIf (fun borrow => target.ends true borrow.holder) point)
      (fun ownership => (ownership.makeRoom context.tree target).fill context.tree target.place)
      (assignTarget context state target point span) := by
  cases target with
  | existing place =>
      refine ((overwrite_becomes context state place point span).trans
        (assignPlace_becomes context _ place point span)).congr ?_
      intro _ borrow _
      simp [Target.ends, Target.drops, Target.shadowed?, Borrow.outlivedIf]
  | fresh place shadowed rebinds =>
      exact (declareFresh_becomes context state place shadowed point span).trans
        (Becomes.of_ownership _ fun ownership => ownership.fill context.tree place)

theorem rebindTarget_becomes (target : Target) (mutable copy : Flag) (point : Point)
    (span : Span) :
    Becomes state
      (Borrow.outlivedIf target.drops point ∘
        Borrow.endedIf (fun borrow =>
          target.ends (state.ownership.stateOf context.tree target.place == .owned) borrow.holder)
          point)
      (fun ownership => (ownership.makeRoom context.tree target).rebind target.place mutable copy)
      (rebindTarget context state target mutable copy point span) := by
  cases target with
  | existing place =>
      simp only [rebindTarget, Target.place]
      cases owned : state.ownership.stateOf context.tree place == .owned with
      | true =>
          simp only [if_true]
          refine ((retireHeldBy_becomes state place point).trans
            (bindPlace_becomes context _ place point mutable copy _ span _)).congr ?_
          intro _ borrow _
          simp [Target.ends, Target.drops, Target.shadowed?, Borrow.outlivedIf]
      | false =>
          simp only [Bool.false_eq_true, if_false]
          refine (bindPlace_becomes context state place point mutable copy _ span _).congr ?_
          intro _ borrow _
          simp [Target.ends, Target.drops, Target.shadowed?, Borrow.outlivedIf]
  | fresh place shadowed rebinds =>
      simp only [rebindTarget, Target.place]
      refine Becomes.after_reports ?_ ((declareFresh_becomes context _ place shadowed point
        span).trans (bindPlace_becomes context _ place point mutable copy _ span _))
      cases shadowed with
      | none => exact .refl state
      | some old =>
          simp only
          split
          · exact reportDuplicate_becomes context state old point span _
          · exact .refl state

theorem passOn_becomes (source : Use) (target : Target) :
    Becomes state (Borrow.passedAlong context.tree (context.tree.passes? source target)) id
      (if !source.escaped && context.tree.holdsReference source.place then
        transfer context state source.place target.place
      else state) := by
  by_cases same : source.place = target.place
  · have nothing : context.tree.passes? source target = none := by
      simp [ScopeTree.passes?, same]
    rw [nothing, same, transfer_self, ite_self]
    exact .refl state
  · split
    · next moves =>
        have passed : context.tree.passes? source target = some (source.place, target.place) := by
          simp [ScopeTree.passes?, same, moves]
        rw [passed]
        exact transfer_becomes context state same
    · next stays =>
        have nothing : context.tree.passes? source target = none := by
          simp [ScopeTree.passes?, stays]
        rw [nothing]
        exact .refl state

/-- A bind with a source takes the value, rebinds the target and passes references on. -/
theorem bind_some (target : Target) (source : Use) (mutable copy : Flag) (point : Point)
    (span : Span) :
    bind context state target (some source) mutable copy point span =
      let rebound := rebindTarget context (takeSource context state source point span).1 target
        mutable copy point span
      if !source.escaped && context.tree.holdsReference source.place then
        transfer context rebound source.place target.place
      else rebound := by
  simp only [bind, ← takeSource_snd context state source point span]
  generalize takeSource context state source point span = answer
  obtain ⟨taken, movesReference⟩ := answer
  cases movesReference <;> rfl

theorem bind_becomes (target : Target) (source : Option Use) (mutable copy : Flag)
    (point : Point) (span : Span) :
    Becomes state
      (Borrow.settled context.tree point
        (state.settlement context (.bind target source mutable copy)))
      (Ownership.after context.tree (.bind target source mutable copy))
      (bind context state target source mutable copy point span) := by
  cases source with
  | none =>
      refine (rebindTarget_becomes context state target mutable copy point span).congr ?_
      intro _ borrow _
      simp [Borrow.settled, Borrow.endedBy, settlement, Borrow.passedAlong]
  | some source =>
      have tookSource := takeSource_becomes context state source point span
      have rebound := rebindTarget_becomes context (takeSource context state source point span).1
        target mutable copy point span
      rw [tookSource.ownership] at rebound
      rw [bind_some]
      refine ((tookSource.trans rebound).trans (passOn_becomes context _ source target)).congr ?_
      intro _ borrow _
      simp [Borrow.settled, Borrow.endedBy, settlement]

theorem move_eq (target : Target) (source : Use) (point : Point) (span : Span) :
    move context state target source point span =
      let assigned := assignTarget context (takeSource context state source point span).1 target
        point span
      if !source.escaped && context.tree.holdsReference source.place then
        transfer context assigned source.place target.place
      else assigned := by
  simp only [move, ← takeSource_snd context state source point span]

theorem move_becomes (target : Target) (source : Use) (point : Point) (span : Span) :
    Becomes state
      (Borrow.settled context.tree point (state.settlement context (.move target source)))
      (Ownership.after context.tree (.move target source))
      (move context state target source point span) := by
  have tookSource := takeSource_becomes context state source point span
  rw [move_eq]
  refine ((tookSource.trans (assignTarget_becomes context _ target point span)).trans
    (passOn_becomes context _ source target)).congr ?_
  intro _ borrow _
  simp [Borrow.settled, Borrow.endedBy, settlement]

/-- A borrow statement up to the entry of the new borrow. -/
def readyToLend (kind : BorrowKind) (target : Target) (source : Use) (point : Point)
    (span : Span) : State :=
  let used := (liveUse context state source point span).1
  let checked :=
    if source.escaped then used else checkReferent context used kind source.place point span
  assignTarget context checked target point span

theorem borrow_eq (kind : BorrowKind) (target : Target) (source : Use) (point : Point)
    (span : Span) :
    borrow context state kind target source point span =
      if source.escaped then readyToLend context state kind target source point span
      else lend context (readyToLend context state kind target source point span) source.place
        kind target.place point span := by
  have live := liveUse_snd context state source point span
  unfold borrow readyToLend
  generalize liveUse context state source point span = answer at live
  obtain ⟨used, isLive⟩ := answer
  simp only at live
  cases escaped : source.escaped <;> simp [live, escaped]

theorem readyToLend_becomes (kind : BorrowKind) (target : Target) (source : Use) (point : Point)
    (span : Span) :
    Becomes state
      (Borrow.settled context.tree point (state.settlement context (.borrow kind target source)))
      (Ownership.after context.tree (.borrow kind target source))
      (readyToLend context state kind target source point span) := by
  have used := liveUse_becomes context state source point span
  unfold readyToLend
  generalize (liveUse context state source point span).1 = noted at used
  have checked : Becomes noted id id (if source.escaped then noted
      else checkReferent context noted kind source.place point span) := by
    split
    · exact .refl noted
    · exact checkReferent_becomes context noted kind source.place point span
  refine ((used.trans checked).trans (assignTarget_becomes context _ target point span)).congr ?_
  intro _ borrow _
  simp [Borrow.settled, Borrow.endedBy, settlement, Borrow.passedAlong]

theorem read_becomes (source : Use) (point : Point) (span : Span) :
    Becomes state (Borrow.markedIf (state.blames? source)) id
      (read context state source point span) := by
  have used := liveUse_becomes context state source point span
  unfold read
  generalize liveUse context state source point span = answer at used
  obtain ⟨noted, live⟩ := answer
  simp only at used ⊢
  split
  · exact used.trans (requireOwned_becomes context noted source.place point "read" span)
  · exact used

theorem write_becomes (source : Use) (point : Point) (span : Span) :
    Becomes state (Borrow.markedIf (state.blames? source)) id
      (write context state source point span) := by
  have used := liveUse_becomes context state source point span
  unfold write
  generalize liveUse context state source point span = answer at used
  obtain ⟨noted, live⟩ := answer
  simp only at used ⊢
  split
  · have required := requireOwned_becomes context noted source.place point "write to" span
    generalize requireOwned context noted source.place point "write to" span = answer at required
    obtain ⟨judged, owned⟩ := answer
    simp only at required ⊢
    split
    · exact used.trans (required.trans (writeOwned_becomes context judged source.place point span))
    · exact used.trans required
  · exact used

theorem consume_becomes (source : Use) (point : Point) (span : Span) :
    Becomes state
      (Borrow.settled context.tree point (state.settlement context (.consume source)))
      (Ownership.after context.tree (.consume source))
      (consume context state source point span) := by
  have used := liveUse_becomes context state source point span
  have live := liveUse_snd context state source point span
  unfold consume
  generalize liveUse context state source point span = answer at used live
  obtain ⟨noted, isLive⟩ := answer
  simp only at used live ⊢
  subst live
  cases escaped : source.escaped with
  | false =>
      have owners : Ownership.after context.tree (.consume source) =
          fun ownership => ownership.moveOut context.tree source.place :=
        Ownership.taken_of_inside context.tree escaped
      rw [owners]
      refine ((used.trans (consumeSource_becomes context noted source.place point span
        "consume")).trans (retireHeldBy_becomes _ source.place (point + 1))).congr ?_
      intro _ borrow _
      simp only [Borrow.settled, Borrow.endedBy, settlement, Borrow.passedAlong, escaped,
        Function.comp_apply, id_eq, Bool.false_eq_true, if_false, some_beq_some,
        Borrow.outlivedIf_never, Borrow.endedIf_never]
  | true =>
      have owners : Ownership.after context.tree (.consume source) = id :=
        Ownership.taken_of_escaped context.tree escaped
      rw [owners]
      refine used.congr ?_
      intro _ borrow _
      simp [Borrow.settled, Borrow.endedBy, settlement, Borrow.passedAlong, escaped]

theorem foldl_retireHeldBy_becomes (places : List PlaceId) (point : Point) (state : State) :
    Becomes state (Borrow.endedIf (fun borrow => places.contains borrow.holder) point) id
      (places.foldl (fun state place => state.retireHeldBy place point) state) := by
  induction places generalizing state with
  | nil =>
      refine (Becomes.refl state).congr ?_
      intro _ borrow _
      simp
  | cons place rest inductionHypothesis =>
      refine ((retireHeldBy_becomes state place point).trans (inductionHypothesis _)).congr ?_
      intro _ borrow _
      simp only [Function.comp_apply, Borrow.endedIf_endedIf, List.contains_cons]

theorem foldl_dropPlace_becomes (places : List PlaceId) (point : Point) (span : Span)
    (state : State) :
    Becomes state (Borrow.droppedAll places point)
      (fun ownership => places.foldl (fun later place => later.drop context.tree place) ownership)
      (places.foldl (fun state place => dropPlace context state place point span) state) := by
  induction places generalizing state with
  | nil => exact .refl state
  | cons place rest inductionHypothesis =>
      exact (dropPlace_becomes context state place point span).trans (inductionHypothesis _)

theorem exitScope_becomes (scope : ScopeId) (point : Point) (span : Span) :
    Becomes state
      (Borrow.settled context.tree point (state.settlement context (.exit scope)))
      (Ownership.after context.tree (.exit scope))
      (exitScope context state scope point span) := by
  let places := state.ownership.remaining context.tree scope
  have ended := foldl_retireHeldBy_becomes places point state
  have dropped := foldl_dropPlace_becomes context places.reverse point span
    (places.foldl (fun state place => state.retireHeldBy place point) state)
  have settled : Becomes state
      (Borrow.settled context.tree point (state.settlement context (.exit scope)))
      (fun ownership =>
        places.reverse.foldl (fun later place => later.drop context.tree place) ownership)
      (exitScope context state scope point span) := by
    refine (ended.trans dropped).congr ?_
    intro _ borrow _
    -- What the places keep has ended before the first of them is dropped.
    have turned : places.reverse.contains = places.contains := by
      funext place
      simp
    rw [Function.comp_apply, Borrow.droppedAll_of_free, turned]
    · simp [Borrow.settled, Borrow.endedBy, settlement, Borrow.passedAlong, places]
    · rw [Borrow.isActive_endedIf, Borrow.endedIf_holder]
      simp
  exact { settled with ownership := settled.ownership }

/-- The transition of a statement settles what there is; a borrow statement that meets no
conflict then enters a new borrow. -/
theorem step_cases (resolution : Resolution) :
    Becomes state
        (Borrow.settled context.tree resolution.point
          (state.settlement context resolution.effect))
        (Ownership.after context.tree resolution.effect) (state.step context resolution) ∨
      ∃ kind target source ready, resolution.effect = .borrow kind target source ∧
        source.escaped = false ∧
        Becomes state
          (Borrow.settled context.tree resolution.point
            (state.settlement context resolution.effect))
          (Ownership.after context.tree resolution.effect) ready ∧
        ready.ledger.conflict? source.place kind = none ∧
        state.step context resolution = { ready with
          ledger := ready.ledger.lend context.tree source.place kind target.place
            resolution.point resolution.loc } := by
  obtain ⟨point, scope, span, effect⟩ := resolution
  cases effect with
  | enter =>
      refine .inl ((Becomes.refl state).congr ?_)
      intro _ borrow _
      simp [Borrow.settled, Borrow.endedBy, settlement, Borrow.passedAlong]
  | exit scope => exact .inl (exitScope_becomes context state scope point span)
  | bind target source mutable copy =>
      exact .inl (bind_becomes context state target source mutable copy point span)
  | declare target =>
      refine .inl ((declareFresh_becomes context state target.place target.shadowed? point
        span).congr ?_)
      intro _ borrow _
      rw [Borrow.settled_eq_endedBy rfl rfl]
      rfl
  | move target source => exact .inl (move_becomes context state target source point span)
  | borrow kind target source =>
      have ready := readyToLend_becomes context state kind target source point span
      simp only [step, borrow_eq]
      generalize readyToLend context state kind target source point span = prepared at ready
      cases escaped : source.escaped with
      | true => exact .inl ready
      | false =>
          simp only [Bool.false_eq_true, if_false, lend]
          cases conflict : prepared.ledger.conflict? source.place kind with
          | none => exact .inr ⟨kind, target, source, prepared, rfl, escaped, ready, conflict, rfl⟩
          | some first => exact .inl (ready.trans (report_becomes prepared _ _ _ _ _ _))
  | write source =>
      refine .inl ((write_becomes context state source point span).congr ?_)
      intro _ borrow _
      simp [Borrow.settled, Borrow.endedBy, settlement, Borrow.passedAlong]
  | read source =>
      refine .inl ((read_becomes context state source point span).congr ?_)
      intro _ borrow _
      simp [Borrow.settled, Borrow.endedBy, settlement, Borrow.passedAlong]
  | consume source => exact .inl (consume_becomes context state source point span)

theorem step_ownership (resolution : Resolution) :
    (state.step context resolution).ownership =
      state.ownership.after context.tree resolution.effect := by
  rcases step_cases context state resolution with
    becomes | ⟨kind, target, source, ready, lends, inside, becomes, admitted, stepped⟩
  · exact becomes.ownership
  · rw [stepped]
    exact becomes.ownership

/-- The borrows there are keep their positions. -/
theorem step_getElem? {state : State} (consistent : state.ledger.Consistent)
    (resolution : Resolution) {index : Nat} {borrow : Borrow}
    (found : state.ledger.borrows[index]? = some borrow) :
    (state.step context resolution).ledger.borrows[index]? =
      some (borrow.settled context.tree resolution.point
        (state.settlement context resolution.effect)) := by
  rcases step_cases context state resolution with
    becomes | ⟨kind, target, source, ready, lends, inside, becomes, admitted, stepped⟩
  · rw [becomes.borrows consistent, List.getElem?_map, found]
    rfl
  · have entered := (becomes.consistent consistent).lend_of_conflict?_eq_none context.tree
      target.place resolution.point resolution.loc admitted
    rw [stepped]
    simp only [entered]
    apply getElem?_concat_eq_some_iff.mpr
    left
    rw [becomes.borrows consistent, List.getElem?_map, found]
    rfl

/-- A borrow after a statement is one that was settled, or the new one of a borrow statement. -/
theorem mem_step {state : State} (consistent : state.ledger.Consistent) {resolution : Resolution}
    {next : Borrow} (membership : next ∈ (state.step context resolution).ledger.borrows) :
    (∃ borrow ∈ state.ledger.borrows,
      next = borrow.settled context.tree resolution.point
        (state.settlement context resolution.effect)) ∨
      ∃ kind target place id, resolution.effect = .borrow kind target ⟨place, false⟩ ∧
        next = { id, referent := place, kind, created := resolution.point,
                 holder := target.place, holderScope := context.tree.scopeOf target.place,
                 origin := resolution.loc } := by
  have old : ∀ {ready owners}, Becomes state
      (Borrow.settled context.tree resolution.point (state.settlement context resolution.effect))
      owners ready → next ∈ ready.ledger.borrows →
        ∃ borrow ∈ state.ledger.borrows, next = borrow.settled context.tree resolution.point
          (state.settlement context resolution.effect) := by
    intro ready owners becomes listed
    rw [becomes.borrows consistent] at listed
    obtain ⟨borrow, found, same⟩ := List.mem_map.mp listed
    exact ⟨borrow, found, same.symm⟩
  rcases step_cases context state resolution with
    becomes | ⟨kind, target, source, ready, lends, inside, becomes, admitted, stepped⟩
  · exact .inl (old becomes membership)
  · have entered := (becomes.consistent consistent).lend_of_conflict?_eq_none context.tree
      target.place resolution.point resolution.loc admitted
    rw [stepped] at membership
    simp only [entered, List.mem_append, List.mem_singleton] at membership
    rcases membership with before | rfl
    · exact .inl (old becomes before)
    · exact .inr ⟨kind, target, source.place, _, by rw [lends, ← inside], rfl⟩

end State

end LoanCheck
