import LoanCheck.Loan.Lifetime
import LoanCheck.Proofs.Loan.Ledger
import LoanCheck.Proofs.Scope.Path

/-!
# Sound borrows

What holds of every single borrow while the statements of a unit are taken.  An active
borrow is kept by a reference that can be named, and refers to a place that can be named,
unless the statement that took it hid that place.  So no borrow lasts longer than the
scopes of the two.
-/

namespace LoanCheck

/-- The statement that took a borrow gave the name of the borrowed place to the reference. -/
def ScopeTree.ShadowsReferent (tree : ScopeTree) (borrow : Borrow) : Prop :=
  ∃ resolution kind holder rebinds,
    tree.resolved[borrow.created]? = some resolution ∧
      resolution.effect =
        .borrow kind (.fresh holder (some borrow.referent) rebinds) ⟨borrow.referent, false⟩

namespace Borrow

/-- A later state of a borrow: its end is final, and its holder is all that may change. -/
structure Continues (earlier later : Borrow) : Prop where
  id : later.id = earlier.id
  referent : later.referent = earlier.referent
  kind : later.kind = earlier.kind
  created : later.created = earlier.created
  retired : ∀ stop, earlier.retired = some stop → later.retired = some stop

namespace Continues

theorem refl (borrow : Borrow) : Continues borrow borrow :=
  ⟨rfl, rfl, rfl, rfl, fun _ ended => ended⟩

theorem trans {first second third : Borrow} (left : Continues first second)
    (right : Continues second third) : Continues first third where
  id := right.id.trans left.id
  referent := right.referent.trans left.referent
  kind := right.kind.trans left.kind
  created := right.created.trans left.created
  retired stop ended := right.retired stop (left.retired stop ended)

end Continues

theorem isActive_iff (borrow : Borrow) : borrow.isActive = true ↔ borrow.retired = none := by
  simp [isActive]

theorem Continues.active_before {earlier later : Borrow} (continues : Continues earlier later)
    (active : later.isActive = true) : earlier.isActive = true := by
  rw [isActive_iff] at active ⊢
  cases ended : earlier.retired with
  | none => rfl
  | some stop => cases active.symm.trans (continues.retired stop ended)

theorem continues_endedIf (chosen : Borrow → Bool) (point : Point) (borrow : Borrow) :
    Continues borrow (borrow.endedIf chosen point) := by
  unfold endedIf
  split
  · next ends =>
      have active := (isActive_iff borrow).mp (Bool.and_eq_true_iff.mp ends).1
      refine ⟨rfl, rfl, rfl, rfl, ?_⟩
      simp [active]
  · exact .refl borrow

theorem continues_outlivedIf (dropped : PlaceId → Bool) (point : Point) (borrow : Borrow) :
    Continues borrow (borrow.outlivedIf dropped point) := by
  unfold outlivedIf
  split
  · next ends =>
      have active := (isActive_iff borrow).mp (Bool.and_eq_true_iff.mp ends).1
      refine ⟨rfl, rfl, rfl, rfl, ?_⟩
      simp [active]
  · exact .refl borrow

theorem continues_passedOn (tree : ScopeTree) (source dest : PlaceId) (borrow : Borrow) :
    Continues borrow (borrow.passedOn tree source dest) := by
  unfold passedOn
  split
  · exact ⟨rfl, rfl, rfl, rfl, fun _ ended => ended⟩
  · exact .refl borrow

theorem continues_markedIf (id : Option BorrowId) (borrow : Borrow) :
    Continues borrow (borrow.markedIf id) := by
  unfold markedIf
  split
  · exact ⟨rfl, rfl, rfl, rfl, fun _ ended => ended⟩
  · exact .refl borrow

/-- Of two borrows of one place, both are shared or the first ended before the second. -/
def Compatible (first second : Borrow) : Prop :=
  first.referent = second.referent →
    (first.kind = .shared ∧ second.kind = .shared) ∨
      ∃ stop, first.retired = some stop ∧ stop ≤ second.created

theorem Compatible.continues {first second later next : Borrow}
    (compatible : Compatible first second) (left : Continues first later)
    (right : Continues second next) : Compatible later next := by
  intro same
  rw [left.referent, right.referent] at same
  rcases compatible same with ⟨firstShared, secondShared⟩ | ⟨stop, ended, before⟩
  · exact .inl ⟨left.kind.trans firstShared, right.kind.trans secondShared⟩
  · exact .inr ⟨stop, left.retired stop ended, by rw [right.created]; exact before⟩

theorem pairwise_compatible_map {borrows : List Borrow} {change : Borrow → Borrow}
    (continues : ∀ borrow, Continues borrow (change borrow))
    (compatible : borrows.Pairwise Compatible) : (borrows.map change).Pairwise Compatible :=
  List.pairwise_map.mpr (compatible.imp fun both =>
    both.continues (continues _) (continues _))

/-- What holds of a borrow before the statement at a point. -/
structure Sound (tree : ScopeTree) (builder : Builder) (point : Point) (borrow : Borrow) :
    Prop where
  holderScope : borrow.holderScope = tree.scopeOf borrow.holder
  created : borrow.created < point
  declared : ∃ found, builder.declared? borrow.referent = some found ∧
    found.point ≤ borrow.created
  holder_live : borrow.isActive = true → builder.Live borrow.holder
  holder_reference : borrow.isActive = true → builder.holding? borrow.holder = some .reference
  referent_live : borrow.isActive = true →
    builder.Live borrow.referent ∨ tree.ShadowsReferent borrow
  nonempty : ∀ stop, borrow.retired = some stop → borrow.created < stop
  ended : ∀ stop, borrow.retired = some stop → stop ≤ point
  within_holder : ∀ stop, borrow.retired = some stop →
    stop ≤ tree.exitPoint borrow.holderScope
  within_referent : ∀ stop, borrow.retired = some stop →
    stop ≤ tree.exitPoint (tree.scopeOf borrow.referent) ∨ tree.ShadowsReferent borrow

namespace Sound

variable {tree : ScopeTree} {builder before after : Builder} {point : Point} {borrow : Borrow}
  {rest : List Resolution}

/-- Ending an active borrow now leaves it sound, whatever the reason. -/
theorem end_now (sound : borrow.Sound tree builder point)
    (leads : Builder.Leads tree point builder rest) (active : borrow.isActive = true)
    (dangling : Bool) :
    Sound tree builder point { borrow with retired := some point, dangling } := by
  have kept := sound.holder_live active
  refine { sound with
    holder_live := nofun, holder_reference := nofun, referent_live := nofun
    nonempty := ?_, ended := ?_, within_holder := ?_, within_referent := ?_ }
  · rintro stop ⟨⟩
    exact sound.created
  · rintro stop ⟨⟩
    exact Nat.le_refl point
  · rintro stop ⟨⟩
    rw [sound.holderScope]
    exact leads.le_exitPoint_of_live kept
  · rintro stop ⟨⟩
    rcases sound.referent_live active with live | shadows
    · exact .inl (leads.le_exitPoint_of_live live)
    · exact .inr shadows

theorem endedIf (sound : borrow.Sound tree builder point)
    (leads : Builder.Leads tree point builder rest) (chosen : Borrow → Bool) :
    Sound tree builder point (borrow.endedIf chosen point) := by
  unfold Borrow.endedIf
  split
  · next ends => exact sound.end_now leads (Bool.and_eq_true_iff.mp ends).1 borrow.dangling
  · exact sound

theorem outlivedIf (sound : borrow.Sound tree builder point)
    (leads : Builder.Leads tree point builder rest) (dropped : PlaceId → Bool) :
    Sound tree builder point (borrow.outlivedIf dropped point) := by
  unfold Borrow.outlivedIf
  split
  · next ends => exact sound.end_now leads (Bool.and_eq_true_iff.mp ends).1 true
  · exact sound

theorem markedIf (sound : borrow.Sound tree builder point) (id : Option BorrowId) :
    Sound tree builder point (borrow.markedIf id) := by
  unfold Borrow.markedIf
  split
  · exact { sound with }
  · exact sound

/-- A borrow is passed on to a reference that can be named. -/
theorem passedOn (sound : borrow.Sound tree builder point) {source dest : PlaceId}
    (live : builder.Live dest)
    (reference : borrow.isActive = true → borrow.holder = source →
      builder.holding? dest = some .reference) :
    Sound tree builder point (borrow.passedOn tree source dest) := by
  unfold Borrow.passedOn
  split
  · next moves =>
      obtain ⟨active, keeps⟩ := Bool.and_eq_true_iff.mp moves
      have notEnded : ∀ stop, borrow.retired ≠ some stop := by
        simp [(isActive_iff borrow).mp active]
      refine { sound with
        holderScope := rfl, holder_live := fun _ => live
        holder_reference := fun _ => reference active (beq_iff_eq.mp keeps)
        within_holder := fun stop ended => absurd ended (notEnded stop) }
  · exact sound

/-- A statement that hides neither the holder nor the referent of a borrow, unless that has
ended, leaves it sound. -/
theorem cross (sound : borrow.Sound tree before point) {effect : Effect}
    (transition : Builder.Transition before point effect after)
    (holder_live : borrow.isActive = true → after.Live borrow.holder)
    (referent_live : borrow.isActive = true → before.Live borrow.referent →
      after.Live borrow.referent) :
    Sound tree after (point + 1) borrow where
  holderScope := sound.holderScope
  created := Nat.lt_succ_of_lt sound.created
  declared := by
    obtain ⟨found, known, earlier⟩ := sound.declared
    exact ⟨found, transition.declarations _ _ known, earlier⟩
  holder_live := holder_live
  holder_reference active := transition.holdings _ _ (sound.holder_reference active)
  referent_live active := by
    rcases sound.referent_live active with live | shadows
    · exact .inl (referent_live active live)
    · exact .inr shadows
  nonempty := sound.nonempty
  ended stop ends := Nat.le_succ_of_le (sound.ended stop ends)
  within_holder := sound.within_holder
  within_referent := sound.within_referent

end Sound

end Borrow

end LoanCheck
