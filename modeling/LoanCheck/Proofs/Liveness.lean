import LoanCheck.Liveness

/-!
# Last uses carried back

Last uses are carried back over the statements of a unit, from the last to the first.  A
reference that was taken through another one hands its last use on to it.  What the reference
gets from statements before its own comes too late for that, and this is the only way in which
the other one may be thought dead before it.
-/

namespace LoanCheck

namespace Liveness

variable {tree : ScopeTree} {liveness : Liveness} {place : PlaceId} {point : Point}

theorem liveAfter_iff :
    liveness.liveAfter place point = true ↔
      ∃ last, liveness.get? place = some last ∧ point < last := by
  unfold liveAfter
  split
  · next last found =>
      simp only [decide_eq_true_eq, Int.ofNat_lt, found, Option.some.injEq, exists_eq_left']
  · next unused =>
      simp only [decide_eq_true_eq, unused, reduceCtorEq, false_and, exists_false, iff_false]
      omega

/-- One statement carries back at most one last use, and a later one than what was there. -/
theorem carryBack_cases (tree : ScopeTree) (liveness : Liveness) (resolution : Resolution) :
    carryBack tree liveness resolution = liveness ∨
      ∃ kind target source last, resolution.effect = .borrow kind target source ∧
        liveness.get? target.place = some last ∧
        (∀ own, liveness.get? source.place = some own → own < last) ∧
        carryBack tree liveness resolution = liveness.set source.place last := by
  unfold carryBack
  split
  · next kind target source lends =>
      split
      · split
        · next last found =>
            split
            · next raises =>
                refine .inr ⟨kind, target, source, last, lends, found, ?_, rfl⟩
                intro own known
                rw [known] at raises
                exact of_decide_eq_true raises
            · exact .inl rfl
        · exact .inl rfl
      · exact .inl rfl
  · exact .inl rfl

theorem liveAfter_carryBack (resolution : Resolution) (live : liveness.liveAfter place point) :
    (carryBack tree liveness resolution).liveAfter place point = true := by
  rcases carryBack_cases tree liveness resolution with
    same | ⟨kind, target, source, last, lends, found, raises, carried⟩
  · rw [same]
    exact live
  · obtain ⟨own, known, used⟩ := liveAfter_iff.mp live
    rw [carried, liveAfter_iff, Table.get?_set]
    split
    · next isSource =>
        rw [isSource] at known
        exact ⟨last, rfl, Nat.lt_trans used (raises own known)⟩
    · exact ⟨own, known, used⟩

/-- What a statement makes live is the source of a borrow whose target is live. -/
theorem lent_of_liveAfter_carryBack {resolution : Resolution}
    (live : (carryBack tree liveness resolution).liveAfter place point = true) :
    liveness.liveAfter place point = true ∨
      ∃ kind target source, resolution.effect = .borrow kind target source ∧
        source.place = place ∧ liveness.liveAfter target.place point = true := by
  rcases carryBack_cases tree liveness resolution with
    same | ⟨kind, target, source, last, lends, found, raises, carried⟩
  · rw [same] at live
    exact .inl live
  · rw [carried, liveAfter_iff, Table.get?_set] at live
    split at live
    · next isSource =>
        obtain ⟨_, ⟨⟩, used⟩ := live
        exact .inr ⟨kind, target, source, lends, isSource.symm,
          liveAfter_iff.mpr ⟨last, found, used⟩⟩
    · exact .inl (liveAfter_iff.mpr live)

/-- A reference that is borrowed is live as long as the new reference is. -/
theorem liveAfter_carryBack_source {resolution : Resolution} {kind : BorrowKind} {target : Target}
    {source : Use} (lends : resolution.effect = .borrow kind target source)
    (reference : tree.holdsReference source.place = true)
    (live : liveness.liveAfter target.place point = true) :
    (carryBack tree liveness resolution).liveAfter source.place point = true := by
  obtain ⟨last, found, used⟩ := liveAfter_iff.mp live
  simp only [carryBack, lends, reference, if_true, found]
  split
  · rw [liveAfter_iff, Table.get?_set, if_pos rfl]
    exact ⟨last, rfl, used⟩
  · next kept =>
      cases known : liveness.get? source.place with
      | none => simp [known] at kept
      | some own =>
          rw [known, Option.all_some, decide_eq_true_eq] at kept
          exact liveAfter_iff.mpr ⟨own, known, Nat.lt_of_lt_of_le used (Nat.le_of_not_lt kept)⟩

theorem liveAfter_foldl (resolved : List Resolution) (live : liveness.liveAfter place point) :
    (resolved.foldl (carryBack tree) liveness).liveAfter place point = true := by
  induction resolved generalizing liveness with
  | nil => exact live
  | cons resolution rest inductionHypothesis =>
      exact inductionHypothesis (liveAfter_carryBack resolution live)

theorem lent_of_liveAfter_foldl {resolved : List Resolution}
    (live : (resolved.foldl (carryBack tree) liveness).liveAfter place point = true) :
    liveness.liveAfter place point = true ∨
      ∃ resolution ∈ resolved, ∃ kind target source,
        resolution.effect = .borrow kind target source ∧ source.place = place ∧
          (resolved.foldl (carryBack tree) liveness).liveAfter target.place point = true := by
  induction resolved generalizing liveness with
  | nil => exact .inl live
  | cons resolution rest inductionHypothesis =>
      rcases inductionHypothesis live with before | ⟨other, listed, lent⟩
      · rcases lent_of_liveAfter_carryBack before with
          already | ⟨kind, target, source, lends, isSource, targetLive⟩
        · exact .inl already
        · right
          refine ⟨resolution, List.mem_cons_self, kind, target, source, lends, isSource, ?_⟩
          exact liveAfter_foldl rest (liveAfter_carryBack resolution targetLive)
      · exact .inr ⟨other, List.mem_cons_of_mem _ listed, lent⟩

end Liveness

/-- A place was borrowed before a point, by a reference that is used after another point. -/
def ScopeTree.LentBefore (tree : ScopeTree) (before : Point) (place : PlaceId) (after : Point) :
    Prop :=
  ∃ earlier resolution kind target source, earlier < before ∧
    tree.resolved[earlier]? = some resolution ∧
    resolution.effect = .borrow kind target source ∧ source.place = place ∧
    tree.liveness.liveAfter target.place after = true

/-- Where a reference is taken through another one, the other one is live as long as the first,
unless the first had been borrowed before. -/
theorem ScopeTree.liveAfter_of_borrow {tree : ScopeTree} {taken point : Point}
    {resolution : Resolution} {kind : BorrowKind} {target : Target} {source : Use}
    (listed : tree.resolved[taken]? = some resolution)
    (lends : resolution.effect = .borrow kind target source)
    (reference : tree.holdsReference source.place = true)
    (live : tree.liveness.liveAfter target.place point = true) :
    tree.liveness.liveAfter source.place point = true ∨
      tree.LentBefore taken target.place point := by
  obtain ⟨inside, isTaken⟩ := List.getElem?_eq_some_iff.mp listed
  have split : tree.resolved =
      tree.resolved.take taken ++ resolution :: tree.resolved.drop (taken + 1) := by
    rw [← isTaken, ← List.drop_eq_getElem_cons inside, List.take_append_drop]
  have reversed := congrArg List.reverse split
  rw [List.reverse_append, List.reverse_cons, List.append_assoc, List.singleton_append] at reversed
  -- The table after the later statements, before this one and the earlier ones are looked at.
  let later := (tree.resolved.drop (taken + 1)).reverse.foldl (Liveness.carryBack tree)
    (tree.resolved.foldl (Liveness.addUse tree) [])
  have carried : tree.liveness = (tree.resolved.take taken).reverse.foldl
      (Liveness.carryBack tree) (Liveness.carryBack tree later resolution) := by
    rw [ScopeTree.liveness, reversed, List.foldl_append, List.foldl_cons]
  have here : ∀ place, (Liveness.carryBack tree later resolution).liveAfter place point = true →
      tree.liveness.liveAfter place point = true := by
    intro place liveHere
    rw [carried]
    exact Liveness.liveAfter_foldl _ liveHere
  have handedOn : later.liveAfter target.place point = true →
      tree.liveness.liveAfter source.place point = true := fun targetLive =>
    here _ (Liveness.liveAfter_carryBack_source lends reference targetLive)
  rw [carried] at live
  rcases Liveness.lent_of_liveAfter_foldl live with
    beforeThat | ⟨other, member, otherKind, otherTarget, otherSource, lent⟩
  · rcases Liveness.lent_of_liveAfter_carryBack beforeThat with
      targetLive | ⟨sameKind, sameTarget, sameSource, again, _, targetLive⟩
    · exact .inl (handedOn targetLive)
    · rw [lends, Effect.borrow.injEq] at again
      obtain ⟨_, rfl, _⟩ := again
      exact .inl (handedOn targetLive)
  · rw [List.mem_reverse, List.mem_take_iff_getElem] at member
    obtain ⟨earlier, bound, isOther⟩ := member
    rw [← carried] at lent
    refine .inr ⟨earlier, other, otherKind, otherTarget, otherSource, ?_, ?_, lent⟩
    · exact Nat.lt_of_lt_of_le bound (Nat.min_le_left _ _)
    · exact List.getElem?_eq_some_iff.mpr ⟨_, isOther⟩

end LoanCheck
