import LoanCheck.Liveness
import LoanCheck.Proofs.Check.Extents
import LoanCheck.Proofs.Scope.Statement
import Mathlib.Order.Bounds.Basic

/-!
# Last uses and chains of references

Where a reference is taken through another one, using the new one uses the other one too.
So a reference is used through chains of references, each taken through the one before it at
a later point.  The table of last uses has an entry for every reference that is used, and
the entry is the last use through any such chain.  One pass back over the statements is
enough for that: before a statement is looked at, the table covers the chains that start
after it, and the statement puts itself in front of some of them.
-/

namespace LoanCheck

namespace ScopeTree

variable (tree : ScopeTree)

/-- The statement at a point uses a place. -/
def UsesAt (point : Point) (place : PlaceId) : Prop :=
  ∃ resolution use, tree.resolved[point]? = some resolution ∧
    resolution.effect.source? = some use ∧ use.place = place

/-- The statement at a point takes a reference through another one. -/
def ReborrowsAt (point : Point) (place taken : PlaceId) : Prop :=
  ∃ resolution kind target source, tree.resolved[point]? = some resolution ∧
    resolution.effect = .borrow kind target source ∧ source.place = place ∧
    tree.holdsReference place = true ∧ target.place = taken

/-- From one place to another one by references, each taken through the one before it by the
statement at the next of the points. -/
inductive Reborrows : PlaceId → List Point → PlaceId → Prop where
  | refl (place : PlaceId) : Reborrows place [] place
  | through {point : Point} {points : List Point} {place taken last : PlaceId}
      (reborrows : tree.ReborrowsAt point place taken) (rest : Reborrows taken points last) :
      Reborrows place (point :: points) last

/-- The uses of a reference through others that are taken from a point on, one after the
other. -/
def usesFrom (start : Point) (place : PlaceId) : Set Point :=
  {use | tree.holdsReference place = true ∧ ∃ points last, (∀ point ∈ points, start ≤ point) ∧
    points.Pairwise (· < ·) ∧ tree.Reborrows place points last ∧ tree.UsesAt use last}

variable {tree}

theorem ReborrowsAt.usesAt {point : Point} {place taken : PlaceId}
    (reborrows : tree.ReborrowsAt point place taken) : tree.UsesAt point place := by
  obtain ⟨resolution, kind, target, source, listed, lends, isSource, _⟩ := reborrows
  exact ⟨resolution, source, listed, by rw [lends]; rfl, isSource⟩

/-- Whatever is used through other references is used. -/
theorem Reborrows.usesAt {place last : PlaceId} {points : List Point} {use : Point}
    (reborrows : tree.Reborrows place points last) (used : tree.UsesAt use last) :
    ∃ point, tree.UsesAt point place := by
  cases reborrows with
  | refl => exact ⟨use, used⟩
  | through reborrows rest => exact ⟨_, reborrows.usesAt⟩

theorem usesFrom_subset_of_le {early late : Point} (order : early ≤ late) (place : PlaceId) :
    tree.usesFrom late place ⊆ tree.usesFrom early place := by
  rintro use ⟨reference, points, last, bound, chain⟩
  exact ⟨reference, points, last, fun point member => order.trans (bound point member), chain⟩

/-- From the end on no reference is taken any more, so a reference is used by itself only. -/
theorem usesFrom_of_length_le {start : Point} (beyond : tree.resolved.length ≤ start)
    (place : PlaceId) :
    tree.usesFrom start place =
      {use | tree.holdsReference place = true ∧ tree.UsesAt use place} := by
  ext use
  constructor
  · rintro ⟨reference, points, last, bound, _, reborrows, used⟩
    refine ⟨reference, ?_⟩
    cases reborrows with
    | refl => exact used
    | @through point points _ taken _ reborrows rest =>
        obtain ⟨resolution, _, _, _, listed, _⟩ := reborrows
        have inside := (List.getElem?_eq_some_iff.mp listed).1
        exact absurd (beyond.trans (bound point List.mem_cons_self)) (Nat.not_le.mpr inside)
  · rintro ⟨reference, used⟩
    exact ⟨reference, [], place, by simp, .nil, .refl place, used⟩

/-- A chain that starts at a point or later starts later, unless the statement there takes a
reference through the place. -/
theorem mem_usesFrom_cases {point use : Point} {place : PlaceId}
    (references : ∀ taken, tree.ReborrowsAt point place taken → tree.holdsReference taken = true)
    (member : use ∈ tree.usesFrom point place) :
    use ∈ tree.usesFrom (point + 1) place ∨
      ∃ taken, tree.ReborrowsAt point place taken ∧ use ∈ tree.usesFrom (point + 1) taken := by
  obtain ⟨reference, points, last, bound, ascending, reborrows, used⟩ := member
  cases reborrows with
  | refl => exact .inl ⟨reference, [], place, by simp, .nil, .refl place, used⟩
  | @through first points _ taken _ reborrows rest =>
      obtain ⟨later, ascendingRest⟩ := List.pairwise_cons.mp ascending
      rcases Nat.eq_or_lt_of_le (bound first List.mem_cons_self) with same | after
      · subst same
        exact .inr ⟨taken, reborrows, references taken reborrows, points, last,
          fun other member => later other member, ascendingRest, rest, used⟩
      · refine .inl ⟨reference, first :: points, last, ?_, ascending, .through reborrows rest,
          used⟩
        intro other member
        rcases List.mem_cons.mp member with rfl | inRest
        · exact after
        · exact Nat.succ_le_of_lt (Nat.lt_trans after (later other inRest))

/-- What a reference is used for, it is used for through the reference it was taken through. -/
theorem ReborrowsAt.usesFrom_subset {point : Point} {place taken : PlaceId}
    (reborrows : tree.ReborrowsAt point place taken) :
    tree.usesFrom (point + 1) taken ⊆ tree.usesFrom point place := by
  rintro use ⟨_, points, last, bound, ascending, rest, used⟩
  have reference : tree.holdsReference place = true := by
    obtain ⟨_, _, _, _, _, _, _, reference, _⟩ := reborrows
    exact reference
  refine ⟨reference, point :: points, last, ?_, ?_, .through reborrows rest, used⟩
  · intro other member
    rcases List.mem_cons.mp member with rfl | inRest
    · exact Nat.le_refl _
    · exact Nat.le_of_succ_le (bound other inRest)
  · exact List.pairwise_cons.mpr ⟨fun other inRest => bound other inRest, ascending⟩

end ScopeTree

/-- An entry is the greatest of some points, and is missing where there are none. -/
def Latest (points : Set Point) : Option Point → Prop
  | some last => IsGreatest points last
  | none => points = ∅

namespace Latest

variable {first second : Set Point} {early late : Option Point}

theorem union (left : Latest first early) (right : Latest second late) :
    Latest (first ∪ second) (max early late) := by
  cases early with
  | none =>
      obtain rfl : first = ∅ := left
      rw [Set.empty_union, Option.max_none_left]
      exact right
  | some early =>
      cases late with
      | none =>
          obtain rfl : second = ∅ := right
          rw [Set.union_empty, Option.max_none_right]
          exact left
      | some late =>
          rw [Option.max_some_some]
          exact IsGreatest.union left right

theorem singleton (point : Point) : Latest {point} (some point) := isGreatest_singleton

theorem isSome_iff (latest : Latest first early) : early.isSome = true ↔ first.Nonempty := by
  cases early with
  | none =>
      obtain rfl : first = ∅ := latest
      simp
  | some last => exact iff_of_true rfl ⟨last, latest.1⟩

end Latest

namespace Liveness

variable (tree : ScopeTree) (liveness : Liveness) (resolution : Resolution) (place : PlaceId)

theorem get?_addUse :
    (addUse tree liveness resolution).get? place =
      if resolution.effect.source?.map Use.place = some place ∧
          tree.holdsReference place = true then
        max (liveness.get? place) (some resolution.point)
      else liveness.get? place := by
  unfold addUse
  cases used : resolution.effect.source? with
  | none => simp
  | some source =>
      simp only [Option.map_some, Option.some.injEq]
      by_cases same : source.place = place
      · subst same
        cases reference : tree.holdsReference source.place with
        | false => simp
        | true => cases liveness.get? source.place <;> simp
      · have elsewhere := fun last => Table.get?_set_of_ne liveness last (Ne.symm same)
        rw [if_neg (fun both => same both.1 : ¬(source.place = place ∧ _))]
        split
        · split
          · exact elsewhere _
          · exact elsewhere _
        · rfl

variable {resolution}

theorem get?_carryBack {kind : BorrowKind} {target : Target} {source : Use}
    (lends : resolution.effect = .borrow kind target source) :
    (carryBack tree liveness resolution).get? place =
      if source.place = place ∧ tree.holdsReference place = true then
        max (liveness.get? place) (liveness.get? target.place)
      else liveness.get? place := by
  simp only [carryBack, lends]
  by_cases same : source.place = place
  · subst same
    cases tree.holdsReference source.place with
    | false => simp
    | true =>
        cases liveness.get? target.place with
        | none => simp
        | some last =>
            cases known : liveness.get? source.place with
            | none => simp
            | some own =>
                by_cases raises : own < last
                · simp [raises, Nat.max_eq_right (Nat.le_of_lt raises)]
                · simp [raises, known, Nat.max_eq_left (Nat.le_of_not_lt raises)]
  · rw [if_neg (fun both => same both.1 : ¬(source.place = place ∧ _))]
    split
    · split
      · split
        · exact Table.get?_set_of_ne liveness _ (Ne.symm same)
        · rfl
      · rfl
    · rfl

end Liveness

namespace ScopeTree

variable {tree : ScopeTree}

/-- Counting the uses of the first statements gives the last use of each reference. -/
theorem latest_foldl_addUse
    (at_point : ∀ (point : Point) (resolution : Resolution),
      tree.resolved[point]? = some resolution → resolution.point = point)
    {point : Point} (inside : point ≤ tree.resolved.length) (place : PlaceId) :
    Latest {use | use < point ∧ tree.holdsReference place = true ∧ tree.UsesAt use place}
      (((tree.resolved.take point).foldl (Liveness.addUse tree) []).get? place) := by
  induction point with
  | zero => exact Set.eq_empty_of_forall_notMem fun use used => Nat.not_lt_zero _ used.1
  | succ point inductionHypothesis =>
      have listed := List.getElem?_eq_getElem (Nat.lt_of_succ_le inside)
      generalize tree.resolved[point] = resolution at listed
      have before := inductionHypothesis (Nat.le_of_succ_le inside)
      rw [List.take_add_one, listed, List.foldl_append, Option.toList_some, List.foldl_cons,
        List.foldl_nil, Liveness.get?_addUse, at_point point resolution listed]
      have isUse : tree.UsesAt point place ↔
          resolution.effect.source?.map Use.place = some place := by
        simp only [UsesAt, listed, Option.some.injEq, exists_and_left, exists_eq_left',
          Option.map_eq_some_iff]
      split
      · next used =>
          -- The statement is a use of the place, and a later one than those before it.
          convert before.union (Latest.singleton point) using 1
          ext use
          simp only [Set.mem_ofPred_eq, Set.mem_union, Set.mem_singleton_iff,
            Nat.lt_succ_iff_lt_or_eq]
          constructor
          · rintro ⟨early | rfl, known⟩
            · exact .inl ⟨early, known⟩
            · exact .inr rfl
          · rintro (⟨early, known⟩ | rfl)
            · exact ⟨.inl early, known⟩
            · exact ⟨.inr rfl, used.2, isUse.mpr used.1⟩
      · next unused =>
          convert before using 1
          ext use
          simp only [Set.mem_ofPred_eq, Nat.lt_succ_iff_lt_or_eq]
          constructor
          · rintro ⟨early | rfl, reference, used⟩
            · exact ⟨early, reference, used⟩
            · exact absurd ⟨isUse.mp used, reference⟩ unused
          · rintro ⟨early, known⟩
            exact ⟨.inl early, known⟩

/-- Looking at one more statement on the way back covers the chains that it starts. -/
theorem latest_carryBack {point : Point} {resolution : Resolution} {liveness : Liveness}
    (listed : tree.resolved[point]? = some resolution)
    (references : ∀ place taken, tree.ReborrowsAt point place taken →
      tree.holdsReference taken = true)
    (covered : ∀ place, Latest (tree.usesFrom (point + 1) place) (liveness.get? place))
    (place : PlaceId) :
    Latest (tree.usesFrom point place)
      ((Liveness.carryBack tree liveness resolution).get? place) := by
  have later : tree.usesFrom (point + 1) place ⊆ tree.usesFrom point place :=
    usesFrom_subset_of_le (Nat.le_succ point) place
  by_cases reborrows : ∃ taken, tree.ReborrowsAt point place taken
  · obtain ⟨taken, reborrows⟩ := reborrows
    obtain ⟨same, kind, target, source, alsoListed, lends, isSource, reference, isTarget⟩ :=
      id reborrows
    obtain rfl : resolution = same := Option.some.inj (listed.symm.trans alsoListed)
    rw [Liveness.get?_carryBack tree liveness place lends, if_pos ⟨isSource, reference⟩, isTarget]
    convert (covered place).union (covered taken) using 1
    apply Set.Subset.antisymm
    · intro use member
      rcases mem_usesFrom_cases (references place) member with after | ⟨other, also, after⟩
      · exact .inl after
      · obtain ⟨again, _, otherTarget, _, listedAgain, lendsAgain, _, _, isOther⟩ := also
        obtain rfl : resolution = again := Option.some.inj (listed.symm.trans listedAgain)
        rw [lends, Effect.borrow.injEq] at lendsAgain
        rw [← isOther, ← lendsAgain.2.1, isTarget] at after
        exact .inr after
    · exact Set.union_subset later reborrows.usesFrom_subset
  · have unchanged : (Liveness.carryBack tree liveness resolution).get? place =
        liveness.get? place := by
      cases effect : resolution.effect with
      | borrow kind target source =>
          rw [Liveness.get?_carryBack tree liveness place effect, if_neg]
          rintro ⟨isSource, reference⟩
          exact reborrows ⟨target.place, resolution, kind, target, source, listed, effect, isSource,
            reference, rfl⟩
      | _ => simp only [Liveness.carryBack, effect]
    rw [unchanged]
    convert covered place using 1
    apply Set.Subset.antisymm _ later
    intro use member
    rcases mem_usesFrom_cases (references place) member with after | ⟨taken, reborrow, _⟩
    · exact after
    · exact absurd ⟨taken, reborrow⟩ reborrows

/-- On the way back from the end, the table covers the chains of the statements looked at. -/
theorem latest_foldr_carryBack {uses : Liveness}
    (references : ∀ point place taken, tree.ReborrowsAt point place taken →
      tree.holdsReference taken = true)
    (counted : ∀ place, Latest {use | tree.holdsReference place = true ∧ tree.UsesAt use place}
      (uses.get? place))
    (done rest : List Resolution) (split : tree.resolved = done ++ rest) (place : PlaceId) :
    Latest (tree.usesFrom done.length place)
      ((rest.foldr (fun resolution liveness => Liveness.carryBack tree liveness resolution)
        uses).get? place) := by
  induction rest generalizing done place with
  | nil =>
      rw [List.append_nil] at split
      rw [usesFrom_of_length_le (Nat.le_of_eq (congrArg List.length split))]
      exact counted place
  | cons resolution rest inductionHypothesis =>
      have listed : tree.resolved[done.length]? = some resolution := by
        rw [split]
        simp
      refine latest_carryBack listed (references done.length) ?_ place
      intro other
      have later := inductionHypothesis (done ++ [resolution]) (by simp [split]) other
      rw [List.length_append, List.length_singleton] at later
      exact later

end ScopeTree

namespace CodeUnit

variable {unit : CodeUnit} {tree : ScopeTree} (built : unit.scopeTree = .ok tree)

include built

theorem holdsReference_of_reborrowsAt {point : Point} {place taken : PlaceId}
    (reborrows : tree.ReborrowsAt point place taken) : tree.holdsReference taken = true := by
  obtain ⟨resolution, kind, target, source, listed, lends, _, _, rfl⟩ := reborrows
  obtain ⟨statement, before, after, rest, passage⟩ := passage_at built listed
  exact passage.crossing.leads_after.holdsReference
    (passage.crossing.transition.borrows kind target source lends)

/-- The table of last uses covers all chains of references of a unit. -/
theorem latest_liveness (place : PlaceId) :
    Latest (tree.usesFrom 0 place) (tree.liveness.get? place) := by
  have at_point : ∀ (point : Point) (resolution : Resolution),
      tree.resolved[point]? = some resolution → resolution.point = point := by
    intro point resolution listed
    obtain ⟨_, _, _, _, passage⟩ := passage_at built listed
    exact passage.crossing.at_point
  rw [ScopeTree.liveness, List.foldl_reverse]
  refine ScopeTree.latest_foldr_carryBack
    (fun point place taken => holdsReference_of_reborrowsAt built) ?_ [] tree.resolved rfl place
  intro other
  have counted := ScopeTree.latest_foldl_addUse at_point (Nat.le_refl _) other
  rw [List.take_length] at counted
  convert counted using 1
  ext use
  refine ⟨fun used => ⟨?_, used⟩, fun used => used.2⟩
  obtain ⟨_, _, listed, _⟩ := used.2
  exact (List.getElem?_eq_some_iff.mp listed).1

end CodeUnit

/-- There is a last use of exactly the references that some statement uses, and it is the
greatest point at which a reference is used that is reached by references taken through one
another at later and later points. -/
theorem CodeUnit.last_uses_end_chains {unit : CodeUnit} {tree : ScopeTree}
    (built : unit.scopeTree = .ok tree) (place : PlaceId) :
    ((tree.liveness.get? place).isSome = true ↔
      tree.holdsReference place = true ∧ ∃ point, tree.UsesAt point place) ∧
    ∀ last, tree.liveness.get? place = some last →
      IsGreatest {use | ∃ points final, points.Pairwise (· < ·) ∧
        tree.Reborrows place points final ∧ tree.UsesAt use final} last := by
  have latest := latest_liveness built place
  constructor
  · rw [latest.isSome_iff]
    constructor
    · rintro ⟨use, reference, points, last, _, _, reborrows, used⟩
      exact ⟨reference, reborrows.usesAt used⟩
    · rintro ⟨reference, point, used⟩
      exact ⟨point, reference, [], place, by simp, .nil, .refl place, used⟩
  · intro last found
    rw [found] at latest
    obtain ⟨⟨reference, points, final, _, chain⟩, greatest⟩ := latest
    refine ⟨⟨points, final, chain⟩, ?_⟩
    rintro use ⟨others, other, chained⟩
    exact greatest ⟨reference, others, other, fun point _ => Nat.zero_le point, chained⟩

/-- A reference is taken through another one and used, after which the place it is kept in is
given a reference to a value; a third one is taken through that place and used last. -/
def rechained : CodeUnit := .ofActions "rechained" [
  .bind (.str "x") (.bool false) none (.bool false) (.bool false),
  .borrow .shared (.str "a") (.str "x"),
  .declare (.str "b") (.bool true) (.bool false),
  .borrow .shared (.str "b") (.str "a"),
  .read (.str "b"),
  .borrow .shared (.str "b") (.str "x"),
  .borrow .shared (.str "c") (.str "b"),
  .borrow .shared (.str "unused") (.str "x"),
  .read (.str "c")]

/-- The chain from `a` goes through `b` at point 3 and `c` at point 6 although `b` refers to
something else by then; the reference that is never used has no last use. -/
theorem rechained_last_uses :
    ∃ tree, rechained.scopeTree = .ok tree ∧
      tree.liveness = [(1, 8), (2, 8), (3, 8)] ∧ tree.holdsReference 4 = true ∧
      IsGreatest {use | ∃ points final, points.Pairwise (· < ·) ∧
        tree.Reborrows 1 points final ∧ tree.UsesAt use final} 8 ∧
      ¬∃ point, tree.UsesAt point 4 := by
  have known : (rechained.scopeTree.toOption.map fun tree =>
      (tree.liveness, tree.holdsReference 4)) = some ([(1, 8), (2, 8), (3, 8)], true) := by
    decide
  obtain ⟨tree, found, facts⟩ := Option.map_eq_some_iff.mp known
  have built := toOption_eq_some_iff.mp found
  simp only [Prod.mk.injEq] at facts
  obtain ⟨table, reference⟩ := facts
  refine ⟨tree, built, table, reference, ?_, ?_⟩
  · apply (CodeUnit.last_uses_end_chains built 1).2
    rw [table]
    rfl
  · intro used
    have entry := (CodeUnit.last_uses_end_chains built 4).1.mpr ⟨reference, used⟩
    rw [table] at entry
    cases entry

end LoanCheck
