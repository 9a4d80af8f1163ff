import LoanCheck.Loan.Ledger
import LoanCheck.Proofs.Lists

/-!
# Ledgers whose indexes agree

A ledger keeps every borrow in one list and the active ones in two indexes, by
referent and by holder.  `Ledger.Consistent` says that the indexes tell the same as
the list.  Every operation keeps that, and on a consistent ledger it changes the list
in a way that can be said without the indexes: one function mapped over the borrows,
and at most one new borrow at the end.
-/

namespace LoanCheck

namespace Borrow

/-- End a borrow at a point if it is active and chosen. -/
def endedIf (chosen : Borrow → Bool) (point : Point) (borrow : Borrow) : Borrow :=
  if borrow.isActive && chosen borrow then { borrow with retired := some point } else borrow

/-- End a borrow whose referent is dropped, and note that it outlived it. -/
def outlivedIf (dropped : PlaceId → Bool) (point : Point) (borrow : Borrow) : Borrow :=
  if borrow.isActive && dropped borrow.referent then
    { borrow with retired := some point, dangling := true }
  else borrow

/-- Give a borrow that `source` keeps to `dest`. -/
def passedOn (tree : ScopeTree) (source dest : PlaceId) (borrow : Borrow) : Borrow :=
  if borrow.isActive && borrow.holder == source then
    { borrow with holder := dest, holderScope := tree.scopeOf dest }
  else borrow

/-- Note of one borrow, if there is one, that it dangles. -/
def markedIf (id : Option BorrowId) (borrow : Borrow) : Borrow :=
  if id = some borrow.id then { borrow with dangling := true } else borrow

@[simp]
theorem endedIf_id (chosen : Borrow → Bool) (point : Point) (borrow : Borrow) :
    (borrow.endedIf chosen point).id = borrow.id := by
  unfold endedIf
  split <;> rfl

@[simp]
theorem endedIf_holder (chosen : Borrow → Bool) (point : Point) (borrow : Borrow) :
    (borrow.endedIf chosen point).holder = borrow.holder := by
  unfold endedIf
  split <;> rfl

@[simp]
theorem endedIf_referent (chosen : Borrow → Bool) (point : Point) (borrow : Borrow) :
    (borrow.endedIf chosen point).referent = borrow.referent := by
  unfold endedIf
  split <;> rfl

theorem endedIf_of_ended {borrow : Borrow} (ended : borrow.isActive = false)
    (chosen : Borrow → Bool) (point : Point) : borrow.endedIf chosen point = borrow := by
  simp [endedIf, ended]

/-- Ending borrows of one choice and then of another is ending those of either. -/
theorem endedIf_endedIf (first second : Borrow → Bool) (point : Point) (borrow : Borrow) :
    (borrow.endedIf first point).endedIf second point =
      borrow.endedIf (fun other => first other || second other) point := by
  cases active : borrow.isActive with
  | false => simp only [endedIf_of_ended active]
  | true =>
      cases picked : first borrow with
      | false => simp [endedIf, active, picked]
      | true =>
          have now : borrow.endedIf first point = { borrow with retired := some point } := by
            simp [endedIf, active, picked]
          rw [now, endedIf_of_ended rfl]
          simp [endedIf, active, picked]

theorem isActive_endedIf (chosen : Borrow → Bool) (point : Point) (borrow : Borrow) :
    (borrow.endedIf chosen point).isActive = (borrow.isActive && !chosen borrow) := by
  cases active : borrow.isActive <;> cases picked : chosen borrow <;>
    simp [endedIf, active, picked]
  rfl

/-- The borrows left active by an ending are those that were not chosen. -/
theorem filter_map_endedIf (chosen : Borrow → Bool) (point : Point) (place : PlaceId)
    (borrows : List Borrow) :
    ((borrows.map (endedIf chosen point)).filter fun borrow =>
        borrow.isActive && borrow.referent == place) =
      borrows.filter fun borrow =>
        !chosen borrow && (borrow.isActive && borrow.referent == place) := by
  induction borrows with
  | nil => rfl
  | cons borrow rest inductionHypothesis =>
      rw [List.map_cons, List.filter_cons, List.filter_cons, inductionHypothesis,
        isActive_endedIf]
      cases active : borrow.isActive <;> cases picked : chosen borrow <;>
        simp [endedIf, active, picked]

/-- Where no two borrows have the same number, erasing one leaves all others. -/
theorem eraseP_eq_filter (id : BorrowId) {borrows : List Borrow}
    (ordered : borrows.Pairwise fun borrow other => borrow.id < other.id) :
    (borrows.eraseP fun borrow => borrow.id == id) =
      borrows.filter fun borrow => !(borrow.id == id) := by
  induction ordered with
  | nil => rfl
  | @cons borrow rest later _ inductionHypothesis =>
      by_cases same : borrow.id = id
      · have others : ∀ other ∈ rest, (!(other.id == id)) = true := by
          intro other membership
          rw [Bool.not_eq_true', beq_eq_false_iff_ne, ← same]
          exact Nat.ne_of_gt (later other membership)
        simp [same, List.filter_eq_self.mpr others]
      · simp [same, inductionHypothesis]

@[simp]
theorem markedIf_id (id : Option BorrowId) (borrow : Borrow) :
    (borrow.markedIf id).id = borrow.id := by
  unfold markedIf
  split <;> rfl

@[simp]
theorem markedIf_holder (id : Option BorrowId) (borrow : Borrow) :
    (borrow.markedIf id).holder = borrow.holder := by
  unfold markedIf
  split <;> rfl

@[simp]
theorem markedIf_referent (id : Option BorrowId) (borrow : Borrow) :
    (borrow.markedIf id).referent = borrow.referent := by
  unfold markedIf
  split <;> rfl

@[simp]
theorem isActive_markedIf (id : Option BorrowId) (borrow : Borrow) :
    (borrow.markedIf id).isActive = borrow.isActive := by
  unfold markedIf
  split <;> rfl

@[simp]
theorem outlivedIf_holder (dropped : PlaceId → Bool) (point : Point) (borrow : Borrow) :
    (borrow.outlivedIf dropped point).holder = borrow.holder := by
  unfold outlivedIf
  split <;> rfl

@[simp]
theorem outlivedIf_referent (dropped : PlaceId → Bool) (point : Point) (borrow : Borrow) :
    (borrow.outlivedIf dropped point).referent = borrow.referent := by
  unfold outlivedIf
  split <;> rfl

theorem isActive_outlivedIf (dropped : PlaceId → Bool) (point : Point) (borrow : Borrow) :
    (borrow.outlivedIf dropped point).isActive =
      (borrow.isActive && !dropped borrow.referent) := by
  cases active : borrow.isActive <;> cases picked : dropped borrow.referent <;>
    simp [outlivedIf, active, picked]
  rfl

@[simp]
theorem passedOn_id (tree : ScopeTree) (source dest : PlaceId) (borrow : Borrow) :
    (borrow.passedOn tree source dest).id = borrow.id := by
  unfold passedOn
  split <;> rfl

end Borrow

theorem BorrowKind.ne_exclusive_iff (kind : BorrowKind) : ¬kind = .exclusive ↔ kind = .shared := by
  cases kind <;> decide

namespace BorrowSet

/-- A set is valid when everything in it is shared, or there is just one borrow. -/
theorem isValid_iff (grants : BorrowSet) :
    grants.isValid = true ↔
      (∀ grant ∈ grants, grant.kind = .shared) ∨ ∃ grant, grants = [grant] := by
  simp only [isValid, Bool.or_eq_true, beq_iff_eq, Bool.and_eq_true, List.countP_eq_zero,
    BorrowKind.ne_exclusive_iff, List.length_eq_one_iff]
  constructor
  · rintro (allShared | ⟨_, single⟩)
    · exact .inl allShared
    · exact .inr single
  · rintro (allShared | ⟨grant, rfl⟩)
    · exact .inl allShared
    · cases kind : grant.kind with
      | shared => exact .inl (by simp [kind])
      | exclusive => exact .inr ⟨by simp [kind], grant, rfl⟩

theorem isValid_of_sublist {fewer grants : BorrowSet} (sublist : fewer.Sublist grants)
    (valid : grants.isValid = true) : fewer.isValid = true := by
  rw [isValid_iff] at valid ⊢
  rcases valid with allShared | ⟨grant, rfl⟩
  · exact .inl fun grant membership => allShared grant (sublist.subset membership)
  · cases sublist with
    | cons _ none =>
        rw [List.sublist_nil.mp none]
        exact .inl (by simp)
    | cons_cons _ none =>
        rw [List.sublist_nil.mp none]
        exact .inr ⟨grant, rfl⟩

/-- What may be added: a shared borrow to shared ones, any borrow to none. -/
theorem conflict?_eq_none_iff (grants : BorrowSet) (kind : BorrowKind) :
    grants.conflict? kind = none ↔
      ∀ grant ∈ grants, kind = .shared ∧ grant.kind = .shared := by
  cases kind with
  | shared =>
      simp only [conflict?, exclusive?, List.find?_eq_none, beq_iff_eq,
        BorrowKind.ne_exclusive_iff, true_and]
  | exclusive =>
      simp only [conflict?, List.head?_eq_none_iff, reduceCtorEq, false_and]
      exact List.eq_nil_iff_forall_not_mem

theorem isValid_concat (grants : BorrowSet) (grant : Grant)
    (admitted : grants.conflict? grant.kind = none) :
    BorrowSet.isValid (grants ++ [grant]) = true := by
  rw [conflict?_eq_none_iff] at admitted
  rw [isValid_iff]
  cases grants with
  | nil => exact .inr ⟨grant, rfl⟩
  | cons first rest =>
      apply Or.inl
      intro other membership
      rcases List.mem_append.mp membership with old | new
      · exact (admitted other old).2
      · rw [List.mem_singleton.mp new]
        exact (admitted first (by simp)).1

/-- A borrow that meets no conflict is admitted. -/
theorem add_of_conflict?_eq_none (grants : BorrowSet) (grant : Grant)
    (admitted : grants.conflict? grant.kind = none) :
    grants.add grant = .ok (grants ++ [grant]) := by
  simp [add, isValid_concat grants grant admitted]

end BorrowSet

namespace Ledger

/-- The indexes of a ledger agree with the list of all its borrows. -/
structure Consistent (ledger : Ledger) : Prop where
  /-- Borrows are numbered in the order in which they were taken. -/
  ids : ∀ (id : BorrowId) (borrow : Borrow), ledger.borrows[id]? = some borrow → borrow.id = id
  /-- The set of a place is its active borrows, the oldest first. -/
  sets : ∀ place : PlaceId, ledger.setOf place =
    (ledger.borrows.filter fun borrow => borrow.isActive && borrow.referent == place).map
      Borrow.grant
  /-- A place keeps exactly the active borrows of which it is the holder. -/
  held : ∀ (holder : PlaceId) (id : BorrowId), id ∈ ledger.heldIds holder ↔
    ∃ borrow, ledger.borrows[id]? = some borrow ∧ borrow.isActive = true ∧
      borrow.holder = holder
  nodup : ∀ holder : PlaceId, (ledger.heldIds holder).Nodup
  valid : ∀ place : PlaceId, (ledger.setOf place).isValid = true

theorem consistent_empty : Consistent {} := by
  refine ⟨?_, ?_, ?_, ?_, ?_⟩
  · intro id borrow found
    simp at found
  · intro place
    rfl
  · intro holder id
    simp [heldIds, Table.get?]
  · intro holder
    simp [heldIds, Table.get?]
  · intro place
    rfl

section Lookup

variable {ledger : Ledger} (consistent : ledger.Consistent)

include consistent

theorem Consistent.getElem?_of_mem {borrow : Borrow} (membership : borrow ∈ ledger.borrows) :
    ledger.borrows[borrow.id]? = some borrow := by
  rcases List.mem_iff_getElem?.mp membership with ⟨index, found⟩
  rw [consistent.ids index borrow found]
  exact found

theorem Consistent.eq_of_id {borrow other : Borrow} (listed : borrow ∈ ledger.borrows)
    (alsoListed : other ∈ ledger.borrows) (same : other.id = borrow.id) : other = borrow := by
  have found := consistent.getElem?_of_mem listed
  have alsoFound := consistent.getElem?_of_mem alsoListed
  rw [same, found, Option.some.injEq] at alsoFound
  exact alsoFound.symm

theorem Consistent.ids_map {change : Borrow → Borrow}
    (same : ∀ borrow, (change borrow).id = borrow.id) (id : BorrowId) (borrow : Borrow)
    (found : (ledger.borrows.map change)[id]? = some borrow) : borrow.id = id := by
  rw [List.getElem?_map, Option.map_eq_some_iff] at found
  obtain ⟨old, oldFound, rfl⟩ := found
  rw [same]
  exact consistent.ids id old oldFound

/-- Changing the borrow with a number is changing all borrows with that number. -/
theorem Consistent.modify_eq_map (id : BorrowId) (change : Borrow → Borrow) :
    ledger.borrows.modify id change =
      ledger.borrows.map fun borrow => if borrow.id = id then change borrow else borrow := by
  apply List.ext_getElem?
  intro index
  rw [List.getElem?_modify, List.getElem?_map]
  cases found : ledger.borrows[index]? with
  | none => rfl
  | some borrow =>
      have numbered := consistent.ids index borrow found
      by_cases same : id = index
      · simp [same, numbered]
      · simp [same, numbered, Ne.symm same]

/-- A place's active borrows, looked up through its set. -/
theorem Consistent.activeOn_eq (place : PlaceId) :
    ledger.activeOn place =
      ledger.borrows.filter fun borrow => borrow.isActive && borrow.referent == place := by
  have lookup : ∀ borrow ∈ ledger.borrows.filter fun borrow =>
      borrow.isActive && borrow.referent == place,
      ledger.borrows[borrow.grant.id]? = some borrow := by
    intro borrow membership
    exact consistent.getElem?_of_mem (List.mem_filter.mp membership).1
  rw [activeOn, consistent.sets, List.filterMap_map]
  exact (List.filterMap_congr lookup).trans List.filterMap_some

theorem Consistent.mem_activeOn {place : PlaceId} {borrow : Borrow} :
    borrow ∈ ledger.activeOn place ↔
      borrow ∈ ledger.borrows ∧ borrow.isActive = true ∧ borrow.referent = place := by
  rw [consistent.activeOn_eq]
  simp

theorem Consistent.activeOn_eq_nil_iff {place : PlaceId} :
    ledger.activeOn place = [] ↔
      ∀ borrow ∈ ledger.borrows, borrow.isActive = true → borrow.referent ≠ place := by
  rw [consistent.activeOn_eq, List.filter_eq_nil_iff]
  simp

/-- A borrow is among those chosen from the list when its number is. -/
theorem Consistent.contains_ids (chosen : Borrow → Bool) {borrow : Borrow}
    (membership : borrow ∈ ledger.borrows) :
    ((ledger.borrows.filter chosen).map Borrow.id).contains borrow.id = chosen borrow := by
  have found := consistent.getElem?_of_mem membership
  rw [Bool.eq_iff_iff]
  simp only [List.contains_iff_mem, List.mem_map, List.mem_filter]
  constructor
  · rintro ⟨other, ⟨otherMembership, picked⟩, numbered⟩
    have otherFound := consistent.getElem?_of_mem otherMembership
    rw [numbered, found, Option.some.injEq] at otherFound
    rw [otherFound]
    exact picked
  · intro picked
    exact ⟨borrow, ⟨membership, picked⟩, rfl⟩

theorem Consistent.contains_heldIds {holder : PlaceId} {borrow : Borrow}
    (membership : borrow ∈ ledger.borrows) :
    (ledger.heldIds holder).contains borrow.id =
      (borrow.isActive && borrow.holder == holder) := by
  have found := consistent.getElem?_of_mem membership
  rw [Bool.eq_iff_iff]
  simp only [List.contains_iff_mem, consistent.held, found, Option.some.injEq, Bool.and_eq_true,
    beq_iff_eq]
  constructor
  · rintro ⟨other, rfl, kept⟩
    exact kept
  · intro kept
    exact ⟨borrow, rfl, kept⟩

theorem Consistent.mem_heldBy {holder : PlaceId} {borrow : Borrow} :
    borrow ∈ ledger.heldBy holder ↔
      borrow ∈ ledger.borrows ∧ borrow.isActive = true ∧ borrow.holder = holder := by
  simp only [heldBy, List.mem_filterMap, consistent.held]
  constructor
  · rintro ⟨id, ⟨other, found, kept⟩, same⟩
    rw [found, Option.some.injEq] at same
    subst same
    exact ⟨List.mem_of_getElem? found, kept⟩
  · rintro ⟨listed, kept⟩
    have found := consistent.getElem?_of_mem listed
    exact ⟨borrow.id, ⟨borrow, found, kept⟩, found⟩

theorem Consistent.mem_setOf {place : PlaceId} {grant : Grant} :
    grant ∈ ledger.setOf place ↔
      ∃ borrow ∈ ledger.borrows, borrow.isActive = true ∧ borrow.referent = place ∧
        borrow.grant = grant := by
  rw [consistent.sets]
  simp [and_assoc]

/-- Whoever forbids a borrow in a set is a borrow of the list. -/
theorem Consistent.conflict?_eq_none_iff_setOf (referent : PlaceId) (kind : BorrowKind) :
    ledger.conflict? referent kind = none ↔
      (ledger.setOf referent).conflict? kind = none := by
  simp only [conflict?, Option.bind_eq_none_iff]
  constructor
  · intro absent
    cases conflict : (ledger.setOf referent).conflict? kind with
    | none => rfl
    | some grant =>
        have membership : grant ∈ ledger.setOf referent := by
          cases kind with
          | shared => exact List.mem_of_find?_eq_some conflict
          | exclusive => exact List.mem_of_head? conflict
        rcases consistent.mem_setOf.mp membership with ⟨borrow, listed, _, _, rfl⟩
        have missing := absent borrow.grant conflict
        rw [show borrow.grant.id = borrow.id from rfl,
          consistent.getElem?_of_mem listed] at missing
        cases missing
  · intro absent grant conflict
    rw [absent] at conflict
    cases conflict

/-- A borrow is refused exactly if an active one of the same place forbids it. -/
theorem Consistent.conflict?_eq_none_iff (referent : PlaceId) (kind : BorrowKind) :
    ledger.conflict? referent kind = none ↔
      ∀ borrow ∈ ledger.borrows, borrow.isActive = true → borrow.referent = referent →
        kind = .shared ∧ borrow.kind = .shared := by
  rw [consistent.conflict?_eq_none_iff_setOf, BorrowSet.conflict?_eq_none_iff]
  constructor
  · intro admitted borrow membership active same
    exact admitted borrow.grant (consistent.mem_setOf.mpr ⟨borrow, membership, active, same, rfl⟩)
  · intro admitted grant membership
    rcases consistent.mem_setOf.mp membership with ⟨borrow, listed, active, same, rfl⟩
    exact admitted borrow listed active same

end Lookup

section Retire

variable {ledger : Ledger} (consistent : ledger.Consistent)

theorem setOf_set (borrows : List Borrow) (sets : Table BorrowSet) (held : Table (List BorrowId))
    (place other : PlaceId) (grants : BorrowSet) :
    setOf ⟨borrows, sets.set place grants, held⟩ other =
      if other = place then grants else setOf ⟨borrows, sets, held⟩ other := by
  by_cases same : other = place
  · simp [setOf, same]
  · simp [setOf, same]

theorem heldIds_set (borrows : List Borrow) (sets : Table BorrowSet)
    (held : Table (List BorrowId)) (holder other : PlaceId) (ids : List BorrowId) :
    heldIds ⟨borrows, sets, held.set holder ids⟩ other =
      if other = holder then ids else heldIds ⟨borrows, sets, held⟩ other := by
  by_cases same : other = holder
  · simp [heldIds, same]
  · simp [heldIds, same]

include consistent

/-- An active borrow is in the set of its referent, so it can be removed from there. -/
theorem Consistent.remove_of_active {id : BorrowId} {borrow : Borrow}
    (found : ledger.borrows[id]? = some borrow) (active : borrow.isActive = true) :
    (ledger.setOf borrow.referent).remove id =
      .ok ((ledger.setOf borrow.referent).eraseP fun grant => grant.id == id) := by
  have inSet : ((ledger.setOf borrow.referent).any fun grant => grant.id == id) = true := by
    rw [consistent.sets, List.any_map, List.any_eq_true]
    refine ⟨borrow, List.mem_filter.mpr ⟨List.mem_of_getElem? found, ?_⟩, ?_⟩
    · simp [active]
    · simp [Borrow.grant, consistent.ids id borrow found]
  simp only [BorrowSet.remove, inSet, if_true]

/-- The borrow with a number is the only one that ending it can change. -/
theorem Consistent.retire_of_active {id : BorrowId} {borrow : Borrow} (point : Point)
    (found : ledger.borrows[id]? = some borrow) (active : borrow.isActive = true) :
    ledger.retire id point =
      { borrows := ledger.borrows.map (Borrow.endedIf (fun other => other.id == id) point)
        sets := ledger.sets.set borrow.referent
          ((ledger.setOf borrow.referent).eraseP fun grant => grant.id == id)
        held := ledger.held.set borrow.holder ((ledger.heldIds borrow.holder).erase id) } := by
  have membership : borrow ∈ ledger.borrows := List.mem_of_getElem? found
  have numbered : borrow.id = id := consistent.ids id borrow found
  have inHeld : (ledger.heldIds borrow.holder).contains id = true := by
    rw [← numbered, consistent.contains_heldIds membership]
    simp [active]
  have changed : (ledger.borrows.map fun other =>
      if other.id = id then { other with retired := some point } else other) =
      ledger.borrows.map (Borrow.endedIf (fun other => other.id == id) point) := by
    apply List.map_congr_left
    intro other listed
    by_cases same : other.id = id
    · have otherFound := consistent.getElem?_of_mem listed
      rw [same, found, Option.some.injEq] at otherFound
      subst otherFound
      simp [Borrow.endedIf, same, active]
    · simp [Borrow.endedIf, same]
  simp only [retire, found, active, if_true, consistent.remove_of_active found active, inHeld,
    consistent.modify_eq_map, changed]

theorem Consistent.retire_of_not_active {id : BorrowId} (point : Point)
    (ended : ∀ borrow, ledger.borrows[id]? = some borrow → borrow.isActive = false) :
    ledger.retire id point = ledger ∧
      ledger.borrows.map (Borrow.endedIf (fun borrow => borrow.id == id) point) =
        ledger.borrows := by
  constructor
  · cases found : ledger.borrows[id]? with
    | none => simp [retire, found]
    | some borrow => simp [retire, found, ended borrow found]
  · apply (List.map_congr_left ?_).trans (List.map_id _)
    intro borrow membership
    by_cases same : borrow.id = id
    · have found := consistent.getElem?_of_mem membership
      rw [same] at found
      simp [Borrow.endedIf, ended borrow found]
    · simp [Borrow.endedIf, same]

theorem Consistent.retire_borrows (id : BorrowId) (point : Point) :
    (ledger.retire id point).borrows =
      ledger.borrows.map (Borrow.endedIf (fun borrow => borrow.id == id) point) := by
  by_cases ends : ∃ borrow, ledger.borrows[id]? = some borrow ∧ borrow.isActive = true
  · rcases ends with ⟨borrow, found, active⟩
    rw [consistent.retire_of_active point found active]
  · have unchanged := consistent.retire_of_not_active point fun borrow found =>
      Bool.eq_false_iff.mpr fun active => ends ⟨borrow, found, active⟩
    rw [unchanged.1, unchanged.2]

theorem Consistent.pairwise_ids :
    ledger.borrows.Pairwise fun borrow other => borrow.id < other.id := by
  rw [List.pairwise_iff_getElem]
  intro first second firstBound secondBound less
  rw [consistent.ids first _ (List.getElem?_eq_getElem firstBound),
    consistent.ids second _ (List.getElem?_eq_getElem secondBound)]
  exact less

/-- Removing a borrow from the set of its referent is ending it in the list. -/
theorem Consistent.eraseP_setOf (id : BorrowId) (place : PlaceId) (point : Point) :
    ((ledger.setOf place).eraseP fun grant => grant.id == id) =
      ((ledger.borrows.map (Borrow.endedIf (fun borrow => borrow.id == id) point)).filter
        fun borrow => borrow.isActive && borrow.referent == place).map Borrow.grant := by
  have ordered := consistent.pairwise_ids.sublist
    (List.filter_sublist (p := fun borrow => borrow.isActive && borrow.referent == place))
  rw [consistent.sets, List.eraseP_map, Borrow.filter_map_endedIf]
  apply congrArg (List.map Borrow.grant)
  exact (Borrow.eraseP_eq_filter id ordered).trans List.filter_filter

/-- Ending a borrow leaves the sets of all other places as they are. -/
theorem Consistent.sets_of_ended {id : BorrowId} {borrow : Borrow} (point : Point)
    (found : ledger.borrows[id]? = some borrow) {place : PlaceId}
    (other : place ≠ borrow.referent) :
    ledger.setOf place =
      ((ledger.borrows.map (Borrow.endedIf (fun other => other.id == id) point)).filter
        fun borrow => borrow.isActive && borrow.referent == place).map Borrow.grant := by
  rw [Borrow.filter_map_endedIf]
  refine (consistent.sets place).trans (congrArg (List.map Borrow.grant) ?_)
  apply List.filter_congr
  intro listed membership
  by_cases same : listed.id = id
  · have listedFound := consistent.getElem?_of_mem membership
    rw [same, found, Option.some.injEq] at listedFound
    subst listedFound
    simp [Ne.symm other]
  · simp [same]

/-- A number is in the list of one holder only, so it is enough to erase it there. -/
theorem Consistent.mem_erase_heldIds {id index : BorrowId} {borrow : Borrow}
    (found : ledger.borrows[id]? = some borrow) (holder : PlaceId) :
    (index ∈ if holder = borrow.holder then (ledger.heldIds borrow.holder).erase id
        else ledger.heldIds holder) ↔ index ≠ id ∧ index ∈ ledger.heldIds holder := by
  split
  · next same =>
      rw [same]
      exact (consistent.nodup borrow.holder).mem_erase_iff
  · next different =>
      refine ⟨fun membership => ⟨?_, membership⟩, fun kept => kept.2⟩
      rintro rfl
      obtain ⟨other, otherFound, _, keeps⟩ := (consistent.held holder index).mp membership
      rw [found, Option.some.injEq] at otherFound
      subst otherFound
      exact different keeps.symm

theorem Consistent.held_of_ended (id index : BorrowId) (point : Point) (holder : PlaceId) :
    index ≠ id ∧ index ∈ ledger.heldIds holder ↔
      ∃ borrow, (ledger.borrows.map
          (Borrow.endedIf (fun borrow => borrow.id == id) point))[index]? = some borrow ∧
        borrow.isActive = true ∧ borrow.holder = holder := by
  rw [consistent.held]
  simp only [List.getElem?_map, Option.map_eq_some_iff]
  constructor
  · rintro ⟨otherId, old, found, active, keeps⟩
    have numbered := consistent.ids index old found
    refine ⟨old.endedIf _ point, ⟨old, found, rfl⟩, ?_, ?_⟩
    · rw [Borrow.isActive_endedIf]
      simp [active, numbered, otherId]
    · rw [Borrow.endedIf_holder]
      exact keeps
  · rintro ⟨_, ⟨old, found, rfl⟩, active, keeps⟩
    have numbered := consistent.ids index old found
    rw [Borrow.isActive_endedIf] at active
    rw [Borrow.endedIf_holder] at keeps
    simp only [Bool.and_eq_true, Bool.not_eq_true', beq_eq_false_iff_ne, numbered] at active
    exact ⟨active.2, old, found, active.1, keeps⟩

/-- Ending a borrow keeps the indexes in agreement with the list. -/
theorem Consistent.retire (id : BorrowId) (point : Point) :
    (ledger.retire id point).Consistent := by
  -- Only an active borrow is in the indexes, so only its end changes them.
  by_cases ends : ∃ borrow, ledger.borrows[id]? = some borrow ∧ borrow.isActive = true
  · obtain ⟨borrow, found, active⟩ := ends
    rw [consistent.retire_of_active point found active]
    refine ⟨consistent.ids_map (Borrow.endedIf_id _ _), ?_, ?_, ?_, ?_⟩
    · intro place
      rw [setOf_set]
      split
      · next same => rw [same, consistent.eraseP_setOf]
      · next other => exact consistent.sets_of_ended point found other
    · intro holder index
      rw [heldIds_set]
      exact (consistent.mem_erase_heldIds found holder).trans
        (consistent.held_of_ended id index point holder)
    · intro holder
      rw [heldIds_set]
      split
      · exact (consistent.nodup borrow.holder).erase id
      · exact consistent.nodup holder
    · intro place
      rw [setOf_set]
      split
      · exact BorrowSet.isValid_of_sublist List.eraseP_sublist (consistent.valid borrow.referent)
      · exact consistent.valid place
  · rw [(consistent.retire_of_not_active point fun borrow found =>
      Bool.eq_false_iff.mpr fun active => ends ⟨borrow, found, active⟩).1]
    exact consistent

/-- Ending several borrows keeps the indexes in agreement with the list. -/
theorem Consistent.retireAll (ids : List BorrowId) (point : Point) :
    (ledger.retireAll ids point).Consistent := by
  induction ids generalizing ledger with
  | nil => exact consistent
  | cons id rest inductionHypothesis => exact inductionHypothesis (consistent.retire id point)

theorem Consistent.retireAll_borrows (ids : List BorrowId) (point : Point) :
    (ledger.retireAll ids point).borrows =
      ledger.borrows.map (Borrow.endedIf (fun borrow => ids.contains borrow.id) point) := by
  induction ids generalizing ledger with
  | nil =>
      symm
      apply (List.map_congr_left ?_).trans (List.map_id _)
      intro borrow _
      simp [Borrow.endedIf]
  | cons id rest inductionHypothesis =>
      have later := inductionHypothesis (consistent.retire id point)
      rw [consistent.retire_borrows, List.map_map] at later
      refine later.trans (List.map_congr_left ?_)
      intro borrow _
      simp only [Function.comp_apply, Borrow.endedIf_endedIf, List.contains_cons]

theorem Consistent.retireHeldBy (holder : PlaceId) (point : Point) :
    (ledger.retireHeldBy holder point).Consistent :=
  consistent.retireAll (ledger.heldIds holder) point

theorem Consistent.retireHeldBy_borrows (holder : PlaceId) (point : Point) :
    (ledger.retireHeldBy holder point).borrows =
      ledger.borrows.map (Borrow.endedIf (fun borrow => borrow.holder == holder) point) := by
  refine (consistent.retireAll_borrows (ledger.heldIds holder) point).trans ?_
  apply List.map_congr_left
  intro borrow membership
  simp only [Borrow.endedIf, consistent.contains_heldIds membership]
  cases borrow.isActive <;> simp

end Retire

theorem mem_heldIds_of_passedOn (borrows : List Borrow) (ledger : Ledger) {source dest : PlaceId}
    (different : source ≠ dest) (holder : PlaceId) (index : BorrowId) :
    index ∈ heldIds ⟨borrows, ledger.sets, (ledger.held.set source []).set dest
        (ledger.heldIds dest ++ ledger.heldIds source)⟩ holder ↔
      (holder = dest ∧ index ∈ ledger.heldIds source) ∨
        (holder ≠ source ∧ index ∈ ledger.heldIds holder) := by
  rw [heldIds_set, heldIds_set]
  by_cases isDest : holder = dest
  · simp [isDest, Ne.symm different, or_comm]
  · by_cases isSource : holder = source
    · simp [isSource, different]
    · rw [if_neg isDest, if_neg isSource]
      simp only [isDest, isSource, false_and, false_or, not_false_eq_true, true_and, ne_eq]
      rfl

section Change

variable {ledger : Ledger} (consistent : ledger.Consistent)

/-- The active borrows of a place, after a change that keeps which ones these are. -/
theorem filter_map_of_same {change : Borrow → Borrow} {borrows : List Borrow}
    (same : ∀ borrow ∈ borrows, (change borrow).grant = borrow.grant ∧
      (change borrow).isActive = borrow.isActive ∧ (change borrow).referent = borrow.referent)
    (place : PlaceId) :
    ((borrows.map change).filter fun borrow =>
        borrow.isActive && borrow.referent == place).map Borrow.grant =
      (borrows.filter fun borrow =>
        borrow.isActive && borrow.referent == place).map Borrow.grant := by
  rw [List.filter_map, List.map_map]
  have chosen : (borrows.filter ((fun borrow => borrow.isActive && borrow.referent == place) ∘
      change)) = borrows.filter fun borrow => borrow.isActive && borrow.referent == place := by
    apply List.filter_congr
    intro borrow membership
    simp only [Function.comp_apply, (same borrow membership).2.1, (same borrow membership).2.2]
  rw [chosen]
  apply List.map_congr_left
  intro borrow membership
  exact (same borrow (List.mem_filter.mp membership).1).1

include consistent

theorem Consistent.markDangling_borrows (id : BorrowId) :
    (ledger.markDangling id).borrows = ledger.borrows.map (Borrow.markedIf (some id)) := by
  refine (consistent.modify_eq_map id fun borrow => { borrow with dangling := true }).trans ?_
  apply List.map_congr_left
  intro borrow _
  simp only [Borrow.markedIf, Option.some.injEq, eq_comm]

/-- A mark changes nothing that the indexes tell. -/
theorem Consistent.markDangling (id : BorrowId) : (ledger.markDangling id).Consistent := by
  have marked := consistent.markDangling_borrows id
  refine ⟨?_, ?_, ?_, consistent.nodup, consistent.valid⟩
  · rw [marked]
    exact consistent.ids_map (Borrow.markedIf_id _)
  · intro place
    rw [marked]
    refine (consistent.sets place).trans (filter_map_of_same ?_ place).symm
    intro borrow _
    unfold Borrow.markedIf
    split <;> exact ⟨rfl, rfl, rfl⟩
  · intro holder index
    rw [marked]
    refine (consistent.held holder index).trans ?_
    simp only [List.getElem?_map, Option.map_eq_some_iff]
    constructor
    · rintro ⟨borrow, found, active, keeps⟩
      exact ⟨_, ⟨borrow, found, rfl⟩, by simpa using active, by simpa using keeps⟩
    · rintro ⟨_, ⟨borrow, found, rfl⟩, active, keeps⟩
      exact ⟨borrow, found, by simpa using active, by simpa using keeps⟩

/-- Passing borrows on is a change of their holders. -/
theorem Consistent.transfer_of_ne (tree : ScopeTree) {source dest : PlaceId}
    (different : source ≠ dest) :
    ledger.transfer tree source dest =
      { borrows := ledger.borrows.map (Borrow.passedOn tree source dest)
        sets := ledger.sets
        held := (ledger.held.set source []).set dest
          (ledger.heldIds dest ++ ledger.heldIds source) } := by
  have changed : (ledger.borrows.map fun borrow =>
      if (ledger.heldIds source).contains borrow.id then
        { borrow with holder := dest, holderScope := tree.scopeOf dest }
      else borrow) = ledger.borrows.map (Borrow.passedOn tree source dest) := by
    apply List.map_congr_left
    intro borrow membership
    rw [consistent.contains_heldIds membership]
    rfl
  have destKeeps : (ledger.release source).heldIds dest = ledger.heldIds dest := by
    simp [heldIds, release, Ne.symm different]
  simp only [transfer, if_neg different, changed, destKeeps]
  rfl

theorem Consistent.held_of_passedOn (tree : ScopeTree) (source dest holder : PlaceId)
    (index : BorrowId) :
    (holder = dest ∧ index ∈ ledger.heldIds source) ∨
        (holder ≠ source ∧ index ∈ ledger.heldIds holder) ↔
      ∃ borrow, (ledger.borrows.map (Borrow.passedOn tree source dest))[index]? = some borrow ∧
        borrow.isActive = true ∧ borrow.holder = holder := by
  rw [consistent.held, consistent.held]
  simp only [List.getElem?_map, Option.map_eq_some_iff]
  constructor
  · rintro (⟨rfl, borrow, found, active, keeps⟩ | ⟨notSource, borrow, found, active, keeps⟩)
    · have moved : borrow.passedOn tree source holder =
          { borrow with holder, holderScope := tree.scopeOf holder } := by
        simp [Borrow.passedOn, active, keeps]
      exact ⟨_, ⟨borrow, found, moved⟩, active, rfl⟩
    · have stays : borrow.passedOn tree source dest = borrow := by
        simp [Borrow.passedOn, keeps, notSource]
      exact ⟨_, ⟨borrow, found, stays⟩, active, keeps⟩
  · rintro ⟨_, ⟨borrow, found, rfl⟩, active, keeps⟩
    unfold Borrow.passedOn at active keeps
    split at keeps
    · next moved =>
        simp only [Bool.and_eq_true, beq_iff_eq] at moved
        exact .inl ⟨keeps.symm, borrow, found, moved⟩
    · next stays =>
        rw [if_neg stays] at active
        refine .inr ⟨?_, borrow, found, active, keeps⟩
        rintro rfl
        simp [active, keeps] at stays

/-- Two places keep no borrow in common. -/
theorem Consistent.disjoint_heldIds {source dest : PlaceId} (different : source ≠ dest)
    {index : BorrowId} (inDest : index ∈ ledger.heldIds dest) : index ∉ ledger.heldIds source := by
  intro inSource
  obtain ⟨borrow, found, _, keptByDest⟩ := (consistent.held dest index).mp inDest
  obtain ⟨other, otherFound, _, keptBySource⟩ := (consistent.held source index).mp inSource
  rw [found, Option.some.injEq] at otherFound
  subst otherFound
  exact different (keptBySource.symm.trans keptByDest)

theorem Consistent.transfer (tree : ScopeTree) (source dest : PlaceId) :
    (ledger.transfer tree source dest).Consistent := by
  by_cases different : source = dest
  · simp only [Ledger.transfer, if_pos different]
    exact consistent
  rw [consistent.transfer_of_ne tree different]
  refine ⟨consistent.ids_map (Borrow.passedOn_id tree source dest), ?_, ?_, ?_, consistent.valid⟩
  · intro place
    refine (consistent.sets place).trans (filter_map_of_same ?_ place).symm
    intro borrow _
    unfold Borrow.passedOn
    split <;> exact ⟨rfl, rfl, rfl⟩
  · intro holder index
    exact (mem_heldIds_of_passedOn _ ledger different holder index).trans
      (consistent.held_of_passedOn tree source dest holder index)
  · intro holder
    rw [heldIds_set, heldIds_set]
    split
    · rw [List.nodup_append]
      refine ⟨consistent.nodup dest, consistent.nodup source, ?_⟩
      rintro index inDest _ inSource rfl
      exact consistent.disjoint_heldIds different inDest inSource
    · split
      · exact List.nodup_nil
      · exact consistent.nodup holder

theorem Consistent.transfer_borrows (tree : ScopeTree) {source dest : PlaceId}
    (different : source ≠ dest) :
    (ledger.transfer tree source dest).borrows =
      ledger.borrows.map (Borrow.passedOn tree source dest) := by
  rw [consistent.transfer_of_ne tree different]

/-- A borrow that meets no conflict is entered. -/
theorem Consistent.lend_of_conflict?_eq_none (tree : ScopeTree) {referent : PlaceId}
    {kind : BorrowKind} (holder : PlaceId) (point : Point) (origin : Span)
    (admitted : ledger.conflict? referent kind = none) :
    ledger.lend tree referent kind holder point origin =
      { borrows := ledger.borrows ++
          [{ id := ledger.borrows.length, referent, kind, created := point, holder,
             holderScope := tree.scopeOf holder, origin }]
        sets := ledger.sets.set referent
          (ledger.setOf referent ++ [⟨ledger.borrows.length, kind⟩])
        held := ledger.held.set holder
          (ledger.heldIds holder ++ [ledger.borrows.length]) } := by
  have free := (consistent.conflict?_eq_none_iff_setOf referent kind).mp admitted
  have added := BorrowSet.add_of_conflict?_eq_none (ledger.setOf referent)
    ⟨ledger.borrows.length, kind⟩ free
  simp only [lend, Borrow.grant, added]

theorem Consistent.held_of_concat {new : Borrow} (active : new.isActive = true) (place : PlaceId)
    (index : BorrowId) :
    (index ∈ if place = new.holder then ledger.heldIds new.holder ++ [ledger.borrows.length]
        else ledger.heldIds place) ↔
      ∃ borrow, (ledger.borrows ++ [new])[index]? = some borrow ∧ borrow.isActive = true ∧
        borrow.holder = place := by
  have kept : (index ∈ if place = new.holder then
        ledger.heldIds new.holder ++ [ledger.borrows.length] else ledger.heldIds place) ↔
      index ∈ ledger.heldIds place ∨ (index = ledger.borrows.length ∧ place = new.holder) := by
    by_cases same : place = new.holder
    · simp [same]
    · simp [same]
  refine kept.trans ?_
  rw [consistent.held]
  simp only [getElem?_concat_eq_some_iff]
  constructor
  · rintro (⟨borrow, found, keeps⟩ | ⟨last, rfl⟩)
    · exact ⟨borrow, .inl found, keeps⟩
    · exact ⟨new, .inr ⟨last, rfl⟩, active, rfl⟩
  · rintro ⟨borrow, found | ⟨last, rfl⟩, isActive, keeps⟩
    · exact .inl ⟨borrow, found, isActive, keeps⟩
    · exact .inr ⟨last, keeps.symm⟩

theorem Consistent.lend (tree : ScopeTree) {referent : PlaceId} {kind : BorrowKind}
    (holder : PlaceId) (point : Point) (origin : Span)
    (admitted : ledger.conflict? referent kind = none) :
    (ledger.lend tree referent kind holder point origin).Consistent := by
  have free := (consistent.conflict?_eq_none_iff_setOf referent kind).mp admitted
  rw [consistent.lend_of_conflict?_eq_none tree holder point origin admitted]
  refine ⟨?_, ?_, ?_, ?_, ?_⟩
  · intro index borrow found
    rcases getElem?_concat_eq_some_iff.mp found with old | ⟨last, rfl⟩
    · exact consistent.ids index borrow old
    · exact last.symm
  · intro place
    rw [setOf_set, List.filter_append, List.map_append]
    split
    · next same =>
        rw [← same, consistent.sets]
        simp [Borrow.isActive, Borrow.grant, same]
    · next other =>
        refine (consistent.sets place).trans ?_
        simp [Ne.symm other]
  · intro place index
    rw [heldIds_set]
    let new : Borrow :=
      { id := ledger.borrows.length, referent, kind, created := point, holder,
        holderScope := tree.scopeOf holder, origin }
    have active : new.isActive = true := rfl
    exact consistent.held_of_concat active place index
  · intro place
    rw [heldIds_set]
    split
    · rw [List.nodup_append]
      refine ⟨consistent.nodup holder, by simp, ?_⟩
      rintro index old _ new rfl
      rcases (consistent.held holder index).mp old with ⟨borrow, found, _⟩
      rw [List.mem_singleton.mp new, List.getElem?_eq_none (Nat.le_refl _)] at found
      cases found
    · exact consistent.nodup place
  · intro place
    rw [setOf_set]
    split
    · exact BorrowSet.isValid_concat _ ⟨ledger.borrows.length, kind⟩ free
    · exact consistent.valid place

end Change

end Ledger

end LoanCheck
