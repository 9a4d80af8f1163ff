import LoanCheck.Proofs.Check.Holders
import LoanCheck.Proofs.Check.Reports
import LoanCheck.Proofs.Scope.Declared
import Mathlib.Data.List.Nodup

/-!
# The live places are the ones that can be named

`ScopeTree.InForce` says of the finished tree which places can be named after a statement:
those declared by then whose scope is still open, and of each name the last one in its
scope.  The analysis keeps its records in another pass; yet the places with a record that
are not dropped are exactly these, and a place that was dropped stays so.
-/

namespace LoanCheck

/-- A place that can be named after the statement at a point: it has been declared, its scope is
open, and no place of the same name was declared later in that scope. -/
def ScopeTree.InForce (tree : ScopeTree) (point : Point) (place : PlaceId) : Prop :=
  ∃ found, tree.places[place]? = some found ∧ found.point ≤ point ∧
    tree.OpenAfter point found.scope ∧
    ∀ (other : PlaceId) (later : Place), tree.places[other]? = some later →
      later.scope = found.scope → later.key = found.key → later.point ≤ point →
        later.point ≤ found.point

namespace CodeUnit

variable {unit : CodeUnit} {tree : ScopeTree} {point : Point} {builder : Builder}
  (built : unit.scopeTree = .ok tree)

include built

/-- What can be named after a statement is what the tree says. -/
theorem live_iff_inForce (inside : point < unit.statements.length)
    (reached : unit.builderAt (point + 1) = .ok builder) (place : PlaceId) :
    builder.Live place ↔ tree.InForce point place := by
  obtain ⟨_, _, again, _, leads⟩ := leads_builderAt built inside
  cases again.symm.trans reached
  have wellFormed := leads.wellFormed
  have indexed := indexed_builderAt inside reached
  constructor
  · intro live
    obtain ⟨declared, known, _, named⟩ := wellFormed.declared_of_live live
    obtain ⟨found, listed, rfl⟩ := Option.map_eq_some_iff.mp (leads.declared known)
    have isOpen := leads.openAfter live
    rw [leads.scopeOf_eq known] at isOpen
    have early : found.point < point + 1 := wellFormed.earlier place found.declaration known
    refine ⟨found, listed, Nat.le_of_lt_succ early, isOpen, ?_⟩
    intro other later alsoListed sameScope sameKey alsoEarly
    have alsoKnown := declared_of_point_lt built inside reached alsoListed
      (Nat.lt_succ_of_le alsoEarly)
    obtain ⟨last, alsoNamed, notLater⟩ := indexed.latest found.key found.scope other
      ⟨_, alsoKnown, sameScope, sameKey⟩
    cases named.symm.trans alsoNamed
    rcases Nat.lt_or_eq_of_le notLater with lower | rfl
    · have order := declared_in_order inside reached alsoKnown known lower
      exact Nat.le_of_lt order
    · cases listed.symm.trans alsoListed
      exact Nat.le_refl _
  · rintro ⟨found, listed, early, isOpen, isLast⟩
    have known := declared_of_point_lt built inside reached listed (Nat.lt_succ_of_le early)
    have keyed : builder.KeyedIn found.key found.scope place := ⟨_, known, rfl, rfl⟩
    obtain ⟨last, named, notLater⟩ := indexed.latest found.key found.scope place keyed
    obtain ⟨declared, lastKnown, sameScope, sameKey⟩ := wellFormed.named _ _ _ named
    obtain ⟨later, lastListed, rfl⟩ := Option.map_eq_some_iff.mp (leads.declared lastKnown)
    have lastEarly : later.point < point + 1 :=
      wellFormed.earlier last later.declaration lastKnown
    have notAfter := isLast last later lastListed sameScope sameKey
      (Nat.le_of_lt_succ lastEarly)
    have same : place = last := by
      rcases Nat.lt_or_eq_of_le notLater with lower | same
      · have order := declared_in_order inside reached known lastKnown lower
        exact absurd order (Nat.not_lt.mpr notAfter)
      · exact same
    subst same
    rcases wellFormed.open_or_ended keyed with stillOpen | ⟨stop, ended⟩
    · exact ⟨found.scope, stillOpen, found.key, named⟩
    · obtain ⟨_, _, _, before⟩ := isOpen
      rw [leads.exitPoint_of_ended ended] at before
      exact absurd (wellFormed.lt_of_endOf? ended) (Nat.not_lt.mpr before)

end CodeUnit

namespace Ownership

/-- A place has been met. -/
def Has (ownership : Ownership) (place : PlaceId) : Prop :=
  (ownership.get? place).isSome = true

theorem stateOf_of_not_has {ownership : Ownership} {place : PlaceId}
    (absent : ¬ownership.Has place) (tree : ScopeTree) :
    ownership.stateOf tree place = .uninitialized := by
  rw [Has, Bool.not_eq_true, Option.isSome_eq_false_iff, Option.isNone_iff_eq_none] at absent
  rw [stateOf, record, absent]
  exact freshRecord_state tree place

variable (tree : ScopeTree) (ownership : Ownership) (place other : PlaceId)

theorem has_set (record : OwnershipRecord) :
    Has (Table.set ownership place record) other ↔ other = place ∨ ownership.Has other := by
  rw [Has, Table.get?_set]
  split
  · next same => simp [same]
  · next different => simp [different, Has]

@[simp]
theorem has_fill : (ownership.fill tree place).Has other ↔ other = place ∨ ownership.Has other :=
  has_set ownership place other _

@[simp]
theorem has_drop : (ownership.drop tree place).Has other ↔ other = place ∨ ownership.Has other :=
  has_set ownership place other _

@[simp]
theorem has_declare :
    (ownership.declare tree place).Has other ↔ other = place ∨ ownership.Has other :=
  has_set ownership place other _

@[simp]
theorem has_rebind (mutable copy : Flag) :
    (ownership.rebind place mutable copy).Has other ↔ other = place ∨ ownership.Has other :=
  has_set ownership place other _

theorem has_foldl_drop (places : List PlaceId) (ownership : Ownership) :
    Has (places.foldl (fun later place => later.drop tree place) ownership) place ↔
      place ∈ places ∨ ownership.Has place := by
  induction places generalizing ownership with
  | nil => simp
  | cons first rest inductionHypothesis =>
      rw [List.foldl_cons, inductionHypothesis, has_drop, List.mem_cons]
      tauto

section Statements

variable {tree} {ownership} {place}

theorem has_taken_cases {source : Use} (has : (ownership.taken tree source).Has place) :
    ownership.Has place ∨ (source.escaped = false ∧ source.place = place) := by
  cases escaped : source.escaped with
  | true =>
      rw [taken_of_escaped tree escaped] at has
      exact .inl has
  | false =>
      rw [taken_of_inside tree escaped] at has
      simp only [moveOut] at has
      split at has
      · exact .inl has
      · rcases (has_set ownership source.place place _).mp has with same | old
        · exact .inr ⟨rfl, same.symm⟩
        · exact .inl old

theorem has_declareOver {fresh : PlaceId} {shadowed : Option PlaceId} :
    (ownership.declareOver tree fresh shadowed).Has place ↔
      place = fresh ∨ shadowed = some place ∨ ownership.Has place := by
  cases shadowed with
  | none => simp [declareOver]
  | some old => simp [declareOver, eq_comm]

theorem has_makeRoom_cases {target : Target} (has : (ownership.makeRoom tree target).Has place) :
    target.place = place ∨ target.shadowed? = some place ∨ ownership.Has place := by
  cases target with
  | existing kept => exact .inr (.inr has)
  | fresh new shadowed rebinds =>
      rcases has_declareOver.mp has with same | hidden | old
      · exact .inl same.symm
      · exact .inr (.inl hidden)
      · exact .inr (.inr old)

/-- The places that a statement may be the first to meet. -/
theorem has_after_cases {effect : Effect} (has : (ownership.after tree effect).Has place) :
    ownership.Has place ∨
      (∃ target, effect.target? = some target ∧
        (target.place = place ∨ target.shadowed? = some place)) ∨
      (∃ source, effect.takes? = some source ∧ source.escaped = false ∧ source.place = place) ∨
      ∃ scope, effect.closes? = some scope ∧ place ∈ tree.placesOf scope := by
  have room : ∀ {prior : Ownership} {target : Target},
      (prior.makeRoom tree target).Has place ∨ place = target.place →
        prior.Has place ∨ target.place = place ∨ target.shadowed? = some place := by
    rintro prior target (made | same)
    · rcases has_makeRoom_cases made with isTarget | hidden | old
      · exact .inr (.inl isTarget)
      · exact .inr (.inr hidden)
      · exact .inl old
    · exact .inr (.inl same.symm)
  cases effect with
  | enter | write | read => exact .inl has
  | exit scope =>
      rw [after, leave, has_foldl_drop, List.mem_reverse] at has
      rcases has with remains | old
      · exact .inr (.inr (.inr ⟨scope, rfl, (List.mem_filter.mp remains).1⟩))
      · exact .inl old
  | bind target source mutable copy =>
      rw [after, has_rebind, or_comm] at has
      rcases room has with old | given
      · cases source with
        | none => exact .inl old
        | some use =>
            rcases has_taken_cases old with older | ⟨inside, same⟩
            · exact .inl older
            · exact .inr (.inr (.inl ⟨use, rfl, inside, same⟩))
      · exact .inr (.inl ⟨target, rfl, given⟩)
  | declare target =>
      rcases has_declareOver.mp has with same | hidden | old
      · exact .inr (.inl ⟨target, rfl, .inl same.symm⟩)
      · exact .inr (.inl ⟨target, rfl, .inr hidden⟩)
      · exact .inl old
  | move target source =>
      rw [after, has_fill, or_comm] at has
      rcases room has with old | given
      · rcases has_taken_cases old with older | ⟨inside, same⟩
        · exact .inl older
        · exact .inr (.inr (.inl ⟨source, rfl, inside, same⟩))
      · exact .inr (.inl ⟨target, rfl, given⟩)
  | borrow kind target source =>
      rw [after, has_fill, or_comm] at has
      rcases room has with old | given
      · exact .inl old
      · exact .inr (.inl ⟨target, rfl, given⟩)
  | consume source =>
      rcases has_taken_cases has with older | ⟨inside, same⟩
      · exact .inl older
      · exact .inr (.inr (.inl ⟨source, rfl, inside, same⟩))

/-- A statement only sets records. -/
theorem after_of_set {motive : Ownership → Prop}
    (sets : ∀ {prior : Ownership} (place : PlaceId) (record : OwnershipRecord), motive prior →
      motive (Table.set prior place record)) (effect : Effect) (holds : motive ownership) :
    motive (ownership.after tree effect) := by
  have taken : ∀ {prior : Ownership} (source : Use), motive prior →
      motive (prior.taken tree source) := by
    intro prior source before
    unfold Ownership.taken
    split
    · exact before
    · simp only [moveOut]
      split
      · exact before
      · exact sets _ _ before
  have declared : ∀ {prior : Ownership} (fresh : PlaceId) (shadowed : Option PlaceId),
      motive prior → motive (prior.declareOver tree fresh shadowed) := by
    intro prior fresh shadowed before
    cases shadowed with
    | none => exact sets _ _ before
    | some old => exact sets _ _ (sets _ _ before)
  have room : ∀ {prior : Ownership} (target : Target), motive prior →
      motive (prior.makeRoom tree target) := by
    intro prior target before
    cases target with
    | existing kept => exact before
    | fresh new shadowed rebinds => exact declared new shadowed before
  cases effect with
  | enter | write | read => exact holds
  | exit scope =>
      rw [after, leave]
      generalize (ownership.remaining tree scope).reverse = places
      induction places generalizing ownership with
      | nil => exact holds
      | cons first rest inductionHypothesis => exact inductionHypothesis (sets _ _ holds)
  | bind target source mutable copy =>
      refine sets _ _ (room target ?_)
      cases source with
      | none => exact holds
      | some use => exact taken use holds
  | declare target => exact declared _ _ holds
  | move target source => exact sets _ _ (room target (taken source holds))
  | borrow kind target source => exact sets _ _ (room target holds)
  | consume source => exact taken source holds

theorem Has.after (has : ownership.Has place) (effect : Effect) :
    (ownership.after tree effect).Has place := by
  refine after_of_set (motive := fun later => later.Has place) ?_ effect has
  intro prior met record before
  exact (has_set prior met place record).mpr (.inr before)

theorem has_target {effect : Effect} {target : Target} (given : effect.target? = some target) :
    (ownership.after tree effect).Has target.place := by
  cases effect with
  | bind goal source mutable copy =>
      cases given
      rw [Ownership.after, has_rebind]
      exact .inl rfl
  | declare goal =>
      cases given
      exact has_declareOver.mpr (.inl rfl)
  | move goal source =>
      cases given
      rw [Ownership.after, has_fill]
      exact .inl rfl
  | borrow kind goal source =>
      cases given
      rw [Ownership.after, has_fill]
      exact .inl rfl
  | _ => cases given

end Statements

/-- Every place has at most one record. -/
def Distinct (ownership : Ownership) : Prop := (ownership.map Prod.fst).Nodup

theorem map_fst_set :
    ∀ (table : Ownership) (place : PlaceId) (record : OwnershipRecord),
      (Table.set table place record).map Prod.fst =
        if place ∈ table.map Prod.fst then table.map Prod.fst
        else table.map Prod.fst ++ [place]
  | [], place, record => by simp [Table.set]
  | (first, old) :: rest, place, record => by
      by_cases same : first = place
      · simp [Table.set, same]
      · simp only [Table.set, if_neg same, List.map_cons, map_fst_set rest place record,
          List.mem_cons, Ne.symm same, false_or]
        split <;> simp

theorem Distinct.set {ownership : Ownership} (distinct : ownership.Distinct) (place : PlaceId)
    (record : OwnershipRecord) : Distinct (Table.set ownership place record) := by
  rw [Distinct, map_fst_set]
  split
  · exact distinct
  · next absent =>
      rw [← List.concat_eq_append]
      exact List.Nodup.concat absent distinct

theorem Distinct.get?_eq_some_iff {ownership : Ownership} (distinct : ownership.Distinct)
    {place : PlaceId} {record : OwnershipRecord} :
    ownership.get? place = some record ↔ (place, record) ∈ ownership := by
  induction ownership with
  | nil => simp [Table.get?]
  | cons entry rest inductionHypothesis =>
      obtain ⟨first, held⟩ := entry
      obtain ⟨absent, distinct⟩ := List.nodup_cons.mp distinct
      by_cases same : place = first
      · subst same
        have elsewhere : (place, record) ∉ rest := fun member =>
          absent (List.mem_map.mpr ⟨_, member, rfl⟩)
        simp [Table.get?, elsewhere, eq_comm]
      · simp [Table.get?, same, inductionHypothesis distinct]

theorem map_fst_live (ownership : Ownership) :
    (ownership.live.map Prod.fst).Sublist (ownership.map Prod.fst) := by
  induction ownership with
  | nil => exact List.Sublist.slnil
  | cons entry rest inductionHypothesis =>
      by_cases gone : entry.2.state = .dropped
      · have skipped : live (entry :: rest) = live rest := by simp [live, gone]
        rw [skipped]
        exact inductionHypothesis.cons entry.1
      · have listed : live (entry :: rest) = (entry.1, entry.2.state) :: live rest := by
          simp [live, gone]
        rw [listed]
        exact inductionHypothesis.cons_cons entry.1

theorem Distinct.mem_live_iff {ownership : Ownership} (distinct : ownership.Distinct)
    (tree : ScopeTree) {place : PlaceId} {held : OwnershipState} :
    (place, held) ∈ ownership.live ↔
      ownership.Has place ∧ ownership.stateOf tree place = held ∧ held ≠ .dropped := by
  have listed : (place, held) ∈ ownership.live ↔
      ∃ record, (place, record) ∈ ownership ∧ record.state = held ∧ held ≠ .dropped := by
    simp only [live, List.mem_filterMap, Prod.exists, Option.ite_none_left_eq_some,
      Option.some.injEq, Prod.mk.injEq]
    constructor
    · rintro ⟨_, record, member, there, rfl, rfl⟩
      exact ⟨record, member, rfl, there⟩
    · rintro ⟨record, member, rfl, there⟩
      exact ⟨place, record, member, there, rfl, rfl⟩
  rw [listed]
  simp only [← distinct.get?_eq_some_iff, Has, stateOf, record]
  cases ownership.get? place with
  | none => simp
  | some found => simp

end Ownership

/-- The name of a place with its number. -/
def ScopeTree.label (tree : ScopeTree) (place : PlaceId) : String :=
  let name := (tree.name place).display
  s!"{name}#{place}"

/-- The number is what follows the last mark, since numbers are written in digits. -/
theorem takeWhile_reverse_label (text : List Char) (number : Nat) :
    (text ++ '#' :: Nat.toDigits 10 number).reverse.takeWhile Char.isDigit =
      (Nat.toDigits 10 number).reverse := by
  have digits : ∀ char ∈ (Nat.toDigits 10 number).reverse, char.isDigit = true := by
    intro char member
    exact Nat.isDigit_of_mem_toDigits (by decide) (by decide) (List.mem_reverse.mp member)
  rw [List.reverse_append, List.reverse_cons, List.append_assoc,
    List.takeWhile_append_of_pos digits]
  simp

theorem ScopeTree.label_injective (tree : ScopeTree) : Function.Injective tree.label := by
  intro first second same
  have split : ∀ place, (tree.label place).toList =
      (tree.name place).display.toList ++ '#' :: Nat.toDigits 10 place := by
    intro place
    simp only [label, String.toList_append, Nat.toString_eq_ofList_toDigits,
      String.toList_ofList, List.append_assoc]
    rfl
  have letters := congrArg String.toList same
  rw [split, split] at letters
  have digits := congrArg (fun list => list.reverse.takeWhile Char.isDigit) letters
  simp only [takeWhile_reverse_label, List.reverse_inj] at digits
  rw [← Nat.ofDigitChars_ten_toDigits (n := first), digits, Nat.ofDigitChars_ten_toDigits]

/-- The places with a record are declared; those of them that cannot be named are dropped. -/
structure Ownership.Mirrors (tree : ScopeTree) (builder : Builder) (ownership : Ownership) :
    Prop where
  distinct : ownership.Distinct
  has : ∀ place, builder.Live place → ownership.Has place
  declared : ∀ place, ownership.Has place → ∃ found, builder.declared? place = some found
  gone : ∀ place, ownership.Has place → ¬builder.Live place →
    ownership.stateOf tree place = .dropped

namespace CodeUnit

variable {unit : CodeUnit} {tree : ScopeTree} {point : Point} {statement : Statement}
  {before after : Builder} {resolution : Resolution} {rest : List Resolution}
  (passage : Passage unit tree point statement before resolution after rest)

include passage

theorem Passage.shadowed_live {target : Target} {place : PlaceId}
    (given : resolution.effect.target? = some target)
    (shadowed : target.shadowed? = some place) : before.Live place := by
  cases target with
  | existing kept => cases shadowed
  | fresh new hidden rebinds =>
      cases shadowed
      exact passage.crossing.transition.shadowed_live new place rebinds given

/-- All places of a scope are declared when it ends. -/
theorem Passage.declared_of_closes (built : unit.scopeTree = .ok tree) {scope : ScopeId}
    {place : PlaceId} (closes : resolution.effect.closes? = some scope)
    (listed : place ∈ tree.placesOf scope) : ∃ found, before.declared? place = some found := by
  obtain ⟨found, entry, rfl⟩ := passage.crossing.leads_before.exists_of_mem_placesOf listed
  have early := point_lt_exitPoint built entry
  have ended := (passage.crossing.transition.closes found.scope closes).2
  rw [passage.crossing.leads_after.exitPoint_of_ended ended] at early
  have inside := Nat.le_of_lt (List.getElem?_eq_some_iff.mp passage.listed).1
  exact ⟨_, declared_of_point_lt built inside passage.reached entry early⟩

/-- A place that cannot be named any more is not named again. -/
theorem Passage.not_live_after {place : PlaceId} {found : Place}
    (known : before.declared? place = some found) (hidden : ¬before.Live place) :
    ¬after.Live place := by
  intro live
  rcases passage.crossing.transition.live_before place live with
    ⟨old, _⟩ | ⟨shadowed, rebinds, fresh⟩
  · exact hidden old
  · rw [(passage.crossing.transition.fresh place shadowed rebinds fresh).1] at known
    cases known

/-- A place that stops being named is dropped. -/
theorem Passage.dropped_of_live {place : PlaceId} (live : before.Live place)
    (hidden : ¬after.Live place) (ownership : Ownership) :
    (ownership.after tree resolution.effect).stateOf tree place = .dropped := by
  have transition := passage.crossing.transition
  have leads := passage.crossing.leads_before
  rcases transition.live_after place live with
    stays | ⟨target, given, shadowed⟩ | ⟨scope, closes, listed⟩
  · exact absurd stays hidden
  · apply Ownership.stateOf_after_hidden tree given shadowed
    rintro rfl
    exact hidden (transition.target_live target given)
  · apply Ownership.stateOf_after_closed tree closes
    obtain ⟨found, known, inScope⟩ := (leads.wellFormed.listed scope place).mp listed
    exact (leads.mem_placesOf_iff known).mpr inScope

/-- A place that cannot be named and has a record is dropped. -/
theorem Passage.dropped_after {ownership : Ownership} (mirrors : ownership.Mirrors tree before)
    {place : PlaceId} (has : (ownership.after tree resolution.effect).Has place)
    (hidden : ¬after.Live place) :
    (ownership.after tree resolution.effect).stateOf tree place = .dropped := by
  have transition := passage.crossing.transition
  by_cases live : before.Live place
  · exact passage.dropped_of_live live hidden ownership
  · rcases Ownership.has_after_cases has with old | ⟨target, given, isTarget | shadowed⟩ |
      ⟨source, takes, inside, rfl⟩ | ⟨scope, closes, listed⟩
    · have gone := mirrors.gone place old live
      have changed := Ownership.changed_after tree resolution.effect ownership place
      generalize (ownership.after tree resolution.effect).stateOf tree place = later at changed ⊢
      cases changed with
      | given gives same => exact absurd (same ▸ transition.target_live _ gives) hidden
      | declared declares same =>
          have gives := congrArg Effect.target? declares
          exact absurd (same ▸ transition.target_live _ gives) hidden
      | hidden | closed => rfl
      | taken takes same inside moves =>
          have named := transition.source_live _ (Effect.source?_of_takes? takes) inside
          exact absurd (same ▸ named) live
      | kept other => exact gone
    · exact absurd (isTarget ▸ transition.target_live target given) hidden
    · exact absurd (passage.shadowed_live given shadowed) live
    · exact absurd (transition.source_live source (Effect.source?_of_takes? takes) inside) live
    · exact Ownership.stateOf_after_closed tree closes listed

theorem Passage.mirrors_after (built : unit.scopeTree = .ok tree) {ownership : Ownership}
    (mirrors : ownership.Mirrors tree before) :
    (ownership.after tree resolution.effect).Mirrors tree after := by
  have transition := passage.crossing.transition
  have wellFormed := passage.crossing.leads_before.wellFormed
  have stillDeclared : ∀ {place}, before.Live place →
      ∃ found, after.declared? place = some found := by
    intro place live
    obtain ⟨found, known, _⟩ := wellFormed.declared_of_live live
    exact ⟨found, transition.declarations place found known⟩
  refine ⟨?_, ?_, ?_, fun place has hidden => passage.dropped_after mirrors has hidden⟩
  · refine Ownership.after_of_set (motive := Ownership.Distinct) ?_ _ mirrors.distinct
    intro prior place record distinct
    exact distinct.set place record
  · intro place live
    rcases transition.live_before place live with ⟨old, _⟩ | ⟨shadowed, rebinds, fresh⟩
    · exact (mirrors.has place old).after _
    · exact Ownership.has_target fresh
  · intro place has
    rcases Ownership.has_after_cases has with old | ⟨target, given, isTarget | shadowed⟩ |
      ⟨source, takes, inside, rfl⟩ | ⟨scope, closes, listed⟩
    · obtain ⟨found, known⟩ := mirrors.declared place old
      exact ⟨found, transition.declarations place found known⟩
    · obtain ⟨found, known, _⟩ := passage.crossing.leads_after.wellFormed.declared_of_live
        (transition.target_live target given)
      exact ⟨found, isTarget ▸ known⟩
    · exact stillDeclared (passage.shadowed_live given shadowed)
    · exact stillDeclared (transition.source_live source (Effect.source?_of_takes? takes) inside)
    · obtain ⟨found, known⟩ := passage.declared_of_closes built closes listed
      exact ⟨found, transition.declarations place found known⟩

end CodeUnit

namespace CodeUnit

variable {unit : CodeUnit} {tree : ScopeTree} (built : unit.scopeTree = .ok tree)
  (config : Config)

include built

theorem mirrors_builderAt {point : Point} {builder : Builder}
    (inside : point ≤ unit.statements.length) (reached : unit.builderAt point = .ok builder) :
    ((Context.ofTree config tree).stateBefore point).ownership.Mirrors tree builder := by
  apply walk_induction built config
    (fun _ builder state => state.ownership.Mirrors tree builder) _ _ inside reached
  · refine ⟨List.nodup_nil, ?_, ?_, ?_⟩
    · rintro place ⟨scope, isOpen, key, named⟩
      cases scope <;> simp [Builder.inScope?] at named
    · intro place has
      cases has
    · intro place has
      cases has
  · intro point statement before resolution after rest state passage mirrors
    rw [Context.advance_ownership]
    exact passage.mirrors_after built mirrors

omit config in
/-- A place that cannot be named any more is not named later either. -/
theorem not_live_later {early late : Point} {first last : Builder} (order : early ≤ late)
    (inside : late ≤ unit.statements.length) (reached : unit.builderAt early = .ok first)
    (alsoReached : unit.builderAt late = .ok last) {place : PlaceId} {found : Place}
    (known : first.declared? place = some found) (hidden : ¬first.Live place) :
    last.declared? place = some found ∧ ¬last.Live place := by
  induction order generalizing last with
  | refl =>
      cases reached.symm.trans alsoReached
      exact ⟨known, hidden⟩
  | @step late order inductionHypothesis =>
      have bound : late < tree.resolved.length := by
        rw [length_of_scopeTree built]
        exact inside
      obtain ⟨statement, before, after, rest, passage⟩ :=
        passage_at built (List.getElem?_eq_getElem bound)
      cases passage.reached_next.symm.trans alsoReached
      obtain ⟨stillKnown, stillHidden⟩ :=
        inductionHypothesis (Nat.le_of_succ_le inside) passage.reached
      exact ⟨passage.crossing.transition.declarations place found stillKnown,
        passage.not_live_after stillKnown stillHidden⟩

theorem not_inForce_of_dropped {early late : Point} (order : early ≤ late)
    (inside : late < unit.statements.length) {place : PlaceId}
    (dropped : ((Context.ofTree config tree).stateBefore (early + 1)).ownership.stateOf tree
      place = .dropped) : ¬tree.InForce late place := by
  have earlier : early + 1 ≤ unit.statements.length := Nat.lt_of_le_of_lt order inside
  obtain ⟨first, _, reached, _, _⟩ := leads_builderAt built earlier
  obtain ⟨last, _, alsoReached, _, _⟩ := leads_builderAt built inside
  have mirrors := mirrors_builderAt built config earlier reached
  have sound := sound_builderAt built config earlier reached
  have has : ((Context.ofTree config tree).stateBefore (early + 1)).ownership.Has place := by
    by_contra absent
    rw [Ownership.stateOf_of_not_has absent tree] at dropped
    cases dropped
  obtain ⟨found, known⟩ := mirrors.declared place has
  rw [← live_iff_inForce built inside alsoReached]
  exact (not_live_later built (Nat.succ_le_succ order) inside reached alsoReached known
    fun live => sound.there place live dropped).2

/-- What is recorded after a statement: each place that can be named, with its state. -/
theorem live_mirrors_environment {point : Point} (inside : point < unit.statements.length) :
    let ownership := ((Context.ofTree config tree).stateBefore (point + 1)).ownership
    ∃ places : List PlaceId, places.Nodup ∧ (∀ place, place ∈ places ↔ tree.InForce point place) ∧
      ownership.live = places.map fun place => (place, ownership.stateOf tree place) := by
  intro ownership
  obtain ⟨builder, _, reached, _, _⟩ := leads_builderAt built inside
  have mirrors : ownership.Mirrors tree builder := mirrors_builderAt built config inside reached
  have sound := sound_builderAt built config inside reached
  have member : ∀ place held, (place, held) ∈ ownership.live ↔
      ownership.Has place ∧ ownership.stateOf tree place = held ∧ held ≠ .dropped :=
    fun _ _ => mirrors.distinct.mem_live_iff tree
  refine ⟨ownership.live.map Prod.fst, ?_, ?_, ?_⟩
  · exact (Ownership.map_fst_live ownership).nodup mirrors.distinct
  · intro place
    rw [← live_iff_inForce built inside reached]
    constructor
    · intro listed
      obtain ⟨⟨_, held⟩, entry, rfl⟩ := List.mem_map.mp listed
      obtain ⟨has, rfl, there⟩ := (member _ held).mp entry
      by_contra hidden
      exact there (mirrors.gone _ has hidden)
    · intro live
      refine List.mem_map.mpr ⟨(place, ownership.stateOf tree place), ?_, rfl⟩
      exact (member place _).mpr ⟨mirrors.has place live, rfl, sound.there place live⟩
  · rw [List.map_map]
    refine (List.map_id _).symm.trans (List.map_congr_left ?_)
    rintro ⟨place, held⟩ entry
    obtain ⟨_, rfl, _⟩ := (member place held).mp entry
    rfl

/-- With recorded states, a unit that has a scope tree is found with the places that can be named
after each statement, each of them once, with its state.  A place that was dropped is not found
again. -/
theorem states_mirror_environment (admitted : config.admits unit = .ok ()) :
    ∃ outcome states, unit.check config true = .ok outcome ∧ outcome.states = some states ∧
      states.length = unit.statements.length ∧
      ∀ point entries, states[point]? = some entries →
        let ownership := ((Context.ofTree config tree).stateBefore (point + 1)).ownership
        (∃ places : List PlaceId, places.Nodup ∧
          (∀ place, place ∈ places ↔ tree.InForce point place) ∧
          entries = places.map fun place => (tree.label place, ownership.stateOf tree place)) ∧
        (entries.map Prod.fst).Nodup ∧
        ∀ place, ownership.stateOf tree place = .dropped →
          ∀ late, point ≤ late → late < unit.statements.length → ¬tree.InForce late place := by
  let context := Context.ofTree config tree
  have analysed : unit.check config true = .ok ⟨context, context.run, some context.snapshots⟩ := by
    rw [CodeUnit.check, admitted, built]
    rfl
  have length : context.snapshots.length = unit.statements.length := by
    rw [Context.snapshots, List.length_map, Context.length_trace, ← length_of_scopeTree built]
    rfl
  refine ⟨_, context.snapshots, analysed, rfl, length, ?_⟩
  intro point entries found ownership
  have inside : point < unit.statements.length := by
    rw [← length]
    exact (List.getElem?_eq_some_iff.mp found).1
  rw [Context.snapshots, List.getElem?_map] at found
  obtain ⟨state, reached, shown⟩ := Option.map_eq_some_iff.mp found
  have same : state.ownership = ownership :=
    congrArg State.ownership (Context.eq_walk_of_trace reached)
  obtain ⟨places, nodup, inForce, live⟩ := live_mirrors_environment built config inside
  have listed : entries =
      places.map fun place => (tree.label place, ownership.stateOf tree place) := by
    rw [← shown, Context.snapshot, same, live, List.map_map]
    rfl
  rw [listed]
  refine ⟨⟨places, nodup, inForce, rfl⟩, ?_, ?_⟩
  · rw [List.map_map]
    exact nodup.map tree.label_injective
  · intro place dropped late order before
    exact not_inForce_of_dropped built config order before dropped

omit built

/-- A name is given another place in an inner scope, which is hidden in turn, and a reference
gives way to a value. -/
def hiddenPlaces : CodeUnit := .ofActions "hidden places" [
  .bind (.str "x") (.bool true) none (.bool false) (.bool false),
  .borrow .shared (.str "r") (.str "x"),
  .enter,
  .bind (.str "x") (.bool false) none (.bool false) (.bool false),
  .bind (.str "x") (.bool false) none (.bool true) (.bool false),
  .exit,
  .bind (.str "r") (.bool false) none (.bool false) (.bool false)]

/-- After the second binding in the inner scope the first one cannot be named, nor later. -/
theorem hiddenPlaces_states :
    ∃ tree outcome states, hiddenPlaces.scopeTree = .ok tree ∧
      hiddenPlaces.check {} true = .ok outcome ∧ outcome.states = some states ∧
      states.map (fun entries => entries.map Prod.fst) =
        [["x#0"], ["x#0", "r#1"], ["x#0", "r#1"], ["x#0", "r#1", "x#2"], ["x#0", "r#1", "x#3"],
          ["x#0", "r#1"], ["x#0", "r#4"]] ∧
      tree.InForce 4 3 ∧ ∀ late, 4 ≤ late → late < 7 → ¬tree.InForce late 2 := by
  have known : (hiddenPlaces.scopeTree.toOption.map fun tree =>
      (((Context.ofTree {} tree).stateBefore 5).ownership.stateOf tree 2, tree.label 3)) =
      some (.dropped, "x#3") := by decide +kernel
  have recorded : ((hiddenPlaces.check {} true).toOption.bind Outcome.states).map
      (fun states => states.map fun entries => entries.map Prod.fst) =
        some [["x#0"], ["x#0", "r#1"], ["x#0", "r#1"], ["x#0", "r#1", "x#2"],
          ["x#0", "r#1", "x#3"], ["x#0", "r#1"], ["x#0", "r#4"]] := by decide +kernel
  obtain ⟨tree, found, facts⟩ := Option.map_eq_some_iff.mp known
  obtain ⟨dropped, label⟩ := Prod.mk.inj facts
  have built := toOption_eq_some_iff.mp found
  obtain ⟨outcome, states, analysed, kept, _, each⟩ := states_mirror_environment built {} rfl
  rw [analysed] at recorded
  simp only [Except.toOption, Option.bind_some, kept, Option.map_some, Option.some.injEq]
    at recorded
  have fifth := congrArg (fun names => names[4]?) recorded
  simp only [List.getElem?_map] at fifth
  obtain ⟨entries, listed, names⟩ := Option.map_eq_some_iff.mp fifth
  obtain ⟨⟨places, _, inForce, rfl⟩, _, gone⟩ := each 4 entries listed
  refine ⟨tree, outcome, states, built, analysed, kept, recorded, ?_, gone 2 dropped⟩
  rw [List.map_map] at names
  have shown : "x#3" ∈ places.map tree.label := by
    have same : places.map tree.label = ["x#0", "r#1", "x#3"] := names
    rw [same]
    decide
  obtain ⟨place, member, same⟩ := List.mem_map.mp shown
  rw [← tree.label_injective (same.trans label.symm), ← inForce]
  exact member

end CodeUnit

end LoanCheck
