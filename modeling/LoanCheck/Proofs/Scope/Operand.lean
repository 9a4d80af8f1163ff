import LoanCheck.Proofs.Scope.Lookup

/-!
# The place that an operand names

Where all names are texts, an operand is resolved by the declarations before it alone: to
the last place of that name in an open scope, else to the last one of the scope that ended
last if that place holds references.  Everything else is a defect of the unit.
-/

namespace LoanCheck

/-- Whether a name is a text. -/
def Json.isText : Name → Bool
  | .str _ => true
  | _ => false

theorem Json.key_eq_text_iff {name : Name} {text : String} :
    name.key = .ok (.text text) ↔ name = .str text := by
  constructor
  · intro keyed
    unfold Json.key at keyed
    split at keyed
    case h_6 value =>
      cases keyed
      rfl
    case h_5 =>
      split at keyed <;> cases keyed
    all_goals cases keyed
  · rintro rfl
    rfl

theorem Json.key_of_isText {name : Name} (isText : name.isText = true) :
    ∃ key, name.key = .ok key := by
  cases name with
  | str text => exact ⟨.text text, rfl⟩
  | _ => cases isText

/-- The names that a statement mentions. -/
def Action.names (action : Action) : List Name :=
  action.target?.toList ++ action.operand?.toList

/-- All names of a unit are texts. -/
def CodeUnit.Textual (unit : CodeUnit) : Prop :=
  ∀ statement ∈ unit.statements, ∀ name ∈ statement.action.names, name.isText = true

instance (unit : CodeUnit) : Decidable unit.Textual :=
  inferInstanceAs (Decidable (∀ statement ∈ unit.statements, _))

namespace Builder

/-- A place was declared in a scope under a name. -/
def NamedIn (builder : Builder) (name : String) (scope : ScopeId) (place : PlaceId) : Prop :=
  ∃ found, builder.places[place]? = some found ∧ found.name = .str name ∧ found.scope = scope

theorem namedIn_iff_getElem? {builder : Builder} {name : String} {scope : ScopeId}
    {place : PlaceId} :
    builder.NamedIn name scope place ↔
      (builder.places.map fun place => (place.name, place.scope))[place]? =
        some (.str name, scope) := by
  simp [NamedIn]

theorem endOf?_eq_getElem? (builder : Builder) (scope : ScopeId) :
    builder.endOf? scope = (builder.scopes.map Scope.exit)[scope]?.join := by
  rw [endOf?, outline?, List.getElem?_map]
  cases builder.scopes[scope]? <;> rfl

theorem Indexed.keyedIn_text_iff {builder : Builder} (indexed : builder.Indexed) {name : String}
    {scope : ScopeId} {place : PlaceId} :
    builder.KeyedIn (.text name) scope place ↔ builder.NamedIn name scope place := by
  constructor
  · rintro ⟨found, declared, inScope, keyed⟩
    have known := indexed.keyed place found declared
    rw [keyed, Json.key_eq_text_iff] at known
    obtain ⟨entry, listed, rfl⟩ := Option.map_eq_some_iff.mp declared
    exact ⟨entry, listed, known, inScope⟩
  · rintro ⟨found, listed, named, inScope⟩
    have declared : builder.declared? place = some found.declaration := by
      rw [declared?, listed]
      rfl
    have known := indexed.keyed place found.declaration declared
    have keyed : found.name.key = .ok (.text name) := Json.key_eq_text_iff.mpr named
    exact ⟨found.declaration, declared, inScope, Except.ok.inj (known.symm.trans keyed)⟩

theorem Indexed.name_of_visible? {builder : Builder} {point : Point}
    (wellFormed : builder.WellFormed point) (indexed : builder.Indexed) {name : String}
    {place : PlaceId} (seen : builder.visible? (.text name) = some place) {found : Place}
    (listed : builder.places[place]? = some found) : found.name = .str name := by
  obtain ⟨scope, _, keyed⟩ := (indexed.visible?_eq_some wellFormed seen).1
  obtain ⟨same, alsoListed, named, _⟩ := indexed.keyedIn_text_iff.mp keyed
  cases listed.symm.trans alsoListed
  exact named

/-- A name that no open scope has, but some scope had, is among the ended ones. -/
theorem Indexed.closed_of_namedIn {builder : Builder} {point : Point}
    (wellFormed : builder.WellFormed point) (indexed : builder.Indexed) {name : String}
    (seen : builder.visible? (.text name) = none) {scope : ScopeId} {place : PlaceId}
    (named : builder.NamedIn name scope place) :
    ∃ last, builder.closed.lookup (.text name) = some last := by
  have keyed := indexed.keyedIn_text_iff.mpr named
  rcases wellFormed.open_or_ended keyed with isOpen | ⟨stop, ended⟩
  · exact absurd keyed (indexed.not_keyedIn_of_visible? seen isOpen place)
  · cases found : builder.closed.lookup (.text name) with
    | some last => exact ⟨last, rfl⟩
    | none => exact absurd keyed (indexed.not_keyedIn_of_closed found ended place)

theorem Indexed.closed_of_not_namedIn {builder : Builder} {point : Point}
    (wellFormed : builder.WellFormed point) (indexed : builder.Indexed) {name : String}
    (absent : ∀ scope place, ¬builder.NamedIn name scope place) :
    builder.closed.lookup (.text name) = none := by
  cases found : builder.closed.lookup (.text name) with
  | none => rfl
  | some place =>
      obtain ⟨scope, _, _, _, keyed, _⟩ := indexed.closed_lookup_eq_some wellFormed found
      exact absurd (indexed.keyedIn_text_iff.mp keyed) (absent scope place)

section Use

variable {builder : Builder} (point : Point) (loc : Span) {name : String} {place : PlaceId}

theorem use_text (builder : Builder) (name : String) :
    builder.use point loc (.str name) =
      match builder.visible? (.text name) with
      | some place => .ok ⟨place, false⟩
      | none =>
          match builder.closed.lookup (.text name) with
          | some place =>
              if builder.holding? place = some .reference then .ok ⟨place, true⟩
              else .error (.defect (.ended (.str name)) point (some loc))
          | none => .error (.defect (.undeclared (.str name)) point (some loc)) :=
  rfl

theorem use_of_visible (found : builder.visible? (.text name) = some place) :
    builder.use point loc (.str name) = .ok ⟨place, false⟩ := by
  rw [use_text, found]

theorem use_of_closed (hidden : builder.visible? (.text name) = none)
    (found : builder.closed.lookup (.text name) = some place) :
    builder.use point loc (.str name) =
      if builder.holding? place = some .reference then .ok ⟨place, true⟩
      else .error (.defect (.ended (.str name)) point (some loc)) := by
  rw [use_text, hidden, found]

theorem use_of_absent (hidden : builder.visible? (.text name) = none)
    (absent : builder.closed.lookup (.text name) = none) :
    builder.use point loc (.str name) =
      .error (.defect (.undeclared (.str name)) point (some loc)) := by
  rw [use_text, hidden, absent]

end Use

section Statement

variable {builder : Builder} {point : Point} {loc : Span} {action : Action} {name : Name}

theorem resolve_eq_error {reason : ResolveError} (operand : action.operand? = some name)
    (failed : builder.use point loc name = .error reason) :
    builder.resolve point loc action = .error reason := by
  cases action with
  | bind target mutable source shadow copy =>
      cases operand
      simp only [resolve, Option.mapM_some, failed]
      rfl
  | declare | enter | exit => cases operand
  | move | borrow | write | read | consume =>
      cases operand
      simp only [resolve, failed]
      rfl

/-- There is a result, or the destination would hold both values and references. -/
def OkOrMixed {Alpha : Type} (point : Point) (loc : Span) (destination? : Option Name)
    (result : Except ResolveError Alpha) : Prop :=
  (∃ value, result = .ok value) ∨
    ∃ dest, destination? = some dest ∧ result = .error (.defect (.mixed dest) point (some loc))

theorem OkOrMixed.bind {Alpha Beta : Type} {destination? : Option Name}
    {result : Except ResolveError Alpha} {next : Alpha → Except ResolveError Beta}
    (first : OkOrMixed point loc destination? result)
    (second : ∀ value, result = .ok value → OkOrMixed point loc destination? (next value)) :
    OkOrMixed point loc destination? (result >>= next) := by
  rcases first with ⟨value, rfl⟩ | ⟨dest, assigned, rfl⟩
  · exact second value rfl
  · exact .inr ⟨dest, assigned, rfl⟩

theorem hold_eq_ok {place : PlaceId} {holding : Option Holding}
    (same : builder.changesKind place holding = false) (point : Point) (loc : Span) :
    ∃ next, builder.hold point loc place holding = .ok next := by
  unfold hold
  split
  · next new found listed =>
      have compatible : found.holding.any (· ≠ new) = false := by
        cases recorded : found.holding with
        | none => rfl
        | some old =>
            have equal : new = old := by
              simpa [changesKind, holding?, listed, recorded] using same
            simp [equal]
      rw [compatible, if_neg Bool.false_ne_true]
      exact ⟨_, rfl⟩
  · exact ⟨_, rfl⟩

theorem hold_okOrMixed {place : PlaceId} {dest : Name}
    (named : ∀ found, builder.places[place]? = some found → found.name = dest) (point : Point)
    (loc : Span) (holding : Option Holding) :
    OkOrMixed point loc (some dest) (builder.hold point loc place holding) := by
  unfold hold
  split
  · next found listed =>
      split
      · exact .inr ⟨dest, rfl, by rw [named found listed]⟩
      · exact .inl ⟨_, rfl⟩
  · exact .inl ⟨_, rfl⟩

/-- A place that was just declared holds nothing yet. -/
theorem changesKind_declare (builder : Builder) (point : Point) (name : Name) (key : Key)
    (mutable copy : Flag) (deferred rebinds : Bool) (holding : Option Holding) :
    (builder.declare point name key mutable copy deferred rebinds).1.changesKind
      builder.places.length holding = false := by
  have nothing : builder.holding? builder.places.length = none := by simp [holding?]
  simp only [changesKind, holding?_declare, nothing]

theorem assign_eq_ok (builder : Builder) (point : Point) (isText : name.isText = true) :
    ∃ result, builder.assign point name = .ok result := by
  obtain ⟨key, keyed⟩ := Json.key_of_isText isText
  have known : keyOf name = .ok key := by rw [keyOf, keyed]
  simp only [assign, known, bind, Except.bind]
  split
  · split
    · exact ⟨_, rfl⟩
    · exact ⟨_, rfl⟩
  · exact ⟨_, rfl⟩

theorem bindTarget_eq_ok (builder : Builder) (point : Point) (isText : name.isText = true)
    (mutable shadow copy : Flag) (holding : Option Holding) :
    ∃ result, builder.bindTarget point name mutable shadow copy holding = .ok result := by
  obtain ⟨key, keyed⟩ := Json.key_of_isText isText
  have known : keyOf name = .ok key := by rw [keyOf, keyed]
  simp only [bindTarget, known, bind, Except.bind]
  split
  · split
    · exact ⟨_, rfl⟩
    · exact ⟨_, rfl⟩
  · exact ⟨_, rfl⟩

/-- A destination is a place that can be seen or one that holds nothing yet. -/
theorem seen_or_new_of_assign {dest : String} {next : Builder} {target : Target}
    (assigned : builder.assign point (.str dest) = .ok (next, target)) :
    (next = builder ∧ builder.visible? (.text dest) = some target.place) ∨
      ∀ holding, next.changesKind target.place holding = false := by
  have known : keyOf (.str dest) = .ok (.text dest) := rfl
  have new := changesKind_declare builder point (.str dest) (.text dest) (.bool false)
    (.bool false) false false
  simp only [assign, known, bind, Except.bind] at assigned
  split at assigned
  · next place seen =>
      split at assigned
      · cases assigned
        exact .inl ⟨rfl, seen⟩
      · cases assigned
        exact .inr new
  · cases assigned
    exact .inr new

/-- A bind declares a new place rather than change what a place holds. -/
theorem changesKind_of_bindTarget {mutable shadow copy : Flag} {holding : Option Holding}
    {next : Builder} {target : Target}
    (chosen : builder.bindTarget point name mutable shadow copy holding = .ok (next, target)) :
    next.changesKind target.place holding = false := by
  simp only [bindTarget, bind_eq_ok_iff] at chosen
  obtain ⟨key, -, chosen⟩ := chosen
  have new := changesKind_declare builder point name key mutable copy false false holding
  split at chosen
  · next place found =>
      split at chosen
      · next kept =>
          cases chosen
          exact (Bool.not_eq_true' _).mp (Bool.and_eq_true_iff.mp kept).2
      · cases chosen
        exact new
  · cases chosen
    exact new

/-- What is assigned is recorded, unless the destination holds the other kind of thing. -/
theorem hold_okOrMixed_of_assign (wellFormed : builder.WellFormed point)
    (indexed : builder.Indexed) {dest : Name} (isText : dest.isText = true) {next : Builder}
    {target : Target} (assigned : builder.assign point dest = .ok (next, target)) (loc : Span)
    (holding : Option Holding) :
    OkOrMixed point loc (some dest) (next.hold point loc target.place holding) := by
  cases dest with
  | str text =>
      rcases seen_or_new_of_assign assigned with ⟨rfl, seen⟩ | same
      · exact hold_okOrMixed (fun _ listed => indexed.name_of_visible? wellFormed seen listed) ..
      · exact .inl (hold_eq_ok (same holding) point loc)
  | _ => cases isText

theorem resolve_okOrMixed (wellFormed : builder.WellFormed point) (indexed : builder.Indexed)
    {use : Use} (operand : action.operand? = some name)
    (used : builder.use point loc name = .ok use)
    (isText : ∀ target, action.target? = some target → target.isText = true) :
    OkOrMixed point loc action.destination? (builder.resolve point loc action) := by
  cases action with
  | bind target mutable source shadow copy =>
      cases operand
      simp only [resolve, mapM_use used]
      apply OkOrMixed.bind (.inl (bindTarget_eq_ok builder point (isText target rfl) _ _ _ _))
      rintro ⟨next, chosen⟩ bound
      exact OkOrMixed.bind (.inl (hold_eq_ok (changesKind_of_bindTarget bound) point loc))
        fun held _ => .inl ⟨_, rfl⟩
  | declare | enter | exit => cases operand
  | move dest src =>
      cases operand
      simp only [resolve, used]
      apply OkOrMixed.bind (.inl (assign_eq_ok builder point (isText dest rfl)))
      rintro ⟨next, target⟩ assigned
      exact (hold_okOrMixed_of_assign wellFormed indexed (isText dest rfl) assigned loc _).bind
        fun held _ => .inl ⟨_, rfl⟩
  | borrow kind dest referent =>
      cases operand
      simp only [resolve, used]
      apply OkOrMixed.bind (.inl (assign_eq_ok builder point (isText dest rfl)))
      rintro ⟨next, target⟩ assigned
      exact (hold_okOrMixed_of_assign wellFormed indexed (isText dest rfl) assigned loc _).bind
        fun held _ => .inl ⟨_, rfl⟩
  | write | read | consume =>
      cases operand
      simp only [resolve, used]
      exact .inl ⟨_, rfl⟩

variable {statement : Statement}

theorem step_eq_of_operand (operand : statement.action.operand? = some name) :
    builder.step point statement =
      (builder.addItem (.point point)).resolve point statement.loc statement.action >>=
        fun (next, effect) => .ok (next.record point next.current statement.loc effect) := by
  obtain ⟨action, loc⟩ := statement
  cases action with
  | enter | exit => cases operand
  | _ => rfl

theorem step_eq_error {reason : ResolveError} (operand : statement.action.operand? = some name)
    (failed : builder.use point statement.loc name = .error reason) :
    builder.step point statement = .error reason := by
  have same : (builder.addItem (.point point)).use point statement.loc name = .error reason := by
    rw [use_addItem]
    exact failed
  rw [step_eq_of_operand operand, resolve_eq_error operand same]
  rfl

theorem step_okOrMixed (wellFormed : builder.WellFormed point) (indexed : builder.Indexed)
    {use : Use} (operand : statement.action.operand? = some name)
    (used : builder.use point statement.loc name = .ok use)
    (isText : ∀ target, statement.action.target? = some target → target.isText = true) :
    OkOrMixed point statement.loc statement.action.destination? (builder.step point statement) := by
  have items := alike_addItem builder (.point point)
  have same : (builder.addItem (.point point)).use point statement.loc name = .ok use := by
    rw [use_addItem]
    exact used
  rw [step_eq_of_operand operand]
  exact (resolve_okOrMixed (wellFormed.of_alike items) (indexed.of_alike items rfl) operand same
    isText).bind fun result _ => .inl ⟨_, rfl⟩

end Statement

end Builder

namespace CodeUnit

/-- A statement is resolved with the given operand, unless it is a move or a borrow that would
make its destination hold both values and references, which is a defect of the unit. -/
def ResolvesAt (unit : CodeUnit) (point : Point) (statement : Statement) (use : Use) : Prop :=
  (∃ next resolution, unit.builderAt (point + 1) = .ok next ∧
      next.resolved[point]? = some resolution ∧ resolution.effect.source? = some use ∧
      ∀ tree, unit.scopeTree = .ok tree → tree.resolved[point]? = some resolution) ∨
    ∃ dest, statement.action.destination? = some dest ∧
      unit.scopeTree = .error (.defect (.mixed dest) point (some statement.loc))

/-- The unit has a defect at a point, told with a message. -/
def MalformedAt (unit : CodeUnit) (point : Point) (loc : Span) (message : String) : Prop :=
  ∃ defect, unit.scopeTree = .error (.defect defect point (some loc)) ∧
    defect.kind = .malformedProgram ∧ defect.message = message

variable {unit : CodeUnit} {point : Point} {statement : Statement} {builder : Builder}
  {name : Name}

theorem resolvesAt_of_use (textual : unit.Textual)
    (listed : unit.statements[point]? = some statement)
    (operand : statement.action.operand? = some name)
    (reached : unit.builderAt point = .ok builder) {use : Use}
    (used : builder.use point statement.loc name = .ok use) :
    unit.ResolvesAt point statement use := by
  have member := List.mem_of_getElem? listed
  have inside := (List.getElem?_eq_some_iff.mp listed).1
  have isText : ∀ target, statement.action.target? = some target → target.isText = true := by
    intro target known
    apply textual statement member
    simp [Action.names, known]
  have succ := builderAt_succ listed
  rw [reached] at succ
  have wellFormed := wellFormed_builderAt (Nat.le_of_lt inside) reached
  have indexed := indexed_builderAt (Nat.le_of_lt inside) reached
  rcases Builder.step_okOrMixed wellFormed indexed operand used isText with
    ⟨next, stepped⟩ | ⟨dest, destination, failed⟩
  · have reachedNext : unit.builderAt (point + 1) = .ok next := succ.trans stepped
    obtain ⟨_, resolution, recorded, resolves⟩ := Builder.step_resolves stepped
    have found : next.resolved[point]? = some resolution := by
      rw [recorded, ← length_resolved (Nat.le_of_lt inside) reached]
      simp
    have source : resolution.effect.source? = some use := by
      have looked := resolves.operand
      rw [operand, Builder.mapM_use used] at looked
      exact (Except.ok.inj looked).symm
    refine .inl ⟨next, resolution, reachedNext, found, source, ?_⟩
    intro tree built
    obtain ⟨same, rest, again, remaining, _⟩ := leads_builderAt built inside
    rw [reachedNext] at again
    cases again
    rw [remaining, List.getElem?_append_left (List.getElem?_eq_some_iff.mp found).1]
    exact found
  · exact .inr ⟨dest, destination, scopeTree_eq_error (succ.trans failed)⟩

theorem scopeTree_eq_error_of_use (listed : unit.statements[point]? = some statement)
    (operand : statement.action.operand? = some name)
    (reached : unit.builderAt point = .ok builder) {reason : ResolveError}
    (failed : builder.use point statement.loc name = .error reason) :
    unit.scopeTree = .error reason := by
  have succ := builderAt_succ listed
  rw [reached] at succ
  exact scopeTree_eq_error (succ.trans (Builder.step_eq_error operand failed))

/-- A reference is declared in a scope, and one of the same name in a scope inside it. -/
def nestedReferences : CodeUnit := ⟨"nested", [
  .bind (.str "v") (.bool false) none (.bool false) (.bool false),
  .enter,
  .borrow .shared (.str "x") (.str "v"),
  .enter,
  .borrow .shared (.str "x") (.str "v"),
  .exit,
  .exit,
  .read (.str "x")].map fun action => { action }⟩

/-- The builder before the last statement of the unit. -/
theorem nestedReferences_builderAt :
    ∃ builder, nestedReferences.builderAt 7 = .ok builder ∧ builder.openScopes = [0] ∧
      builder.places.map (fun place => (place.name, place.scope)) =
        [(.str "v", 0), (.str "x", 1), (.str "x", 2)] ∧
      builder.scopes.map Scope.exit = [none, some 6, some 5] ∧
      builder.holding? 1 = some .reference :=
  ⟨_, rfl, rfl, rfl, rfl, rfl⟩

end CodeUnit

end LoanCheck
