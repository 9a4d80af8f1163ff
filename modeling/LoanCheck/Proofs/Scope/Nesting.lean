import LoanCheck.Proofs.Scope.Flattening
import Mathlib.Data.List.Chain

/-!
# Scopes lie inside one another

Entered where another scope is open, a scope ends before that one does; entered later, it
shares no point with one that has ended.  So of two scopes one lies inside the other or
they are apart, and following parents comes to exactly the scopes around a scope.
-/

namespace LoanCheck

/-- A scope is another one, or is come to from it along parents. -/
inductive Around (parent? : ScopeId → Option ScopeId) (outer : ScopeId) : ScopeId → Prop where
  | self : Around parent? outer outer
  | out {inner middle : ScopeId} (up : parent? inner = some middle)
      (around : Around parent? outer middle) : Around parent? outer inner

namespace Around

variable {parent? other? : ScopeId → Option ScopeId} {outer inner : ScopeId}

theorem mono (around : Around parent? outer inner)
    (kept : ∀ scope parent, parent? scope = some parent → other? scope = some parent) :
    Around other? outer inner := by
  induction around with
  | self => exact .self
  | out up around inductionHypothesis => exact .out (kept _ _ up) inductionHypothesis

/-- All scopes of a chain of parents lie around the first one. -/
theorem of_chain {scopes : List ScopeId}
    (linked : (inner :: scopes).IsChain fun scope parent => parent? scope = some parent)
    (listed : outer ∈ inner :: scopes) : Around parent? outer inner := by
  induction scopes generalizing inner with
  | nil =>
      rw [List.mem_singleton] at listed
      rw [listed]
      exact .self
  | cons parent scopes inductionHypothesis =>
      rw [List.isChain_cons_cons] at linked
      rcases List.mem_cons.mp listed with rfl | further
      · exact .self
      · exact .out linked.1 (inductionHypothesis linked.2 further)

end Around

/-- How scopes with the given parents, starts and ends lie to each other. -/
structure Nests (count : Nat) (parent? : ScopeId → Option ScopeId)
    (start? end? : ScopeId → Option Point) : Prop where
  /-- A scope is entered after its parent and ends before it. -/
  inside : ∀ scope parent, parent? scope = some parent → parent < scope ∧ scope < count ∧
    (∀ outer inner, start? parent = some outer → start? scope = some inner → outer ≤ inner) ∧
    ∀ stop, end? parent = some stop → ∃ earlier, end? scope = some earlier ∧ earlier < stop
  lasting : ∀ scope start stop, start? scope = some start → end? scope = some stop → start ≤ stop
  /-- A scope that does not lie around a later one has ended before that one is entered. -/
  apart : ∀ first second, first < second → second < count → Around parent? first second ∨
    ∃ stop start, end? first = some stop ∧ start? second = some start ∧ stop < start

namespace Nests

variable {count : Nat} {parent? : ScopeId → Option ScopeId} {start? end? : ScopeId → Option Point}
  (nests : Nests count parent? start? end?)

include nests

/-- A scope is entered inside another one.  The scopes that do not lie around it have ended. -/
theorem add {parent : ScopeId} {point : Point} (bounded : parent < count)
    (unended : end? parent = none) (entered : ∀ start, start? parent = some start → start ≤ point)
    (lasts : end? count = none)
    (others : ∀ scope, scope < count →
      Around parent? scope parent ∨ ∃ stop, end? scope = some stop ∧ stop < point) :
    Nests (count + 1) (fun scope => if scope = count then some parent else parent? scope)
      (fun scope => if scope = count then some point else start? scope) end? := by
  have keeps : ∀ scope middle, parent? scope = some middle →
      (if scope = count then some parent else parent? scope) = some middle := by
    intro scope middle up
    rw [if_neg (Nat.ne_of_lt (nests.inside scope middle up).2.1), up]
  refine ⟨?_, ?_, ?_⟩
  · intro scope middle up
    by_cases new : scope = count
    · subst new
      rw [if_pos rfl, Option.some.injEq] at up
      subst up
      refine ⟨bounded, Nat.lt_succ_self _, ?_, ?_⟩
      · intro outer inner starts enters
        rw [if_neg (Nat.ne_of_lt bounded)] at starts
        rw [if_pos rfl, Option.some.injEq] at enters
        rw [← enters]
        exact entered outer starts
      · intro stop ended
        rw [unended] at ended
        cases ended
    · rw [if_neg new] at up
      obtain ⟨older, inside, order, ends⟩ := nests.inside scope middle up
      rw [if_neg new, if_neg (Nat.ne_of_lt (Nat.lt_trans older inside))]
      exact ⟨older, Nat.lt_succ_of_lt inside, order, ends⟩
  · intro scope start stop starts ended
    have old : scope ≠ count := by
      rintro rfl
      rw [lasts] at ended
      cases ended
    rw [if_neg old] at starts
    exact nests.lasting scope start stop starts ended
  · intro first second older inside
    by_cases new : second = count
    · subst new
      rcases others first older with around | ⟨stop, ended, before⟩
      · exact .inl (.out (if_pos rfl) (around.mono keeps))
      · exact .inr ⟨stop, point, ended, if_pos rfl, before⟩
    · have inside := Nat.lt_of_le_of_ne (Nat.le_of_lt_succ inside) new
      rw [if_neg new]
      exact (nests.apart first second older inside).imp_left fun around => around.mono keeps

/-- A scope may end when all scopes inside it have. -/
theorem close {scope : ScopeId} {point : Point} (unended : end? scope = none)
    (entered : ∀ start, start? scope = some start → start ≤ point)
    (children : ∀ child, parent? child = some scope →
      ∃ stop, end? child = some stop ∧ stop < point) :
    Nests count parent? start? fun other => if other = scope then some point else end? other := by
  refine ⟨?_, ?_, ?_⟩
  · intro inner parent up
    obtain ⟨older, bounded, order, ends⟩ := nests.inside inner parent up
    refine ⟨older, bounded, order, ?_⟩
    intro stop ended
    by_cases same : parent = scope
    · subst same
      rw [if_pos rfl, Option.some.injEq] at ended
      rw [if_neg (Nat.ne_of_gt older), ← ended]
      exact children inner up
    · rw [if_neg same] at ended
      obtain ⟨earlier, innerEnded, before⟩ := ends stop ended
      have notScope : inner ≠ scope := by
        rintro rfl
        rw [unended] at innerEnded
        cases innerEnded
      exact ⟨earlier, by rw [if_neg notScope, innerEnded], before⟩
  · intro other start stop starts ended
    by_cases same : other = scope
    · subst same
      rw [if_pos rfl, Option.some.injEq] at ended
      rw [← ended]
      exact entered start starts
    · rw [if_neg same] at ended
      exact nests.lasting other start stop starts ended
  · intro first second older bounded
    rcases nests.apart first second older bounded with around | ⟨stop, start, ended, starts, before⟩
    · exact .inl around
    · refine .inr ⟨stop, start, ?_, starts, before⟩
      rw [if_neg, ended]
      rintro rfl
      rw [unended] at ended
      cases ended

end Nests

namespace Builder

/-- The scope in which a scope was entered. -/
def parentOf? (builder : Builder) (scope : ScopeId) : Option ScopeId :=
  (builder.outline? scope).bind Scope.parent

/-- The scopes so far lie inside one another, the open ones along parents. -/
structure Nested (builder : Builder) : Prop where
  nests : Nests builder.scopes.length builder.parentOf? builder.startOf? builder.endOf?
  linked : builder.openScopes.IsChain fun scope parent => builder.parentOf? scope = some parent

theorem nested_empty : Nested {} := by
  refine ⟨⟨?_, ?_, ?_⟩, List.isChain_singleton _⟩
  · intro scope parent up
    cases scope <;> simp [parentOf?, outline?, Scope.outline] at up
  · intro scope start stop _ ended
    cases scope <;> simp [endOf?, outline?, Scope.outline] at ended
  · intro first second older bounded
    rw [List.length_singleton, Nat.lt_one_iff] at bounded
    rw [bounded] at older
    cases older

theorem parentOf?_declare (builder : Builder) (point : Point) (name : Name) (key : Key)
    (mutable copy : Flag) (deferred rebinds : Bool) :
    (builder.declare point name key mutable copy deferred rebinds).1.parentOf? =
      builder.parentOf? := by
  funext scope
  simp only [parentOf?, outline?_declare]
  cases builder.outline? scope with
  | none => rfl
  | some found => by_cases current : scope = builder.current <;> simp [current]

theorem parentOf?_enter (builder : Builder) (point : Point) (loc : Span) (scope : ScopeId) :
    (builder.enter point loc).parentOf? scope =
      if scope = builder.scopes.length then some builder.current else builder.parentOf? scope := by
  simp only [parentOf?, outline?_enter]
  split <;> rfl

theorem parentOf?_exit {builder next : Builder} {point : Point} {loc : Span}
    (left : builder.exit point loc = .ok next) : next.parentOf? = builder.parentOf? := by
  funext scope
  simp only [parentOf?, (exit_cases left).2.1]
  cases builder.outline? scope with
  | none => rfl
  | some found => by_cases current : scope = builder.current <;> simp [current]

namespace Nested

variable {before after : Builder} {point : Point}

theorem of_alike (nested : before.Nested) (alike : Alike before after) : after.Nested := by
  have parents : after.parentOf? = before.parentOf? := by
    funext scope
    simp only [parentOf?, alike.outlines]
  refine ⟨?_, ?_⟩
  · rw [alike.scopeCount, parents, alike.starts, alike.ends]
    exact nested.nests
  · rw [alike.openScopes, parents]
    exact nested.linked

theorem declare (nested : before.Nested) (name : Name) (key : Key) (mutable copy : Flag)
    (deferred rebinds : Bool) :
    (before.declare point name key mutable copy deferred rebinds).1.Nested := by
  refine ⟨?_, ?_⟩
  · rw [length_scopes_declare, parentOf?_declare, funext (startOf?_declare before _ _ _ _ _ _ _),
      funext (endOf?_declare before _ _ _ _ _ _ _)]
    exact nested.nests
  · rw [parentOf?_declare]
    exact nested.linked

/-- Among the open scopes the current one is the youngest. -/
theorem le_current (nested : before.Nested) {scope : ScopeId} (isOpen : scope ∈ before.openScopes) :
    scope ≤ before.current := by
  have descending : before.openScopes.IsChain fun inner outer => outer < inner :=
    nested.linked.imp fun inner outer up => (nested.nests.inside inner outer up).1
  rcases List.mem_cons.mp isOpen with rfl | further
  · exact Nat.le_refl _
  · exact Nat.le_of_lt (List.rel_of_pairwise_cons descending.pairwise further)

variable (wellFormed : before.WellFormed point) (nested : before.Nested)

include wellFormed nested

/-- What was entered in the current scope has ended. -/
theorem ended_of_parent {child : ScopeId} (up : before.parentOf? child = some before.current) :
    ∃ stop, before.endOf? child = some stop ∧ stop < point := by
  obtain ⟨older, bounded, _⟩ := nested.nests.inside child before.current up
  refine wellFormed.ended child bounded ?_
  intro isOpen
  exact Nat.not_le_of_lt older (nested.le_current isOpen)

theorem enter (loc : Span) : (before.enter point loc).Nested := by
  have current : before.current ∈ before.openScopes := List.mem_cons_self
  have nests := nested.nests.add (wellFormed.bounded _ current) (wellFormed.unended _ current)
    (fun _ starts => wellFormed.start_le current starts) ?_ ?_
  · have parents := funext (parentOf?_enter before point loc)
    refine ⟨?_, ?_⟩
    · rw [length_scopes_enter, parents, funext (startOf?_enter before point loc), endOf?_enter]
      exact nests
    · rw [openScopes_enter, parents]
      refine List.isChain_cons_cons.mpr ⟨if_pos rfl, nested.linked.imp ?_⟩
      intro scope parent up
      exact (if_neg (Nat.ne_of_lt (nested.nests.inside scope parent up).2.1)).trans up
  · rw [endOf?, outline?_length]
    rfl
  · -- The scopes that are open lie around the new one, and all others have ended.
    intro scope bounded
    by_cases isOpen : scope ∈ before.openScopes
    · exact .inl (Around.of_chain nested.linked isOpen)
    · exact .inr (wellFormed.ended scope bounded isOpen)

theorem exit {loc : Span} (left : before.exit point loc = .ok after) : after.Nested := by
  obtain ⟨scopes, _, _, count, _⟩ := exit_cases left
  refine ⟨?_, ?_⟩
  · have ends := funext (endOf?_exit left wellFormed.current_lt)
    rw [count, parentOf?_exit left, startOf?_exit left, ends]
    refine nested.nests.close (wellFormed.unended _ List.mem_cons_self)
      (fun start starts => wellFormed.start_le List.mem_cons_self starts) ?_
    intro child up
    exact nested.ended_of_parent wellFormed up
  · have linked := nested.linked
    rw [scopes] at linked
    rw [parentOf?_exit left]
    exact linked.tail

theorem step {statement : Statement} (stepped : before.step point statement = .ok after) :
    after.Nested := by
  cases (step_resolves stepped).1 with
  | inside extended closed =>
      cases extended with
      | kept alike => exact nested.of_alike alike
      | declared name key mutable deferred keyed alike =>
          exact (nested.declare name key mutable _ deferred false).of_alike alike
  | entered => exact nested.enter wellFormed statement.loc
  | left exits => exact nested.exit wellFormed exits

end Nested

end Builder

theorem CodeUnit.nested_builderAt {unit : CodeUnit} {point : Point} {builder : Builder}
    (inside : point ≤ unit.statements.length) (reached : unit.builderAt point = .ok builder) :
    builder.Nested := by
  refine builderAt_induction (fun _ builder => builder.Nested) Builder.nested_empty ?_ inside
    reached
  intro point statement before after listed earlier stepped nested
  have within := Nat.le_of_lt (List.getElem?_eq_some_iff.mp listed).1
  exact nested.step (wellFormed_builderAt within earlier) stepped

namespace ScopeTree

/-- Where a scope is entered. -/
def enterPoint (tree : ScopeTree) (scope : ScopeId) : Point :=
  (tree.scopes[scope]?).elim 0 Scope.enter

/-- The walk from a scope along parents, as long as it takes: it ends with the given answer to
whether a scope was come to, and asks only for scopes that exist. -/
inductive Climbs (tree : ScopeTree) (outer : ScopeId) : Option ScopeId → Bool → Prop where
  | found : Climbs tree outer (some outer) true
  | up {current : ScopeId} {scope : Scope} {answer : Bool} (other : current ≠ outer)
      (known : tree.scopes[current]? = some scope)
      (climbs : Climbs tree outer scope.parent answer) : Climbs tree outer (some current) answer
  | spent : Climbs tree outer none false

/-- The scopes of a tree lie inside one another, and all have an end. -/
structure Nested (tree : ScopeTree) : Prop where
  nests : Nests tree.scopes.length tree.parent? (fun scope => (tree.scopes[scope]?).map Scope.enter)
    fun scope => (tree.scopes[scope]?).bind Scope.exit
  ended : ∀ scope, scope < tree.scopes.length → ((tree.scopes[scope]?).bind Scope.exit).isSome

namespace Nested

variable {tree : ScopeTree} {outer inner first second : ScopeId}

theorem start_eq (bounded : inner < tree.scopes.length) :
    (tree.scopes[inner]?).map Scope.enter = some (tree.enterPoint inner) := by
  rw [enterPoint, List.getElem?_eq_getElem bounded]
  rfl

variable (nested : tree.Nested)

include nested

theorem end_eq (bounded : inner < tree.scopes.length) :
    (tree.scopes[inner]?).bind Scope.exit = some (tree.exitPoint inner) := by
  obtain ⟨stop, ended⟩ := Option.isSome_iff_exists.mp (nested.ended inner bounded)
  rw [exitPoint, ended]
  rfl

theorem parent_lt {parent : ScopeId} (up : tree.parent? inner = some parent) : parent < inner :=
  (nested.nests.inside inner parent up).1

theorem enter_le_exit (bounded : inner < tree.scopes.length) :
    tree.enterPoint inner ≤ tree.exitPoint inner :=
  nested.nests.lasting inner _ _ (start_eq bounded) (nested.end_eq bounded)

theorem within_of_parent {parent : ScopeId} (up : tree.parent? inner = some parent) :
    tree.enterPoint parent ≤ tree.enterPoint inner ∧
      tree.exitPoint inner < tree.exitPoint parent := by
  obtain ⟨older, bounded, order, ends⟩ := nested.nests.inside inner parent up
  have also := Nat.lt_trans older bounded
  obtain ⟨earlier, ended, before⟩ := ends _ (nested.end_eq also)
  cases ended.symm.trans (nested.end_eq bounded)
  exact ⟨order _ _ (start_eq also) (start_eq bounded), before⟩

theorem within_of_around (around : Around tree.parent? outer inner) :
    tree.enterPoint outer ≤ tree.enterPoint inner ∧
      (outer = inner ∨ tree.exitPoint inner < tree.exitPoint outer) := by
  induction around with
  | self => exact ⟨Nat.le_refl _, .inl rfl⟩
  | out up around inductionHypothesis =>
      obtain ⟨entered, left⟩ := nested.within_of_parent up
      refine ⟨Nat.le_trans inductionHypothesis.1 entered, .inr ?_⟩
      rcases inductionHypothesis.2 with same | further
      · rw [same]
        exact left
      · exact Nat.lt_trans left further

theorem around_or_before (older : first < second) (bounded : second < tree.scopes.length) :
    Around tree.parent? first second ∨ tree.exitPoint first < tree.enterPoint second := by
  refine (nested.nests.apart first second older bounded).imp_right ?_
  rintro ⟨stop, start, ended, starts, before⟩
  cases ended.symm.trans (nested.end_eq (Nat.lt_trans older bounded))
  cases starts.symm.trans (start_eq bounded)
  exact before

/-- A scope that was entered when another one ends, and does not end before it, lies around it. -/
theorem around_of_exit_le (outside : outer < tree.scopes.length)
    (inside : inner < tree.scopes.length) (entered : tree.enterPoint outer ≤ tree.exitPoint inner)
    (left : tree.exitPoint inner ≤ tree.exitPoint outer) : Around tree.parent? outer inner := by
  rcases Nat.lt_trichotomy outer inner with older | rfl | younger
  · rcases nested.around_or_before older inside with around | before
    · exact around
    · have lasts := nested.enter_le_exit inside
      exact absurd (Nat.le_trans lasts left) (Nat.not_le_of_lt before)
  · exact .self
  · -- An older scope is not inside: it would end last, or before the other is entered.
    rcases nested.around_or_before younger outside with around | before
    · rcases (nested.within_of_around around).2 with same | further
      · exact absurd same (Nat.ne_of_lt younger)
      · exact absurd left (Nat.not_le_of_lt further)
    · exact absurd entered (Nat.not_le_of_lt before)

/-- A scope lies around another one exactly if its points do. -/
theorem around_iff (outside : outer < tree.scopes.length) (inside : inner < tree.scopes.length) :
    Around tree.parent? outer inner ↔ tree.enterPoint outer ≤ tree.enterPoint inner ∧
      tree.exitPoint inner ≤ tree.exitPoint outer := by
  constructor
  · intro around
    obtain ⟨entered, same | left⟩ := nested.within_of_around around
    · exact ⟨entered, Nat.le_of_eq (congrArg tree.exitPoint same.symm)⟩
    · exact ⟨entered, Nat.le_of_lt left⟩
  · rintro ⟨entered, left⟩
    have lasts := nested.enter_le_exit inside
    exact nested.around_of_exit_le outside inside (Nat.le_trans entered lasts) left

theorem mem_chain_iff {bound : Nat} (enough : inner < bound) :
    outer ∈ tree.chain bound inner ↔ Around tree.parent? outer inner := by
  induction bound generalizing inner with
  | zero => cases enough
  | succ bound inductionHypothesis =>
      rw [chain, List.mem_cons]
      cases up : tree.parent? inner with
      | none =>
          rw [or_iff_left (List.not_mem_nil)]
          constructor
          · rintro rfl
            exact .self
          · intro around
            cases around with
            | self => rfl
            | out further around => rw [up] at further; cases further
      | some parent =>
          have older := nested.parent_lt up
          dsimp only
          rw [inductionHypothesis (Nat.lt_of_lt_of_le older (Nat.le_of_lt_succ enough))]
          constructor
          · rintro (rfl | around)
            · exact .self
            · exact .out up around
          · intro around
            cases around with
            | self => exact .inl rfl
            | out further around =>
                cases up.symm.trans further
                exact .inr around

theorem isAncestor_iff : tree.isAncestor outer inner = true ↔ Around tree.parent? outer inner := by
  rw [isAncestor, List.contains_iff_mem, nested.mem_chain_iff (Nat.lt_succ_self _)]

theorem climbs_chain {bound : Nat} (enough : inner < bound) (inside : inner < tree.scopes.length) :
    tree.Climbs outer (some inner) ((tree.chain bound inner).contains outer) := by
  induction bound generalizing inner with
  | zero => cases enough
  | succ bound inductionHypothesis =>
      rw [chain, List.contains_cons]
      by_cases same : inner = outer
      · subst same
        rw [beq_self_eq_true, Bool.true_or]
        exact .found
      · rw [beq_false_of_ne (Ne.symm same), Bool.false_or]
        have known := List.getElem?_eq_getElem inside
        refine .up same known ?_
        have parent : tree.parent? inner = tree.scopes[inner].parent := by
          rw [parent?, known, Option.bind_some]
        rw [← parent]
        cases up : tree.parent? inner with
        | none => exact .spent
        | some parent =>
            have older := nested.parent_lt up
            exact inductionHypothesis (Nat.lt_of_lt_of_le older (Nat.le_of_lt_succ enough))
              (Nat.lt_trans older inside)

end Nested

end ScopeTree

/-- The outermost scope ends with the unit, when all others have. -/
theorem Builder.Nested.finish {builder : Builder} {tree : ScopeTree}
    (wellFormed : builder.WellFormed tree.unit.endPoint) (nested : builder.Nested)
    (finished : builder.finish tree.unit = .ok tree) : tree.Nested := by
  obtain ⟨_, _, _, _, scopes⟩ := finish_cases finished
  have rooted := (Leads.root_of_finish wellFormed finished).1
  have isRoot : builder.current = ScopeTree.rootId := (List.cons.inj rooted).1
  have isOpen : ScopeTree.rootId ∈ builder.openScopes := rooted ▸ List.mem_singleton_self _
  have count : tree.scopes.length = builder.scopes.length := by rw [scopes, List.length_modify]
  have parents : tree.parent? = builder.parentOf? := by
    funext scope
    simp only [ScopeTree.parent?, parentOf?, outline?, scopes, List.getElem?_modify]
    cases builder.scopes[scope]? with
    | none => rfl
    | some found => by_cases root : ScopeTree.rootId = scope <;> simp [root, Scope.outline]
  have starts : (fun scope => (tree.scopes[scope]?).map Scope.enter) = builder.startOf? := by
    funext scope
    simp only [startOf?, outline?, scopes, List.getElem?_modify]
    cases builder.scopes[scope]? with
    | none => rfl
    | some found => by_cases root : ScopeTree.rootId = scope <;> simp [root, Scope.outline]
  have ends : (fun scope => (tree.scopes[scope]?).bind Scope.exit) =
      fun scope => if scope = ScopeTree.rootId then some tree.unit.endPoint
        else builder.endOf? scope := by
    funext scope
    have bounded := wellFormed.bounded _ isOpen
    simp only [endOf?, outline?, scopes, List.getElem?_modify]
    by_cases root : scope = ScopeTree.rootId
    · subst root
      simp [List.getElem?_eq_getElem bounded]
    · rw [if_neg root]
      cases builder.scopes[scope]? <;> simp [Ne.symm root, Scope.outline]
  refine ⟨?_, ?_⟩
  · rw [count, parents, starts, ends]
    refine nested.nests.close (wellFormed.unended _ isOpen)
      (fun start starts => wellFormed.start_le isOpen starts) ?_
    intro child up
    rw [← isRoot] at up
    exact nested.ended_of_parent wellFormed up
  · intro scope bounded
    rw [congrFun ends scope]
    split
    · rfl
    · next other =>
        rw [count] at bounded
        obtain ⟨stop, ended, _⟩ := wellFormed.ended scope bounded (by simpa [rooted] using other)
        rw [ended]
        rfl

namespace CodeUnit

variable {unit : CodeUnit} {tree : ScopeTree}

theorem nested_scopeTree (built : unit.scopeTree = .ok tree) : tree.Nested := by
  obtain ⟨same, last, reached, wellFormed, finished⟩ := finish_of_scopeTree built
  subst same
  exact (nested_builderAt (Nat.le_refl _) reached).finish wellFormed finished

theorem balanced_of_scopeTree (built : unit.scopeTree = .ok tree) : unit.Balanced := by
  rw [scopeTree, bind_eq_ok_iff] at built
  obtain ⟨last, taken, finished⟩ := built
  have depth := Builder.depthAfter?_run taken
  have single := (Builder.finish_cases finished).1
  have none : last.outer = [] := (List.cons.inj single).2
  rw [none] at depth
  exact depth

/-- The scopes of a tree nest as the statements of the unit say.  Markers are balanced; laid out
flat, the outermost scope gives the points of all statements in order, and nothing else; the walk
along parents ends, and tells of any two scopes whether the points of one lie around those of the
other.  The points of two scopes are nested, the inner scope ending first, or apart. -/
theorem scopes_nest_as_written (built : unit.scopeTree = .ok tree) :
    unit.Balanced ∧
      (∃ root, tree.scopes[ScopeTree.rootId]? = some root ∧
        ∀ points, Flattens (tree.scopes[·]?) root.items points ↔
          points = List.range unit.statements.length) ∧
      ∀ outer inner, outer < tree.scopes.length → inner < tree.scopes.length →
        tree.Climbs outer (some inner) (tree.isAncestor outer inner) ∧
        (tree.isAncestor outer inner = true ↔
          tree.enterPoint outer ≤ tree.enterPoint inner ∧
            tree.exitPoint inner ≤ tree.exitPoint outer) ∧
        (outer ≠ inner →
          (tree.enterPoint outer ≤ tree.enterPoint inner ∧
            tree.exitPoint inner < tree.exitPoint outer) ∨
          (tree.enterPoint inner ≤ tree.enterPoint outer ∧
            tree.exitPoint outer < tree.exitPoint inner) ∨
          tree.exitPoint outer < tree.enterPoint inner ∨
          tree.exitPoint inner < tree.enterPoint outer) := by
  have nested := nested_scopeTree built
  refine ⟨balanced_of_scopeTree built, ?_, ?_⟩
  · obtain ⟨root, listed, flat⟩ := flattens_root built
    refine ⟨root, listed, ?_⟩
    intro points
    constructor
    · exact fun other => other.unique flat
    · rintro rfl
      exact flat
  · intro outer inner outside inside
    refine ⟨nested.climbs_chain (Nat.lt_succ_self _) inside, ?_, ?_⟩
    · rw [nested.isAncestor_iff, nested.around_iff outside inside]
    · intro distinct
      rcases Nat.lt_or_gt_of_ne distinct with older | younger
      · rcases nested.around_or_before older inside with around | before
        · obtain ⟨entered, left⟩ := nested.within_of_around around
          exact .inl ⟨entered, left.resolve_left distinct⟩
        · exact .inr (.inr (.inl before))
      · rcases nested.around_or_before younger outside with around | before
        · obtain ⟨entered, left⟩ := nested.within_of_around around
          exact .inr (.inl ⟨entered, left.resolve_left (Ne.symm distinct)⟩)
        · exact .inr (.inr (.inr before))

end CodeUnit

def blocks : CodeUnit where
  name := "blocks"
  statements := [.enter, .enter, .declare (.str "x") (.bool true) (.bool false), .exit, .exit,
    .enter, .exit].map fun action => { action }

/-- The first block is entered where the unit starts, and is told from the whole unit by its end;
the last block is apart from it. -/
theorem blocks_nest :
    ∃ tree root, blocks.scopeTree = .ok tree ∧ tree.enterPoint 0 = tree.enterPoint 1 ∧
      blocks.Balanced ∧ tree.scopes[ScopeTree.rootId]? = some root ∧
      Flattens (tree.scopes[·]?) root.items [0, 1, 2, 3, 4, 5, 6] ∧
      tree.Climbs 0 (some 1) true ∧ tree.Climbs 1 (some 0) false ∧ tree.Climbs 1 (some 3) false ∧
      tree.exitPoint 1 ≤ tree.exitPoint 0 ∧ ¬tree.exitPoint 3 ≤ tree.exitPoint 1 := by
  have known : (blocks.scopeTree.toOption.map fun tree =>
      (tree.scopes.length, [0, 1, 3].map tree.enterPoint,
        [tree.isAncestor 0 1, tree.isAncestor 1 0, tree.isAncestor 1 3])) =
      some (4, [0, 0, 5], [true, false, false]) := by decide
  obtain ⟨tree, found, facts⟩ := Option.map_eq_some_iff.mp known
  have built := toOption_eq_some_iff.mp found
  simp only [Prod.mk.injEq, List.map_cons, List.map_nil, List.cons.injEq, and_true] at facts
  obtain ⟨count, ⟨rootEnter, firstEnter, lastEnter⟩, inRoot, around, apart⟩ := facts
  obtain ⟨balanced, ⟨root, listed, flat⟩, pairs⟩ := CodeUnit.scopes_nest_as_written built
  rw [count] at pairs
  obtain ⟨down, downIff, _⟩ := pairs 0 1 (by decide) (by decide)
  obtain ⟨up, _⟩ := pairs 1 0 (by decide) (by decide)
  obtain ⟨beside, besideIff, _⟩ := pairs 1 3 (by decide) (by decide)
  rw [inRoot] at down
  rw [around] at up
  rw [apart] at beside
  refine ⟨tree, root, built, rootEnter.trans firstEnter.symm, balanced, listed, (flat _).mpr rfl,
    down, up, beside, (downIff.mp inRoot).2, ?_⟩
  intro within
  have entered : tree.enterPoint 1 ≤ tree.enterPoint 3 := by
    rw [firstEnter, lastEnter]
    decide
  rw [besideIff.mpr ⟨entered, within⟩] at apart
  cases apart

end LoanCheck
