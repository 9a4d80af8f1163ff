import Mathlib.Data.List.Forall2

/-!
# Lists and attempts

What is used of lists, and of attempts that may fail, in several parts of the development.
-/

namespace LoanCheck

section Lists

variable {Alpha Beta : Type} {values : List Alpha} {last value : Alpha} {index : Nat}

theorem getElem?_concat (values : List Alpha) (last : Alpha) (index : Nat) :
    (values ++ [last])[index]? = if index = values.length then some last else values[index]? := by
  rcases Nat.lt_trichotomy index values.length with inside | rfl | beyond
  · rw [List.getElem?_append_left inside, if_neg (Nat.ne_of_lt inside)]
  · rw [if_pos rfl, List.getElem?_concat_length]
  · rw [if_neg (Nat.ne_of_gt beyond), List.getElem?_eq_none (Nat.le_of_lt beyond)]
    apply List.getElem?_eq_none
    rw [List.length_append]
    exact Nat.succ_le_of_lt beyond

theorem getElem?_concat_eq_some_iff :
    (values ++ [last])[index]? = some value ↔
      values[index]? = some value ∨ (index = values.length ∧ last = value) := by
  rw [getElem?_concat]
  by_cases atEnd : index = values.length
  · simp [atEnd]
  · simp [atEnd]

/-- What belongs to each item of a list is listed where the items are. -/
theorem exists_of_mem_left {related : Alpha → Beta → Prop} {items : List Alpha}
    {results : List Beta} (pairs : List.Forall₂ related items results) {item : Alpha}
    (listed : item ∈ items) : ∃ result ∈ results, related item result := by
  induction pairs with
  | nil => cases listed
  | cons first _ inductionHypothesis =>
      rcases List.mem_cons.mp listed with rfl | later
      · exact ⟨_, List.mem_cons_self, first⟩
      · obtain ⟨result, found, holds⟩ := inductionHypothesis later
        exact ⟨result, List.mem_cons_of_mem _ found, holds⟩

theorem exists_of_mem_right {related : Alpha → Beta → Prop} {items : List Alpha}
    {results : List Beta} (pairs : List.Forall₂ related items results) {result : Beta}
    (listed : result ∈ results) : ∃ item ∈ items, related item result :=
  exists_of_mem_left pairs.flip listed

end Lists

section Attempts

variable {Error Alpha Beta : Type} {first : Except Error Alpha} {error : Error}

theorem bind_of_ok {value : Alpha} (succeeded : first = .ok value)
    (next : Alpha → Except Error Beta) : first >>= next = next value := by
  rw [succeeded]
  rfl

theorem bind_eq_ok_iff {rest : Alpha → Except Error Beta} {result : Beta} :
    (first >>= rest) = .ok result ↔ ∃ value, first = .ok value ∧ rest value = .ok result := by
  cases first <;> simp [bind, Except.bind]

theorem bind_eq_error_iff {second : Alpha → Except Error Beta} :
    first >>= second = .error error ↔
      first = .error error ∨ ∃ value, first = .ok value ∧ second value = .error error := by
  cases first with
  | error other => simp [bind, Except.bind]
  | ok value => simp [bind, Except.bind]

/-- Where the second attempt never fails in some way, the first is the one that does. -/
theorem bind_eq_error_iff_left {second : Alpha → Except Error Beta}
    (never : ∀ value, second value ≠ .error error) :
    first >>= second = .error error ↔ first = .error error := by
  rw [bind_eq_error_iff, or_iff_left]
  rintro ⟨value, -, failed⟩
  exact never value failed

theorem map_eq_ok_iff {change : Alpha → Beta} {result : Beta} :
    change <$> first = .ok result ↔ ∃ value, first = .ok value ∧ change value = result := by
  cases first <;> simp [Functor.map, Except.map]

theorem toOption_eq_some_iff {value : Alpha} : first.toOption = some value ↔ first = .ok value := by
  cases first <;> simp [Except.toOption]

end Attempts

section Traversal

variable {Error Alpha Beta : Type} {attempt : Alpha → Except Error Beta} {items : List Alpha}

theorem exists_mapM_eq_ok (all : ∀ item ∈ items, ∃ result, attempt item = .ok result) :
    ∃ results, items.mapM attempt = .ok results ∧
      List.Forall₂ (fun item result => attempt item = .ok result) items results := by
  induction items with
  | nil => exact ⟨[], rfl, .nil⟩
  | cons item rest inductionHypothesis =>
      obtain ⟨first, succeeded⟩ := all item List.mem_cons_self
      obtain ⟨others, tried, related⟩ :=
        inductionHypothesis fun other listed => all other (List.mem_cons_of_mem item listed)
      refine ⟨first :: others, ?_, .cons succeeded related⟩
      rw [List.mapM_cons, bind_of_ok succeeded, bind_of_ok tried]
      rfl

theorem exists_mapM_eq_error {item : Alpha} (listed : item ∈ items) {error : Error}
    (failed : attempt item = .error error) : ∃ first, items.mapM attempt = .error first := by
  induction items with
  | nil => cases listed
  | cons head rest inductionHypothesis =>
      rw [List.mapM_cons]
      cases tried : attempt head with
      | error first => exact ⟨first, rfl⟩
      | ok value =>
          rcases List.mem_cons.mp listed with rfl | later
          · rw [failed] at tried
            cases tried
          · obtain ⟨first, stopped⟩ := inductionHypothesis later
            refine ⟨first, ?_⟩
            rw [stopped]
            rfl

/-- Where every step of an attempt succeeds, so does the whole attempt. -/
theorem foldlM_eq_ok {Subject Item : Type} (holds : Subject → Prop)
    {attempt : Subject → Item → Except Error Subject} {perform : Subject → Item → Subject}
    (succeeds : ∀ subject item, holds subject → attempt subject item = .ok (perform subject item))
    (keeps : ∀ subject item, holds subject → holds (perform subject item))
    (items : List Item) {subject : Subject} (start : holds subject) :
    items.foldlM attempt subject = .ok (items.foldl perform subject) := by
  induction items generalizing subject with
  | nil => rfl
  | cons item rest inductionHypothesis =>
      rw [List.foldlM_cons, succeeds subject item start]
      exact inductionHypothesis (keeps subject item start)

end Traversal

end LoanCheck
