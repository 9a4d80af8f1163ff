import LoanCheck.Proofs.Loan.Ledger

/-!
# Calls on one set of borrows

Two rules say which borrows may stand together: one looks for a borrow that forbids a new one,
the other judges a set as a whole.  On every set that calls lead to they agree, so a borrow is
entered exactly if nothing forbids it, and a call that fails leaves the set as it was.
-/

namespace LoanCheck.BorrowSet

variable (grants : BorrowSet)

/-- A set that is valid with one more borrow has none that forbids it. -/
theorem conflict?_eq_none_of_isValid_concat {grant : Grant}
    (valid : BorrowSet.isValid (grants ++ [grant]) = true) :
    grants.conflict? grant.kind = none := by
  rw [conflict?_eq_none_iff]
  intro other membership
  rcases (isValid_iff _).mp valid with allShared | ⟨single, same⟩
  · exact ⟨allShared grant (by simp), allShared other (List.mem_append_left _ membership)⟩
  · -- The only borrow of the longer set is the last one, so there is no other.
    obtain rfl : grants = [] := by
      have length := congrArg List.length same
      simpa using length
    exact absurd membership List.not_mem_nil

/-- Judging the set with the new borrow and looking for one that forbids it come to the same. -/
theorem isValid_concat_iff (grant : Grant) :
    BorrowSet.isValid (grants ++ [grant]) = true ↔ grants.conflict? grant.kind = none :=
  ⟨conflict?_eq_none_of_isValid_concat grants, isValid_concat grants grant⟩

/-- A call does what the operation it asks for does, and a failed one does nothing. -/
theorem call_add (grant : Grant) :
    grants.call (.add grant) =
      match grants.add grant with
      | .ok entered => (entered, .ok ())
      | .error error => (grants, .error error) := by
  simp only [call, add]
  split
  · rfl
  · rw [List.dropLast_concat]

theorem call_add_succeeds_iff (grant : Grant) :
    (grants.call (.add grant)).2 = .ok () ↔ grants.conflict? grant.kind = none := by
  rw [← isValid_concat_iff, call]
  split
  · next valid => exact iff_of_true rfl valid
  · next invalid =>
      refine iff_of_false ?_ invalid
      intro same
      cases same

variable {grants}

theorem call_of_error {call : BorrowSetCall} {error : BorrowSetError}
    (failed : (grants.call call).2 = .error error) : (grants.call call).1 = grants := by
  cases call with
  | add grant =>
      rw [call_add] at failed ⊢
      split at failed
      · cases failed
      · rfl
  | remove id =>
      simp only [BorrowSet.call] at failed ⊢
      split at failed
      · cases failed
      · rfl

theorem sublist_of_remove {id : BorrowId} {fewer : BorrowSet}
    (removed : grants.remove id = .ok fewer) : fewer.Sublist grants := by
  unfold remove at removed
  split at removed
  · cases removed
    exact List.eraseP_sublist
  · cases removed

/-- A borrow is entered only if the set is valid with it, and removing one leaves fewer. -/
theorem isValid_call (valid : grants.isValid = true) (call : BorrowSetCall) :
    (grants.call call).1.isValid = true := by
  cases result : (grants.call call).2 with
  | error error =>
      rw [call_of_error result]
      exact valid
  | ok =>
      cases call with
      | add grant =>
          have entered := (isValid_concat_iff grants grant).mpr
            ((call_add_succeeds_iff grants grant).mp result)
          rw [BorrowSet.call, if_pos entered]
          exact entered
      | remove id =>
          cases removed : grants.remove id with
          | ok fewer =>
              simp only [BorrowSet.call, removed]
              exact isValid_of_sublist (sublist_of_remove removed) valid
          | error error =>
              simp only [BorrowSet.call, removed]
              exact valid

theorem isValid_callAll (valid : grants.isValid = true) (calls : List BorrowSetCall) :
    (grants.callAll calls).isValid = true := by
  induction calls generalizing grants with
  | nil => exact valid
  | cons call rest inductionHypothesis => exact inductionHypothesis (isValid_call valid call)

/-- Whatever is asked of a set that was empty at first, with borrows entered any number of times
and calls that fail: the set is valid after every call, a call that fails leaves it as it was, and
a borrow forbids another one of some kind exactly if entering one of that kind fails. -/
theorem calls_keep_rule (calls : List BorrowSetCall) :
    let reached := callAll [] calls
    reached.isValid = true ∧
      (∀ call error, (reached.call call).2 = .error error → (reached.call call).1 = reached) ∧
      ∀ kind id, reached.conflict? kind = none ↔ (reached.call (.add ⟨id, kind⟩)).2 = .ok () := by
  intro reached
  refine ⟨isValid_callAll rfl calls, ?_, ?_⟩
  · intro call error failed
    exact call_of_error failed
  · intro kind id
    exact (call_add_succeeds_iff reached ⟨id, kind⟩).symm

/-- One shared borrow entered twice and removed once, after two calls that failed: it forbids an
exclusive one and leaves room for a shared one. -/
theorem calls_keep_rule_repeated :
    let calls : List BorrowSetCall :=
      [.add ⟨0, .shared⟩, .add ⟨1, .exclusive⟩, .add ⟨0, .shared⟩, .remove 1, .remove 0]
    let reached := callAll [] calls
    reached = [⟨0, .shared⟩] ∧ reached.isValid = true ∧
      (reached.call (.add ⟨1, .exclusive⟩)).2 = .error .invariant ∧
      (reached.call (.add ⟨1, .exclusive⟩)).1 = reached ∧
      reached.conflict? .exclusive = some ⟨0, .shared⟩ ∧
      (reached.call (.add ⟨0, .shared⟩)).2 = .ok () := by
  intro calls reached
  have refused : (reached.call (.add ⟨1, .exclusive⟩)).2 = .error .invariant := rfl
  obtain ⟨valid, kept, admitted⟩ := calls_keep_rule calls
  exact ⟨rfl, valid, refused, kept _ _ refused, rfl, (admitted .shared 0).mp rfl⟩

end LoanCheck.BorrowSet
