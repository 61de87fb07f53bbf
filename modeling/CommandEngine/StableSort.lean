/-!
# Stable sorting

A list is sorted by inserting its values from the last to the first, each in front of the first
value it may precede. Whatever the relation, the result holds the same values; for a total and
transitive one it is in order; and because an earlier value is inserted later and in front of its
equals, values that may precede each other keep their order. The recursion is on the list, so a sort
of a concrete list can be computed inside a proof.
-/

namespace CommandEngine

variable {α : Type}

/-- Insert a value in front of the first one it may precede. -/
def insertBefore (mayPrecede : α → α → Bool) (value : α) : List α → List α
  | [] => [value]
  | next :: rest =>
    if mayPrecede value next then value :: next :: rest
    else next :: insertBefore mayPrecede value rest

/-- The values of a list in an order, those that may precede each other as they were. -/
def stableSort (mayPrecede : α → α → Bool) : List α → List α
  | [] => []
  | value :: rest => insertBefore mayPrecede value (stableSort mayPrecede rest)

/-- Inserting adds the value and nothing else. -/
theorem perm_insertBefore (mayPrecede : α → α → Bool) (value : α) (values : List α) :
    (insertBefore mayPrecede value values).Perm (value :: values) := by
  induction values with
  | nil => exact .refl _
  | cons next rest ih =>
    by_cases first : mayPrecede value next
    · simp [insertBefore, first]
    · rw [insertBefore, if_neg first]
      exact (ih.cons next).trans (.swap value next rest)

/-- Sorting keeps every value and adds none. -/
theorem perm_stableSort (mayPrecede : α → α → Bool) (values : List α) :
    (stableSort mayPrecede values).Perm values := by
  induction values with
  | nil => exact .refl _
  | cons value rest ih => exact (perm_insertBefore mayPrecede value _).trans (ih.cons value)

/-- Under a total and transitive relation, inserting into a list in order leaves it in order. -/
theorem pairwise_insertBefore {mayPrecede : α → α → Bool}
    (transitive : ∀ a b c, mayPrecede a b → mayPrecede b c → mayPrecede a c)
    (total : ∀ a b, ¬ mayPrecede a b → mayPrecede b a) (value : α) {values : List α}
    (inOrder : values.Pairwise (mayPrecede · ·)) :
    (insertBefore mayPrecede value values).Pairwise (mayPrecede · ·) := by
  induction values with
  | nil => exact .cons (fun _ absurd => nomatch absurd) .nil
  | cons next rest ih =>
    obtain ⟨after, restInOrder⟩ := List.pairwise_cons.1 inOrder
    by_cases first : mayPrecede value next
    · rw [insertBefore, if_pos first]
      refine .cons (fun other here => ?_) inOrder
      rcases List.mem_cons.1 here with rfl | later
      · exact first
      · exact transitive _ _ _ first (after other later)
    · rw [insertBefore, if_neg first]
      refine .cons (fun other here => ?_) (ih restInOrder)
      rcases List.mem_cons.1 ((perm_insertBefore mayPrecede value rest).mem_iff.1 here) with
        rfl | later
      · exact total _ _ first
      · exact after other later

/-- Under a total and transitive relation, sorting puts a list in order. -/
theorem pairwise_stableSort {mayPrecede : α → α → Bool}
    (transitive : ∀ a b c, mayPrecede a b → mayPrecede b c → mayPrecede a c)
    (total : ∀ a b, ¬ mayPrecede a b → mayPrecede b a) (values : List α) :
    (stableSort mayPrecede values).Pairwise (mayPrecede · ·) := by
  induction values with
  | nil => exact .nil
  | cons value rest ih => exact pairwise_insertBefore transitive total value ih

end CommandEngine
