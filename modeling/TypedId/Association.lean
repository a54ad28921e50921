/-!
# Association lists

The first pair with a key decides what the list assigns to it.
-/

namespace TypedId

variable {α β : Type} [DecidableEq α] [BEq α] [LawfulBEq α]

theorem lookup_cons_eq (l : List (α × β)) (k j : α) (v : β) :
    ((k, v) :: l).lookup j = if j = k then some v else l.lookup j := by
  by_cases h : j = k
  · simp [h]
  · have : (j == k) = false := by simpa using h
    simp [List.lookup_cons, h, this]

/-- Of what a list assigns, a filter on keys keeps what it assigns to keys that pass. -/
theorem lookup_filter (p : α → Bool) (l : List (α × β)) (j : α) :
    (l.filter fun e => p e.1).lookup j = if p j then l.lookup j else none := by
  induction l with
  | nil => simp
  | cons e l ih =>
    obtain ⟨i, v⟩ := e
    rw [List.filter_cons, lookup_cons_eq]
    by_cases hi : p i
    · rw [if_pos hi, lookup_cons_eq, ih]
      by_cases hj : j = i
      · simp [hj, hi]
      · simp [hj]
    · rw [if_neg hi, ih]
      by_cases hj : j = i
      · simp [hj, hi]
      · simp [hj]

theorem lookup_filter_ne (l : List (α × β)) (k j : α) :
    (l.filter (·.1 ≠ k)).lookup j = if j = k then none else l.lookup j := by
  rw [lookup_filter (fun i => decide (i ≠ k))]
  by_cases hj : j = k <;> simp [hj]

end TypedId
