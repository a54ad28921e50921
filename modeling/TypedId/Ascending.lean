/-!
# Ascending lists

Lists whose members stand in strictly ascending order of a number.
-/

namespace TypedId

/-- In an ascending list the number tells the members apart. -/
theorem eq_of_ascending {α : Type} {f : α → Nat} {l : List α} {a b : α}
    (hl : l.Pairwise fun a b => f a < f b) (ha : a ∈ l) (hb : b ∈ l) (h : f a = f b) : a = b := by
  induction l with
  | nil => exact absurd ha (List.not_mem_nil)
  | cons c l ih =>
    obtain ⟨hc, hl⟩ := List.pairwise_cons.1 hl
    rcases List.mem_cons.1 ha with ea | ma <;> rcases List.mem_cons.1 hb with eb | mb
    · rw [ea, eb]
    · exact absurd h (by rw [ea]; exact Nat.ne_of_lt (hc b mb))
    · exact absurd h (by rw [eb]; exact (Nat.ne_of_lt (hc a ma)).symm)
    · exact ih hl ma mb

/-- An ascending list is known by its members. -/
theorem eq_of_ascending_of_mem {α : Type} {f : α → Nat} {l l' : List α}
    (hl : l.Pairwise fun a b => f a < f b) (hl' : l'.Pairwise fun a b => f a < f b)
    (h : ∀ a, a ∈ l ↔ a ∈ l') : l = l' := by
  have hnodup : ∀ {l : List α}, l.Pairwise (fun a b => f a < f b) → l.Nodup := fun hl =>
    hl.imp fun hlt e => absurd (e ▸ hlt) (Nat.lt_irrefl _)
  have hperm : l.Perm l' := (List.perm_ext_iff_of_nodup (hnodup hl) (hnodup hl')).2 h
  refine hperm.eq_of_pairwise (fun a b _ _ hab hba => ?_) hl hl'
  exact absurd (Nat.lt_trans hab hba) (Nat.lt_irrefl _)

end TypedId
