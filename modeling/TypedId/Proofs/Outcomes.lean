import Mathlib.Data.List.Forall2

/-!
# Outcomes

How steps that can fail are put together: what a row of steps gives, and which step stops it.
-/

namespace TypedId

theorem ok_bind {ε α β : Type} (a : α) (f : α → Except ε β) : (Except.ok a >>= f) = f a := rfl

theorem bind_eq_ok {ε α β : Type} {x : Except ε α} {f : α → Except ε β} {b : β} :
    (x >>= f) = .ok b ↔ ∃ a, x = .ok a ∧ f a = .ok b := by
  cases x <;> simp [bind, Except.bind]

theorem bind_eq_error {ε α β : Type} {x : Except ε α} {f : α → Except ε β} {e : ε} :
    (x >>= f) = .error e ↔ x = .error e ∨ ∃ a, x = .ok a ∧ f a = .error e := by
  cases x <;> simp [bind, Except.bind]

theorem mapM_eq_ok {ε α β : Type} {f : α → Except ε β} {l : List α} {r : List β} :
    l.mapM f = .ok r ↔ List.Forall₂ (fun a b => f a = .ok b) l r := by
  induction l generalizing r with
  | nil => cases r <;> simp [pure, Except.pure]
  | cons a l ih =>
    rw [List.mapM_cons, bind_eq_ok]
    simp only [bind_eq_ok, ih]
    constructor
    · rintro ⟨b, hb, bs, hbs, h⟩
      cases h
      exact .cons hb hbs
    · intro h
      cases h with
      | cons hb hbs => exact ⟨_, hb, _, hbs, rfl⟩

/-- A row of steps fails with the failure of the first step that fails. -/
theorem mapM_eq_error_iff {ε α β : Type} {f : α → Except ε β} {l : List α} {e : ε} :
    l.mapM f = .error e ↔ ∃ before a after, l = before ++ a :: after ∧
      (∀ x ∈ before, ∃ b, f x = .ok b) ∧ f a = .error e := by
  induction l with
  | nil => simp [pure, Except.pure]
  | cons a l ih =>
    rw [List.mapM_cons, bind_eq_error]
    constructor
    · rintro (ha | ⟨b, hb, h⟩)
      · exact ⟨[], a, l, rfl, by simp, ha⟩
      · have hl : l.mapM f = .error e := by
          cases hl : l.mapM f with
          | error e' =>
            rw [hl] at h
            exact h
          | ok bs =>
            rw [hl] at h
            cases h
        obtain ⟨before, x, after, rfl, hbefore, hx⟩ := ih.1 hl
        exact ⟨a :: before, x, after, rfl, List.forall_mem_cons.2 ⟨⟨b, hb⟩, hbefore⟩, hx⟩
    · rintro ⟨before, x, after, hl, hbefore, hx⟩
      cases before with
      | nil =>
        cases hl
        exact Or.inl hx
      | cons y before =>
        cases hl
        obtain ⟨⟨b, hb⟩, hbefore⟩ := List.forall_mem_cons.1 hbefore
        refine Or.inr ⟨b, hb, ?_⟩
        rw [ih.2 ⟨before, x, after, rfl, hbefore, hx⟩]
        rfl

theorem mapM_eq_error {ε α β : Type} {f : α → Except ε β} {l : List α} {e : ε}
    (h : l.mapM f = .error e) : ∃ a ∈ l, f a = .error e := by
  obtain ⟨before, a, after, rfl, -, ha⟩ := mapM_eq_error_iff.1 h
  exact ⟨a, by simp, ha⟩

theorem mapError_eq_ok {ε ε' α : Type} {f : ε → ε'} {x : Except ε α} {a : α} :
    x.mapError f = .ok a ↔ x = .ok a := by
  cases x <;> simp [Except.mapError]

theorem mapError_eq_error {ε ε' α : Type} {f : ε → ε'} {x : Except ε α} {e' : ε'} :
    x.mapError f = .error e' ↔ ∃ e, x = .error e ∧ f e = e' := by
  cases x <;> simp [Except.mapError]

theorem map_eq_ok {ε α β : Type} {f : α → β} {x : Except ε α} {b : β} :
    x.map f = .ok b ↔ ∃ a, x = .ok a ∧ f a = b := by
  cases x <;> simp [Except.map]

theorem map_eq_error {ε α β : Type} {f : α → β} {x : Except ε α} {e : ε} :
    x.map f = .error e ↔ x = .error e := by
  cases x <;> simp [Except.map]

theorem map_some_eq_ok {ε α : Type} {x : Except ε α} {o : Option α} :
    some <$> x = .ok o ↔ ∃ a, x = .ok a ∧ o = some a :=
  map_eq_ok.trans (exists_congr fun _ => and_congr_right fun _ => eq_comm)

theorem map_some_eq_error {ε α : Type} {x : Except ε α} {e : ε} :
    some <$> x = .error e ↔ x = .error e := map_eq_error

theorem mapM_some_eq_ok {ε α β : Type} {f : α → Except ε β} {a : α} {o : Option β} :
    (some a).mapM f = .ok o ↔ ∃ b, f a = .ok b ∧ o = some b := by
  rw [Option.mapM_some, map_some_eq_ok]

theorem mapM_eq_ok_some {ε α β : Type} {f : α → Except ε β} {o : Option α} {b : β} :
    o.mapM f = .ok (some b) ↔ ∃ a, o = some a ∧ f a = .ok b := by
  cases o with
  | none => simp [pure, Except.pure]
  | some a => simp [map_some_eq_ok]

theorem option_mapM_eq_error {ε α β : Type} {f : α → Except ε β} {o : Option α} {e : ε} :
    o.mapM f = .error e ↔ ∃ a, o = some a ∧ f a = .error e := by
  cases o with
  | none => simp [pure, Except.pure]
  | some a => simp [map_some_eq_error]

theorem exists_option_mapM_iff {ε α β : Type} {f : α → Except ε β} {o : Option α} :
    (∃ r, o.mapM f = .ok r) ↔ ∀ a ∈ o, ∃ b, f a = .ok b := by
  cases o with
  | none => simp [pure, Except.pure]
  | some a => simp [map_some_eq_ok]

/-- Two rows of steps give what one row of the steps together gives. -/
theorem exists_forall₂_comp {α β γ : Type} {r : α → β → Prop} {s : β → γ → Prop} {l : List α}
    {n : List γ} :
    (∃ m, List.Forall₂ r l m ∧ List.Forall₂ s m n) ↔
      List.Forall₂ (fun a c => ∃ b, r a b ∧ s b c) l n := by
  induction l generalizing n with
  | nil => cases n <;> simp
  | cons a l ih =>
    cases n with
    | nil => simp
    | cons c n =>
      rw [List.forall₂_cons, ← ih]
      constructor
      · intro ⟨m, hr, hs⟩
        cases hr with
        | cons hab hr =>
          cases hs with
          | cons hbc hs => exact ⟨⟨_, hab, hbc⟩, _, hr, hs⟩
      · intro ⟨⟨b, hab, hbc⟩, m, hr, hs⟩
        exact ⟨b :: m, .cons hab hr, .cons hbc hs⟩

end TypedId
