import TypedId.Proofs.Leftmost

/-!
# Rendering

Filling in a value cuts a text at the leftmost occurrence of the token, again and again, until none
is left. Rendering fills in the name and refuses what holds a placeholder then; what it gives out it
gives back unchanged, under any name and any key.
-/

namespace TypedId

namespace Text

/-- Every occurrence of the token, from the left and without overlap, gives way to the value. -/
inductive Filled (token value : Text) : Text → Text → Prop
  | absent {s : Text} (h : ¬ token <:+: s) : Filled token value s s
  | leftmost {s before after rest : Text} (h : Leftmost (· = token) s before token after)
      (hrest : Filled token value after rest) : Filled token value s (before ++ (value ++ rest))

variable {token s before after r : Text}

theorem Filled.cons {value : Text} {c : Char} (hc : ¬ token <+: c :: s)
    (h : Filled token value s r) : Filled token value (c :: s) (c :: r) := by
  cases h with
  | absent h => exact .absent fun hi => (List.infix_cons_iff.1 hi).elim hc h
  | leftmost h hrest => exact .leftmost ((Leftmost.needle_cons_iff hc).2 ⟨_, rfl, h⟩) hrest

theorem filled_substitute (hne : token ≠ []) (value s : Text) :
    Filled token value s (substitute token value s) := by
  induction s using walk_induction hne with
  | nil =>
    rw [substitute_nil]
    exact .absent fun hi => hne (List.infix_nil.1 hi)
  | token_append s ih =>
    rw [substitute_token_append hne]
    exact .leftmost (Leftmost.here (P := (· = token)) rfl s) ih
  | cons c s hc ih =>
    rw [substitute_cons hc]
    exact ih.cons hc

/-- The walk passes over what stands before the leftmost occurrence. -/
theorem substitute_leftmost (hne : token ≠ []) (value : Text)
    (h : Leftmost (· = token) s before token after) :
    substitute token value s = before ++ (value ++ substitute token value after) := by
  induction before generalizing s with
  | nil => rw [h.split, List.nil_append, List.nil_append, substitute_token_append hne]
  | cons c before ih =>
    have hs : s = c :: (before ++ (token ++ after)) := h.split
    subst hs
    have hc : ¬ token <+: c :: (before ++ (token ++ after)) := by
      intro ⟨rest, hrest⟩
      cases h.eq_nil hrest.symm rfl
    obtain ⟨b, hb, hbehind⟩ := (Leftmost.needle_cons_iff hc).1 h
    have hsame : before = b := (List.cons.inj hb).2
    rw [substitute_cons hc, ih (hsame ▸ hbehind), List.cons_append]

/-- The walk fills in every occurrence, and no other text comes of that. -/
theorem filled_iff {value : Text} (hne : token ≠ []) :
    Filled token value s r ↔ r = substitute token value s := by
  constructor
  · intro h
    induction h with
    | absent h => exact (substitute_of_absent value h).symm
    | leftmost h _ ih => rw [substitute_leftmost hne value h, ← ih]
  · intro h
    rw [h]
    exact filled_substitute hne value s

end Text

namespace Placeholder

open Text

theorem filled_typeToken {name s r : Text} :
    Filled typeToken name s r ↔ r = substitute typeToken name s :=
  filled_iff isPlaceholder_typeToken.ne_nil

theorem render_eq_error_iff_leftmost {name : Text} {key : Key} {s : Text} {f : Failure} :
    render name key s = .error f ↔ ∃ before token after,
      Leftmost IsPlaceholder (substitute typeToken name s) before token after ∧
        f = .unresolved name key token := by
  simp only [render_eq_error, first?_eq_some_iff]
  constructor
  · intro ⟨token, ⟨before, after, hleft⟩, hf⟩
    exact ⟨before, token, after, hleft, hf⟩
  · intro ⟨before, token, after, hleft, hf⟩
    exact ⟨token, ⟨before, after, hleft⟩, hf⟩

/-- The texts without a placeholder are those that rendering gives back, whatever the name. -/
theorem render_eq_self {name : Text} {key : Key} {s : Text} :
    render name key s = .ok s ↔ ¬ Leftover s := by
  rw [render_eq_ok]
  constructor
  · intro ⟨_, h⟩
    exact h
  · intro h
    exact ⟨(substitute_of_not_leftover h name).symm, h⟩

theorem render_render {name : Text} {key : Key} {s r : Text} (h : render name key s = .ok r)
    (name' : Text) (key' : Key) : render name' key' r = .ok r :=
  render_eq_self.2 (render_eq_ok.1 h).2

/-- Rendering on, under any names and keys, leaves the first outcome as it is. -/
theorem render_bind_foldlM (name : Text) (key : Key) (s : Text) (later : List (Text × Key)) :
    (render name key s >>= later.foldlM fun t e => render e.1 e.2 t) = render name key s := by
  cases h : render name key s with
  | error f => rfl
  | ok r =>
    change later.foldlM (fun t e => render e.1 e.2 t) r = .ok r
    induction later with
    | nil => rfl
    | cons e later ih =>
      rw [List.foldlM_cons, render_render h]
      exact ih

/-- Rendering gives out the filled text if no placeholder stands in it and gives this text back from
then on; any other text it refuses for the placeholder that starts leftmost. -/
theorem render_settled (name : Text) (key : Key) (s : Text) :
    (∃! r, Filled typeToken name s r) ∧
    (∀ r, render name key s = .ok r ↔ Filled typeToken name s r ∧ ¬ Leftover r) ∧
    (∀ f, render name key s = .error f ↔ ∃ r before token after,
      Filled typeToken name s r ∧ Leftmost IsPlaceholder r before token after ∧
        f = .unresolved name key token) ∧
    (∀ r, render name key s = .ok r → ∀ name' key', render name' key' r = .ok r) ∧
    ∀ later : List (Text × Key),
      (render name key s >>= later.foldlM fun t e => render e.1 e.2 t) = render name key s := by
  have hfilled := filled_substitute isPlaceholder_typeToken.ne_nil name s
  refine ⟨⟨_, hfilled, fun r hr => filled_typeToken.1 hr⟩, fun r => ?_, fun f => ?_,
    fun r h => render_render h, render_bind_foldlM name key s⟩
  · rw [filled_typeToken, render_eq_ok]
  · rw [render_eq_error_iff_leftmost]
    constructor
    · intro ⟨before, token, after, hleft, hf⟩
      exact ⟨_, before, token, after, hfilled, hleft, hf⟩
    · intro ⟨r, before, token, after, hr, hleft, hf⟩
      have hsame : r = substitute typeToken name s := filled_typeToken.1 hr
      exact ⟨before, token, after, hsame ▸ hleft, hf⟩

/-- A name may hold braces, and a pair around a digit is plain text. -/
theorem render_bracedName :
    render "A\x7d\x7d".toList (.base .int) "\x7b\x7b\x7bTYPE\x7d\x7d \x7b\x7b0\x7d\x7d".toList =
      .ok "\x7bA\x7d\x7d \x7b\x7b0\x7d\x7d".toList ∧
    ∀ name' key', render name' key' "\x7bA\x7d\x7d \x7b\x7b0\x7d\x7d".toList =
      .ok "\x7bA\x7d\x7d \x7b\x7b0\x7d\x7d".toList := by
  have h : render "A\x7d\x7d".toList (.base .int)
      "\x7b\x7b\x7bTYPE\x7d\x7d \x7b\x7b0\x7d\x7d".toList =
        .ok "\x7bA\x7d\x7d \x7b\x7b0\x7d\x7d".toList := by decide
  exact ⟨h, (render_settled _ _ _).2.2.2.1 _ h⟩

/-- Without a name the text around its slot makes the name token anew. -/
example : render [] (.base .int) "\x7b\x7bTY\x7b\x7bTYPE\x7d\x7dPE\x7d\x7d".toList =
    .error (.unresolved [] (.base .int) typeToken) := by decide

end Placeholder
end TypedId
