import TypedId.Catalog.Edit
import TypedId.Proofs.Selection
import TypedId.Proofs.Twins

/-!
# Verdicts and the name of the type

The verdict on a request is whether it gets a unit and, if not, what sort of failure it meets and on
which fragment. Two runs that differ in the name alone work on twin texts, so for alike names they
end in one verdict.
-/

namespace TypedId

/-- The sort of a failure and the fragment it is about. -/
inductive Blame where
  | configuration
  | unknownBits
  | missingFragment (key : Key)
  | unresolved (key : Key)
  | gathering
  | storage
deriving DecidableEq

def Failure.blame : Failure → Blame
  | configuration .. => .configuration
  | unknownBits .. => .unknownBits
  | missingFragment _ key => .missingFragment key
  | unresolved _ key _ => .unresolved key
  | gathering .. => .gathering
  | storage .. => .storage

/-- How a run ended, without what it gave. -/
def verdict {α : Type} : Except Failure α → Except Blame Unit
  | .ok _ => .ok ()
  | .error f => .error f.blame

theorem verdict_eq_ok {α : Type} {x : Except Failure α} :
    verdict x = .ok () ↔ ∃ a, x = .ok a := by
  cases x <;> simp [verdict]

/-! ### Runs side by side -/

/-- Two runs both give results, which are related, or end in failures with one blame. -/
inductive Agree {α β : Type} (R : α → β → Prop) : Except Failure α → Except Failure β → Prop
  | ok {a : α} {b : β} : R a b → Agree R (.ok a) (.ok b)
  | error {f g : Failure} : f.blame = g.blame → Agree R (.error f) (.error g)

namespace Agree

variable {α β γ δ : Type} {R : α → β → Prop} {S : γ → δ → Prop}

theorem verdict_eq {x : Except Failure α} {y : Except Failure β} (h : Agree R x y) :
    verdict x = verdict y := by
  cases h with
  | ok _ => rfl
  | error hb => exact congrArg Except.error hb

theorem bind {x : Except Failure α} {y : Except Failure β} {f : α → Except Failure γ}
    {g : β → Except Failure δ} (h : Agree R x y) (hf : ∀ a b, R a b → Agree S (f a) (g b)) :
    Agree S (x >>= f) (y >>= g) := by
  cases h with
  | ok hr => exact hf _ _ hr
  | error hb => exact .error hb

theorem mapM {ι : Type} {l : List ι} {f : ι → Except Failure α} {g : ι → Except Failure β}
    (h : ∀ e ∈ l, Agree R (f e) (g e)) : Agree (List.Forall₂ R) (l.mapM f) (l.mapM g) := by
  induction l with
  | nil => exact .ok .nil
  | cons e l ih =>
    rw [List.mapM_cons, List.mapM_cons]
    have hl := ih fun x hx => h x (List.mem_cons_of_mem e hx)
    exact (h e List.mem_cons_self).bind fun a b hab =>
      hl.bind fun as bs habs => .ok (.cons hab habs)

end Agree

/-! ### The steps of composing side by side -/

open Placeholder Text

/-- Names that can take each other's place in every scan. -/
structure Interchangeable (n m : Text) : Prop where
  left : isIdentifier n = true
  right : isIdentifier m = true
  /-- Neither completes the name token where it meets the text around it. -/
  left_apart : ¬ n <:+: "TYPE".toList
  right_apart : ¬ m <:+: "TYPE".toList
  /-- Both can stand inside a placeholder, or neither. -/
  inside : n.all isNamePart = m.all isNamePart
  /-- Both can open a placeholder's name, or neither. -/
  front : isName n = isName m

namespace Interchangeable

variable {n m : Text}

theorem render_of_twins (h : Interchangeable n m) (key : Key) {s t : Text}
    (hst : Twins n m (substitute typeToken n s) (substitute typeToken m t)) :
    Agree (Twins n m) (render n key s) (render m key t) := by
  have hl := hst.leftover_iff h.left h.right h.inside h.front
  simp only [render]
  cases hs : first? (substitute typeToken n s) with
  | none =>
    have ht : first? (substitute typeToken m t) = none := by
      rw [first?_eq_none_iff, ← hl, ← first?_eq_none_iff, hs]
    rw [ht]
    exact .ok hst
  | some token =>
    cases ht : first? (substitute typeToken m t) with
    | none =>
      rw [first?_eq_none_iff, ← hl, ← first?_eq_none_iff, hs] at ht
      cases ht
    | some token' => exact .error rfl

/-- A section is rendered alike under both names. -/
theorem render_section (h : Interchangeable n m) (key : Key) (s : Text) :
    Agree (Twins n m) (render n key s) (render m key s) :=
  h.render_of_twins key (Twins.substitute_names isPlaceholder_typeToken.ne_nil s)

/-- And so are twins, which hold names already. -/
theorem render_twins (h : Interchangeable n m) (key : Key) {s t : Text} (hst : Twins n m s t) :
    Agree (Twins n m) (render n key s) (render m key t) :=
  h.render_of_twins key (hst.substitute h.left h.right h.left_apart h.right_apart)

theorem renderAll (h : Interchangeable n m) (pick : Fragment → Option Text) (parts : List Part) :
    Agree (List.Forall₂ (Twins n m)) (Part.renderAll n pick parts)
      (Part.renderAll m pick parts) :=
  Agree.mapM fun e _ => h.render_section e.1 e.2

theorem gather (n m : Text) (c : Catalog) (keys : List Key) :
    Agree Eq (Part.gather n c keys) (Part.gather m c keys) := by
  have hall : Agree (List.Forall₂ Eq) (Part.gather n c keys) (Part.gather m c keys) := by
    refine Agree.mapM fun key _ => ?_
    cases c.lookup key with
    | none => exact .error rfl
    | some f => exact .ok rfl
  revert hall
  generalize Part.gather n c keys = x
  generalize Part.gather m c keys = y
  intro hall
  cases hall with
  | ok he => exact .ok (List.forall₂_eq_eq_eq ▸ he)
  | error hb => exact .error hb

theorem leadingBase {s t : Spec} (hb : s.backing = t.backing) (parts : List Part) :
    Agree Eq (Part.leadingBase s parts) (Part.leadingBase t parts) := by
  unfold Part.leadingBase
  rw [hb]
  cases parts.head?.filter fun p => p.key = .base t.backing with
  | none => exact .error rfl
  | some base => exact .ok rfl

theorem slotted (n m : Text) (key : Key) (slot : Text) (text : Option Text) :
    Agree Eq (Part.slotted n key slot text) (Part.slotted m key slot text) := by
  unfold Part.slotted
  cases text.filter (Text.occursIn slot) with
  | none => exact .error rfl
  | some s => exact .ok rfl

/-- Composing under two names, with selections of the same keys. -/
theorem compose {s t : Spec} (h : Interchangeable s.name t.name) (hb : s.backing = t.backing)
    {sel sel' : Selection} (hkeys : sel.keys = sel'.keys) (c : Catalog) :
    Agree (fun _ _ => True) (s.compose sel c) (t.compose sel' c) := by
  have himpl : sel.implementations = sel'.implementations := by
    rw [Selection.implementations, Selection.implementations, hkeys]
  have hvalidate : validateToken ≠ [] := by decide
  rw [Spec.compose, Spec.compose, ← hkeys, ← himpl]
  refine (gather s.name t.name c sel.keys).bind ?_
  rintro parts _ rfl
  refine (leadingBase hb parts).bind ?_
  rintro base _ rfl
  refine (slotted s.name t.name base.key _ _).bind ?_
  rintro headerText _ rfl
  refine (slotted s.name t.name base.key _ _).bind ?_
  rintro bodyText _ rfl
  refine (h.renderAll _ parts).bind fun hooks hooks' hhooks => ?_
  refine (h.render_section base.key _).bind fun header header' _ => ?_
  -- the hooks hold the names already when they enter the body
  have hbody := (Twins.flatten hhooks).substitute_value hvalidate bodyText
  refine (h.render_twins base.key hbody).bind fun body body' _ => ?_
  refine (h.renderAll _ _).bind fun members members' _ => ?_
  refine (h.renderAll _ _).bind fun lines lines' _ => ?_
  exact (h.renderAll _ _).bind fun siblings siblings' _ => .ok trivial

theorem select {s t : Spec} (hb : s.backing = t.backing) (hc : s.converters = t.converters)
    (hi : s.implementations = t.implementations) (c : Catalog) :
    Agree (fun sel sel' => sel.keys = sel'.keys) (s.select c) (t.select c) := by
  obtain ⟨name, scope, backing, converters, implementations⟩ := s
  obtain ⟨name', scope', backing', converters', implementations'⟩ := t
  obtain rfl : backing = backing' := hb
  obtain rfl : converters = converters' := hc
  obtain rfl : implementations = implementations' := hi
  rw [Spec.select_eq, Spec.select_eq]
  cases hbase : c.lookup (.base backing) with
  | none => exact .error rfl
  | some f => exact .ok rfl

/-- Interchangeable names get one verdict on every request. -/
theorem verdict_generate (h : Interchangeable n m) (r : Request) (d : Defaults) (c : Catalog)
    (hscope : ∀ scope ∈ r.scope, isDotted scope = true) :
    verdict ({ r with name := n }.generate d c) = verdict ({ r with name := m }.generate d c) := by
  let a : Request := { r with name := n }
  let b : Request := { r with name := m }
  have ha : a.WellNamed := ⟨h.left, hscope⟩
  have hb : b.WellNamed := ⟨h.right, hscope⟩
  change verdict (a.generate d c) = verdict (b.generate d c)
  rw [Request.generate_of_wellNamed ha, Request.generate_of_wellNamed hb]
  have hnames : Interchangeable (a.filled d).name (b.filled d).name := h
  have hsel : Agree (fun sel sel' => sel.keys = sel'.keys) ((a.filled d).select c)
      ((b.filled d).select c) := by
    refine select ?_ ?_ ?_ c <;> rfl
  have hrun := hsel.bind fun sel sel' hkeys => hnames.compose rfl hkeys c
  exact hrun.verdict_eq

end Interchangeable
end TypedId
