import Mathlib.Data.List.Flatten
import TypedId.Proofs.Composition
import TypedId.Proofs.Selection

/-!
# The contracts in a struct header

The header lists the contracts of the kept implementations, each where it first appears. Dropping
repeats from a list is not monotone, but two implementations share a contract only where one needs
the other; where each comes with what it needs, the list is put together kind by kind.
-/

namespace TypedId

open Placeholder Text

namespace Text

/-! ### Parts that a token cannot enter -/

/-- A text whose last character does not occur in a token. -/
def EndsApart (token s : Text) : Prop := ∃ front c, c ∉ token ∧ s = front ++ [c]

theorem EndsApart.append {token b : Text} (h : EndsApart token b) (a : Text) :
    EndsApart token (a ++ b) := by
  obtain ⟨front, c, hc, rfl⟩ := h
  exact ⟨a ++ front, c, hc, (List.append_assoc _ _ _).symm⟩

theorem EndsApart.intercalate {token sep : Text} {texts : List Text} (hne : texts ≠ [])
    (h : ∀ t ∈ texts, EndsApart token t) : EndsApart token (sep.intercalate texts) :=
  intercalate_induction (fun a _ hb => hb.append a) hne h

theorem infix_substitute {token : Text} (hne : token ≠ []) (value : Text) {s : Text}
    (h : token <:+: s) : value <:+: substitute token value s := by
  induction s using walk_induction hne with
  | nil => exact absurd (List.infix_nil.1 h) hne
  | token_append s ih =>
    rw [substitute_token_append hne]
    exact ⟨[], _, rfl⟩
  | cons c s hc ih =>
    rw [substitute_cons hc]
    exact List.infix_cons (ih ((List.infix_cons_iff.1 h).resolve_left hc))

theorem substitute_infix {token : Text} (hne : token ≠ []) (value : Text) {c : Char}
    (hc : c ∉ token) {part s : Text} (hend : EndsApart token (c :: part)) (h : c :: part <:+: s) :
    substitute token value (c :: part) <:+: substitute token value s := by
  obtain ⟨a, b, rfl⟩ := h
  obtain ⟨front, d, hd, hfront⟩ := hend
  have hleft : ¬ Straddles token a (c :: part ++ b) := not_straddles_cons hc a (part ++ b)
  have hright : ¬ Straddles token (c :: part) b := by
    rw [hfront]
    exact not_straddles_concat hd front b
  -- no token lies across either end of the part, so it is worked on by itself
  rw [List.append_assoc, substitute_append hne value hleft, substitute_append hne value hright]
  exact ⟨_, _, List.append_assoc _ _ _⟩

end Text

/-! ### Kind by kind -/

namespace Implementation

/-- The contracts that an implementation adds to those of what it needs. -/
def ownContracts (k : Implementation) : List String :=
  k.contracts.filter fun t => k.prerequisite.all fun p => decide (t ∉ p.contracts)

theorem eraseDups_ownContracts (k : Implementation) :
    k.ownContracts.eraseDups = k.ownContracts := by
  cases k <;> simp [ownContracts, contracts, prerequisite, List.eraseDups_cons]

theorem position_prerequisite_lt {k p : Implementation} (h : k.prerequisite = some p) :
    p.position < k.position := by
  cases k <;> cases h
  decide

theorem prerequisite_of_shared {j k : Implementation} {t : String} (hj : t ∈ j.contracts)
    (hk : t ∈ k.contracts) (h : j.position < k.position) : k.prerequisite = some j := by
  cases j <;> cases k <;> simp_all [contracts, position, prerequisite]

end Implementation

namespace Interfaces

/-- Implementations in canonical order, each with what it needs. -/
structure Grounded (kinds : List Implementation) : Prop where
  ascending : kinds.Pairwise fun j k => j.position < k.position
  needs : ∀ k ∈ kinds, ∀ p, k.prerequisite = some p → p ∈ kinds

theorem Grounded.front {front : List Implementation} {k : Implementation}
    (h : Grounded (front ++ [k])) : Grounded front := by
  obtain ⟨hfront, -, hbefore⟩ := List.pairwise_append.1 h.ascending
  refine ⟨hfront, fun j hj p hp => ?_⟩
  have hmem := h.needs j (List.mem_append_left _ hj) p hp
  rcases List.mem_append.1 hmem with hmem | hmem
  · exact hmem
  · obtain rfl := List.mem_singleton.1 hmem
    have hlt := Implementation.position_prerequisite_lt hp
    have := hbefore j hj p List.mem_cons_self
    omega

/-- The last kind adds its own contracts to the list: what it shares came with what it needs. -/
theorem Grounded.removeAll_contracts {front : List Implementation} {k : Implementation}
    (h : Grounded (front ++ [k])) :
    k.contracts.removeAll (front.flatMap Implementation.contracts) = k.ownContracts := by
  obtain ⟨-, -, hbefore⟩ := List.pairwise_append.1 h.ascending
  rw [List.removeAll, Implementation.ownContracts]
  apply List.filter_congr
  intro t ht
  have hshared : t ∈ front.flatMap Implementation.contracts ↔
      ∃ p, k.prerequisite = some p ∧ t ∈ p.contracts := by
    rw [List.mem_flatMap]
    constructor
    · rintro ⟨j, hj, htj⟩
      have hlt := hbefore j hj k List.mem_cons_self
      exact ⟨j, Implementation.prerequisite_of_shared htj ht hlt, htj⟩
    · rintro ⟨p, hp, htp⟩
      have hmem := h.needs k (List.mem_append_right _ List.mem_cons_self) p hp
      rcases List.mem_append.1 hmem with hmem | hmem
      · exact ⟨p, hmem, htp⟩
      · obtain rfl := List.mem_singleton.1 hmem
        exact absurd (Implementation.position_prerequisite_lt hp) (Nat.lt_irrefl _)
  rw [Bool.eq_iff_iff]
  cases hp : k.prerequisite <;> simp_all

theorem Grounded.contracts_eq {kinds : List Implementation} (h : Grounded kinds) :
    contracts kinds = kinds.flatMap Implementation.ownContracts := by
  -- from the end of the list: a kind without those after it keeps what it needs
  induction kinds using List.reverseRecOn with
  | nil => rfl
  | append_singleton front k ih =>
    have hfront : (front.flatMap Implementation.contracts).eraseDups =
        front.flatMap Implementation.ownContracts := ih h.front
    rw [contracts, List.flatMap_append, List.flatMap_append, List.flatMap_singleton,
      List.flatMap_singleton, List.eraseDups_append, h.removeAll_contracts, hfront,
      Implementation.eraseDups_ownContracts]

theorem Grounded.contracts_sublist {kinds kinds' : List Implementation} (h : Grounded kinds)
    (h' : Grounded kinds') (hsub : kinds.Sublist kinds') :
    (contracts kinds).Sublist (contracts kinds') := by
  rw [h.contracts_eq, h'.contracts_eq]
  exact hsub.flatMap _

/-! ### The clause -/

/-- A clause with the given entries. -/
def heading : List Text → Text
  | [] => []
  | entries => " : ".toList ++ ", ".toList.intercalate entries

theorem heading_cons (entry : Text) (entries : List Text) : heading (entry :: entries) =
    ' ' :: ':' :: ' ' :: ", ".toList.intercalate (entry :: entries) := rfl

/-- The contracts of several implementations as the header of a type names them. -/
def listed (name : Text) (kinds : List Implementation) : List Text :=
  (contracts kinds).map fun t => substitute typeToken name t.toList

theorem endsApart_contract {kinds : List Implementation} {t : String} (h : t ∈ contracts kinds) :
    EndsApart typeToken t.toList := by
  have hlast : ∀ k : Implementation,
      (k.contracts.all fun t => t.toList.getLast?.any (· ∉ typeToken)) = true := by
    intro k
    cases k <;> decide
  obtain ⟨k, -, hk⟩ := List.mem_flatMap.1 (List.mem_eraseDups.1 h)
  obtain ⟨c, hc, hapart⟩ := (Option.any_eq_true _ _).1 (List.all_eq_true.1 (hlast k) t hk)
  obtain ⟨front, hfront⟩ := List.getLast?_eq_some_iff.1 hc
  exact ⟨front, c, of_decide_eq_true hapart, hfront⟩

theorem substitute_entries (name : Text) (entries : List Text) :
    substitute typeToken name (", ".toList.intercalate entries) =
      ", ".toList.intercalate (entries.map (substitute typeToken name)) := by
  have hne := isPlaceholder_typeToken.ne_nil
  have hsep : ", ".toList = [',', ' '] := by decide
  rw [hsep]
  induction entries with
  | nil => simp [List.intercalate_nil]
  | cons a entries ih =>
    cases entries with
    | nil => simp
    | cons b entries =>
      rw [List.intercalate_cons_cons, List.append_assoc, List.cons_append, List.singleton_append,
        substitute_append_cons hne (by decide), substitute_cons (typeToken_not_leading (by decide) _),
        ih]
      simp

theorem substitute_heading (name : Text) (entries : List Text) :
    substitute typeToken name (heading entries) =
      heading (entries.map (substitute typeToken name)) := by
  cases entries with
  | nil => exact substitute_nil _ _
  | cons a entries =>
    rw [heading_cons, substitute_cons (typeToken_not_leading (by decide) _),
      substitute_cons (typeToken_not_leading (by decide) _),
      substitute_cons (typeToken_not_leading (by decide) _), substitute_entries]
    rfl

theorem clause_eq_heading (kinds : List Implementation) :
    clause kinds = heading ((contracts kinds).map String.toList) := by
  rw [clause]
  cases contracts kinds <;> rfl

/-- A text with the clause in it names its contracts once the type's name is filled in. -/
theorem heading_listed_infix (name : Text) {kinds : List Implementation} {s : Text}
    (h : clause kinds <:+: s) : heading (listed name kinds) <:+: substitute typeToken name s := by
  have hmap : listed name kinds =
      ((contracts kinds).map String.toList).map (substitute typeToken name) := by
    rw [listed, List.map_map]
    rfl
  rw [clause_eq_heading] at h
  rw [hmap, ← substitute_heading]
  cases hc : contracts kinds with
  | nil =>
    rw [List.map_nil, heading, substitute_nil]
    exact List.nil_infix
  | cons t rest =>
    have hends : ∀ e ∈ (contracts kinds).map String.toList, EndsApart typeToken e := by
      intro e he
      obtain ⟨t, ht, rfl⟩ := List.mem_map.1 he
      exact endsApart_contract ht
    rw [hc] at h hends
    rw [List.map_cons] at h hends ⊢
    rw [heading_cons] at h ⊢
    refine substitute_infix isPlaceholder_typeToken.ne_nil name (by decide) ?_ h
    exact (EndsApart.intercalate (List.cons_ne_nil _ _) hends).append [' ', ':', ' ']

end Interfaces

def Capability.implementation? : Capability → Option Implementation
  | converter _ => none
  | implementation k => some k

namespace Spec

theorem implementations_chosen (s : Spec) (c : Catalog) (caps : List Capability) :
    (s.chosen c caps).implementations =
      (caps.filter (s.keeps c)).filterMap Capability.implementation? := by
  rw [Selection.implementations, chosen, List.filterMap_cons_none rfl, List.filterMap_map]
  apply List.filterMap_congr
  intro cap _
  cases cap <;> rfl

theorem grounded_chosen (s : Spec) (c : Catalog) :
    Interfaces.Grounded (s.chosen c s.requested).implementations where
  ascending := by
    rw [implementations_chosen]
    refine List.pairwise_filterMap.2 ((s.requested_ascending.filter _).imp ?_)
    intro x y hxy j hj k hk
    cases x <;> cases hj
    cases y <;> cases hk
    change 32 + j.position < 32 + k.position at hxy
    omega
  needs k hk p hp := by
    obtain ⟨-, hkeep⟩ := mem_implementations_chosen.1 hk
    obtain ⟨hreq, hkeepp⟩ := (keeps_iff.1 hkeep).2 p hp
    exact mem_implementations_chosen.2 ⟨mem_requested.2 hreq, hkeepp⟩

end Spec
end TypedId
