import Mathlib.Data.List.Nodup
import TypedId.Selection

/-!
# What a selection holds

The loop over the requested capabilities decides each on its own: a prerequisite stands before what
needs it, so the keys chosen so far tell whether it is kept. The selection is therefore a filter of
the request, and what is dropped is the rest of it.
-/

namespace TypedId

/-! ### The order of capabilities -/

/-- What a capability needs precedes it in canonical order. -/
theorem Capability.rank_prerequisite_lt {cap : Capability} {p : Implementation}
    (h : cap.prerequisite = some p) : (implementation p).rank < cap.rank := by
  cases cap with
  | converter k => cases h
  | implementation k =>
    cases k <;> cases h
    decide

/-- What is needed needs nothing itself. -/
theorem Capability.prerequisite_of_prerequisite {cap : Capability} {p : Implementation}
    (h : cap.prerequisite = some p) : (implementation p).prerequisite = none := by
  cases cap with
  | converter k => cases h
  | implementation k =>
    cases k <;> cases h
    rfl

theorem KindSet.pairwise_toList {K : Type} [Family K] (s : KindSet K) :
    s.toList.Pairwise fun a b => Family.position a < Family.position b :=
  Family.ascending.filter _

namespace Key

theorem capability?_ofCapability (b : Backing) (cap : Capability) :
    (ofCapability b cap).capability? = some cap := by
  cases cap <;> rfl

theorem ofCapability_injective {b : Backing} {x y : Capability}
    (h : ofCapability b x = ofCapability b y) : x = y := by
  have hc := congrArg capability? h
  rw [capability?_ofCapability, capability?_ofCapability] at hc
  exact Option.some.inj hc

theorem backing_ofCapability (b : Backing) (cap : Capability) : (ofCapability b cap).backing = b := by
  cases cap <;> rfl

theorem rank_base_lt (b : Backing) (cap : Capability) : (base b).rank < (ofCapability b cap).rank := by
  have hb := b.code_lt
  cases cap with
  | converter k =>
    have hk : 0 < k.position := Family.position_pos k
    change b.code < 64 * b.code + k.position
    omega
  | implementation k =>
    change b.code < 1024 + 64 * b.code + k.position
    omega

/-- On one backing the keys stand in the order of the capabilities. -/
theorem rank_ofCapability_lt (b : Backing) {x y : Capability} (h : x.rank < y.rank) :
    (ofCapability b x).rank < (ofCapability b y).rank := by
  have hb := b.code_lt
  cases x with
  | converter j =>
    have hj : j.position < 32 := Family.position_lt j
    cases y with
    | converter k =>
      change j.position < k.position at h
      change 64 * b.code + j.position < 64 * b.code + k.position
      omega
    | implementation k =>
      change 64 * b.code + j.position < 1024 + 64 * b.code + k.position
      omega
  | implementation j =>
    cases y with
    | converter k =>
      have hk : k.position < 32 := Family.position_lt k
      change 32 + j.position < k.position at h
      omega
    | implementation k =>
      change 32 + j.position < 32 + k.position at h
      change 1024 + 64 * b.code + j.position < 1024 + 64 * b.code + k.position
      omega

end Key

namespace Spec

/-- Whether a spec asks for a capability. -/
def Requests (s : Spec) : Capability → Prop
  | .converter k => k ∈ s.converters
  | .implementation k => k ∈ s.implementations

instance (s : Spec) : ∀ cap, Decidable (s.Requests cap)
  | .converter k => inferInstanceAs (Decidable (k ∈ s.converters))
  | .implementation k => inferInstanceAs (Decidable (k ∈ s.implementations))

theorem mem_requested {s : Spec} {cap : Capability} : cap ∈ s.requested ↔ s.Requests cap := by
  cases cap <;> simp [requested, Requests]

theorem requested_ascending (s : Spec) : s.requested.Pairwise fun a b => a.rank < b.rank := by
  refine List.pairwise_append.2 ⟨?_, ?_, ?_⟩
  · exact List.pairwise_map.2 (KindSet.pairwise_toList _)
  · refine List.pairwise_map.2 ((KindSet.pairwise_toList _).imp fun {a b} h => ?_)
    change 32 + Family.position a < 32 + Family.position b
    omega
  · intro a ha b hb
    obtain ⟨j, -, rfl⟩ := List.mem_map.1 ha
    obtain ⟨k, -, rfl⟩ := List.mem_map.1 hb
    have hj := Family.position_lt j
    change Family.position j < 32 + Family.position k
    omega

theorem requested_nodup (s : Spec) : s.requested.Nodup :=
  s.requested_ascending.imp fun h e => absurd (e ▸ h) (Nat.lt_irrefl _)

/-- Of a request that is cut at a capability, the front holds what precedes it. -/
theorem mem_front_iff {s : Spec} {front back : List Capability} {cap x : Capability}
    (h : s.requested = front ++ cap :: back) (hx : x.rank < cap.rank) :
    x ∈ front ↔ s.Requests x := by
  rw [← mem_requested, h]
  have hasc := s.requested_ascending
  rw [h] at hasc
  obtain ⟨-, hback, -⟩ := List.pairwise_append.1 hasc
  obtain ⟨hcap, -⟩ := List.pairwise_cons.1 hback
  constructor
  · intro hm
    exact List.mem_append_left _ hm
  · intro hm
    rcases List.mem_append.1 hm with hm | hm
    · exact hm
    · rcases List.mem_cons.1 hm with rfl | hm
      · omega
      · have := hcap x hm
        omega

/-! ### The rule -/

/-- Whether the catalog has a fragment for a capability on the spec's backing. -/
def applies (s : Spec) (c : Catalog) (cap : Capability) : Bool :=
  (c.lookup (.ofCapability s.backing cap)).isSome

/-- Whether selection keeps a requested capability: it applies, and what it needs is requested and
applies. -/
def keeps (s : Spec) (c : Catalog) (cap : Capability) : Bool :=
  s.applies c cap && cap.prerequisite.all fun p =>
    decide (s.Requests (.implementation p)) && s.applies c (.implementation p)

/-- Why selection drops a requested capability, if it does. -/
def dropReason? (s : Spec) (c : Catalog) (cap : Capability) : Option DropReason :=
  if !s.applies c cap then some (.notApplicable s.backing)
  else if s.keeps c cap then none
  else cap.prerequisite.map .missingPrerequisite

/-- The selection that the rule makes of some of the requested capabilities. -/
def chosen (s : Spec) (c : Catalog) (caps : List Capability) : Selection where
  keys := .base s.backing :: (caps.filter (s.keeps c)).map (.ofCapability s.backing)
  diagnostics := caps.filterMap fun cap => (s.dropReason? c cap).map (⟨s.name, cap, ·⟩)

theorem keeps_of_prerequisite {s : Spec} {c : Catalog} {cap : Capability} {p : Implementation}
    (h : cap.prerequisite = some p) :
    s.keeps c (.implementation p) = s.applies c (.implementation p) := by
  rw [keeps, Capability.prerequisite_of_prerequisite h]
  simp

theorem keeps_iff {s : Spec} {c : Catalog} {cap : Capability} :
    s.keeps c cap = true ↔ s.applies c cap = true ∧ ∀ p, cap.prerequisite = some p →
      s.Requests (.implementation p) ∧ s.keeps c (.implementation p) = true := by
  rw [keeps, Bool.and_eq_true_iff]
  refine and_congr_right fun _ => ?_
  cases hp : cap.prerequisite with
  | none => simp
  | some p => simp [keeps_of_prerequisite hp]

theorem dropReason?_eq_none_iff {s : Spec} {c : Catalog} {cap : Capability} :
    s.dropReason? c cap = none ↔ s.keeps c cap = true := by
  unfold dropReason?
  cases ha : s.applies c cap with
  | false => simp [keeps, ha]
  | true =>
    cases hk : s.keeps c cap with
    | true => simp
    | false =>
      cases hp : cap.prerequisite with
      | none => simp [keeps, ha, hp] at hk
      | some p => simp

theorem keeps_eq_isNone (s : Spec) (c : Catalog) (cap : Capability) :
    s.keeps c cap = (s.dropReason? c cap).isNone := by
  rw [Bool.eq_iff_iff, Option.isNone_iff_eq_none, dropReason?_eq_none_iff]

theorem mem_keys_chosen {s : Spec} {c : Catalog} {caps : List Capability} {cap : Capability} :
    .ofCapability s.backing cap ∈ (s.chosen c caps).keys ↔ cap ∈ caps ∧ s.keeps c cap = true := by
  have hbase : Key.ofCapability s.backing cap ≠ .base s.backing := by
    cases cap <;> simp [Key.ofCapability]
  have hinj : Function.Injective (Key.ofCapability s.backing) := fun _ _ => Key.ofCapability_injective
  rw [chosen, List.mem_cons, or_iff_right hbase, List.mem_map_of_injective hinj, List.mem_filter]

theorem mem_implementations {sel : Selection} {p : Implementation} :
    p ∈ sel.implementations ↔ ∃ b, .implementation b p ∈ sel.keys := by
  rw [Selection.implementations, List.mem_filterMap]
  constructor
  · rintro ⟨key, hk, h⟩
    cases key with
    | implementation b q =>
      cases h
      exact ⟨b, hk⟩
    | base b => cases h
    | converter b k => cases h
  · rintro ⟨b, hk⟩
    exact ⟨_, hk, rfl⟩

theorem backing_of_mem_chosen {s : Spec} {c : Catalog} {caps : List Capability} {key : Key}
    (h : key ∈ (s.chosen c caps).keys) : key.backing = s.backing := by
  rcases List.mem_cons.1 h with rfl | h
  · rfl
  · obtain ⟨cap, -, rfl⟩ := List.mem_map.1 h
    exact Key.backing_ofCapability _ _

theorem mem_implementations_chosen {s : Spec} {c : Catalog} {caps : List Capability}
    {p : Implementation} : p ∈ (s.chosen c caps).implementations ↔
      .implementation p ∈ caps ∧ s.keeps c (.implementation p) = true := by
  rw [mem_implementations, ← mem_keys_chosen]
  constructor
  · rintro ⟨b, hb⟩
    have := backing_of_mem_chosen hb
    subst this
    exact hb
  · intro h
    exact ⟨s.backing, h⟩

/-! ### The loop -/

/-- Among what the rule made of the front of the request, the loop refuses a capability for the
rule's reason: the front holds all that the capability needs. -/
theorem refusal?_chosen {s : Spec} {c : Catalog} {front back : List Capability} {cap : Capability}
    (h : s.requested = front ++ cap :: back) :
    Selection.refusal? c s (s.chosen c front) cap = s.dropReason? c cap := by
  unfold Selection.refusal? dropReason?
  cases ha : s.applies c cap with
  | false => simp_all [applies]
  | true =>
    have hl : (c.lookup (.ofCapability s.backing cap)).isNone = false := by
      simpa [applies] using ha
    rw [hl]
    cases hp : cap.prerequisite with
    | none => simp [keeps, ha, hp]
    | some p =>
      have hmem : p ∈ (s.chosen c front).implementations ↔ s.keeps c cap = true := by
        rw [mem_implementations_chosen, mem_front_iff h (Capability.rank_prerequisite_lt hp),
          keeps_of_prerequisite hp]
        simp [keeps, ha, hp]
      cases hk : s.keeps c cap <;> simp [hmem, hk]

/-- One turn of the loop. -/
theorem consider_chosen {s : Spec} {c : Catalog} {front back : List Capability} {cap : Capability}
    (h : s.requested = front ++ cap :: back) :
    Selection.consider c s (s.chosen c front) cap = s.chosen c (front ++ [cap]) := by
  rw [Selection.consider, refusal?_chosen h]
  cases hr : s.dropReason? c cap <;> simp [chosen, keeps_eq_isNone, hr]

/-- What the loop has made of the front of the request is what the rule makes of it. -/
theorem foldl_consider {s : Spec} {c : Catalog} {front back : List Capability}
    (h : s.requested = front ++ back) :
    back.foldl (Selection.consider c s) (s.chosen c front) = s.chosen c s.requested := by
  induction back generalizing front with
  | nil => rw [h, List.append_nil, List.foldl_nil]
  | cons cap back ih =>
    rw [List.foldl_cons, consider_chosen h]
    exact ih (by simpa using h)

theorem select_eq (s : Spec) (c : Catalog) :
    s.select c = if (c.lookup (.base s.backing)).isNone then
        .error (.missingFragment s.name (.base s.backing))
      else .ok (s.chosen c s.requested) := by
  rw [select]
  congr 2
  exact foldl_consider (List.nil_append _).symm

theorem select_eq_ok {s : Spec} {c : Catalog} {sel : Selection} : s.select c = .ok sel ↔
    (c.lookup (.base s.backing)).isSome = true ∧ sel = s.chosen c s.requested := by
  rw [select_eq]
  cases c.lookup (.base s.backing) <;> simp [eq_comm]

/-! ### Accounts -/

theorem capabilities_chosen (s : Spec) (c : Catalog) (caps : List Capability) :
    (s.chosen c caps).keys.filterMap Key.capability? = caps.filter (s.keeps c) := by
  have hbase : (Key.base s.backing).capability? = none := rfl
  rw [chosen, List.filterMap_cons_none hbase, List.filterMap_map]
  have hsome : Key.capability? ∘ Key.ofCapability s.backing = some :=
    funext fun cap => Key.capability?_ofCapability s.backing cap
  rw [hsome, List.filterMap_some]

theorem dropped_chosen (s : Spec) (c : Catalog) (caps : List Capability) :
    (s.chosen c caps).diagnostics.map (·.capability) = caps.filter fun cap => !s.keeps c cap := by
  induction caps with
  | nil => rfl
  | cons cap caps ih =>
    have ih' : (List.filterMap (fun cap => (s.dropReason? c cap).map
        (Diagnostic.mk s.name cap)) caps).map (·.capability) =
        caps.filter fun cap => !s.keeps c cap := ih
    cases hr : s.dropReason? c cap <;> simp [chosen, keeps_eq_isNone, hr, ih']

theorem mem_diagnostics_chosen {s : Spec} {c : Catalog} {caps : List Capability} {d : Diagnostic} :
    d ∈ (s.chosen c caps).diagnostics ↔
      d.typeName = s.name ∧ d.capability ∈ caps ∧ s.dropReason? c d.capability = some d.reason := by
  rw [chosen, List.mem_filterMap]
  constructor
  · rintro ⟨cap, hm, h⟩
    obtain ⟨reason, hr, rfl⟩ := Option.map_eq_some_iff.1 h
    exact ⟨rfl, hm, hr⟩
  · rintro ⟨hn, hm, hr⟩
    refine ⟨d.capability, hm, ?_⟩
    rw [hr, ← hn]
    rfl

theorem dropReason?_eq_notApplicable_iff {s : Spec} {c : Catalog} {cap : Capability} {b : Backing} :
    s.dropReason? c cap = some (.notApplicable b) ↔ b = s.backing ∧ s.applies c cap = false := by
  unfold dropReason?
  cases ha : s.applies c cap with
  | false => simp [eq_comm]
  | true => cases hk : s.keeps c cap <;> simp

theorem dropReason?_eq_missingPrerequisite_iff {s : Spec} {c : Catalog} {cap : Capability}
    {p : Implementation} : s.dropReason? c cap = some (.missingPrerequisite p) ↔
      s.applies c cap = true ∧ cap.prerequisite = some p ∧
        ¬ (s.Requests (.implementation p) ∧ s.keeps c (.implementation p) = true) := by
  unfold dropReason?
  cases ha : s.applies c cap with
  | false => simp
  | true =>
    cases hk : s.keeps c cap with
    | true =>
      have hneeds := (keeps_iff.1 hk).2
      refine iff_of_false (by simp) ?_
      rintro ⟨-, hp, hnot⟩
      exact hnot (hneeds p hp)
    | false =>
      have hfails : ∀ q, cap.prerequisite = some q →
          ¬ (s.Requests (.implementation q) ∧ s.keeps c (.implementation q) = true) := by
        intro q hq hboth
        have hkeep : s.keeps c cap = true := keeps_iff.2 ⟨ha, fun r hr => by
          rw [hq] at hr
          cases hr
          exact hboth⟩
        rw [hk] at hkeep
        cases hkeep
      constructor
      · intro h
        have hp : cap.prerequisite = some p := by simpa using h
        exact ⟨rfl, hp, hfails p hp⟩
      · rintro ⟨-, hp, -⟩
        simp [hp]

end Spec

/-- What a selection for a spec has to be. -/
structure Selection.Fits (s : Spec) (c : Catalog) (sel : Selection) : Prop where
  base_first : sel.keys.head? = some (.base s.backing)
  ascending : sel.keys.Pairwise fun a b => a.rank < b.rank
  /-- Every key has a fragment and is for the backing of the spec. -/
  held : ∀ key ∈ sel.keys, (c.lookup key).isSome = true ∧ key.backing = s.backing
  /-- A requested capability is kept or reported, once; no other is. -/
  accounted : ∀ cap, (sel.keys.filterMap Key.capability?).count cap +
    (sel.diagnostics.map (·.capability)).count cap = if s.Requests cap then 1 else 0
  not_applicable : ∀ cap b, ⟨s.name, cap, .notApplicable b⟩ ∈ sel.diagnostics ↔
    s.Requests cap ∧ b = s.backing ∧ c.lookup (.ofCapability s.backing cap) = none
  missing_prerequisite : ∀ cap p, ⟨s.name, cap, .missingPrerequisite p⟩ ∈ sel.diagnostics ↔
    s.Requests cap ∧ (c.lookup (.ofCapability s.backing cap)).isSome = true ∧
      cap.prerequisite = some p ∧ .implementation s.backing p ∉ sel.keys
  canonical : sel.diagnostics.Pairwise fun d e => d.capability.rank < e.capability.rank
  named : ∀ d ∈ sel.diagnostics, d.typeName = s.name

namespace Spec

theorem ascending_chosen (s : Spec) (c : Catalog) :
    (s.chosen c s.requested).keys.Pairwise fun a b => a.rank < b.rank := by
  refine List.pairwise_cons.2 ⟨?_, ?_⟩
  · intro key hk
    obtain ⟨cap, -, rfl⟩ := List.mem_map.1 hk
    exact Key.rank_base_lt s.backing cap
  · have hkept := s.requested_ascending.filter (s.keeps c)
    exact List.pairwise_map.2 (hkept.imp fun h => Key.rank_ofCapability_lt s.backing h)

/-- The keys of a selection by family. -/
theorem keys_by_family (s : Spec) (c : Catalog) : (s.chosen c s.requested).keys =
    .base s.backing ::
      ((s.chosen c s.requested).converters.map (.converter s.backing) ++
        (s.chosen c s.requested).implementations.map (.implementation s.backing)) := by
  have hkeys : (s.chosen c s.requested).keys = .base s.backing ::
      ((s.converters.toList.filter fun k => s.keeps c (.converter k)).map (.converter s.backing) ++
        (s.implementations.toList.filter fun k => s.keeps c (.implementation k)).map
          (.implementation s.backing)) := by
    rw [chosen, requested, List.filter_append, List.map_append, List.filter_map, List.filter_map,
      List.map_map, List.map_map]
    rfl
  have hconverters : (s.chosen c s.requested).converters =
      s.converters.toList.filter fun k => s.keeps c (.converter k) := by
    simp [Selection.converters, hkeys, List.filterMap_map]
  have himplementations : (s.chosen c s.requested).implementations =
      s.implementations.toList.filter fun k => s.keeps c (.implementation k) := by
    simp [Selection.implementations, hkeys, List.filterMap_map]
  rw [hconverters, himplementations, hkeys]

theorem held_chosen {s : Spec} {c : Catalog} {caps : List Capability} {key : Key}
    (hbase : (c.lookup (.base s.backing)).isSome = true) (h : key ∈ (s.chosen c caps).keys) :
    (c.lookup key).isSome = true := by
  rcases List.mem_cons.1 h with rfl | h
  · exact hbase
  · obtain ⟨cap, hcap, rfl⟩ := List.mem_map.1 h
    exact (keeps_iff.1 (List.mem_filter.1 hcap).2).1

theorem accounted_chosen (s : Spec) (c : Catalog) (cap : Capability) :
    ((s.chosen c s.requested).keys.filterMap Key.capability?).count cap +
      ((s.chosen c s.requested).diagnostics.map (·.capability)).count cap =
        if s.Requests cap then 1 else 0 := by
  have hcount : s.requested.count cap = if s.Requests cap then 1 else 0 := by
    simp only [s.requested_nodup.count, mem_requested]
  rw [capabilities_chosen, dropped_chosen, ← hcount]
  cases hk : s.keeps c cap with
  | true =>
    have hnone : cap ∉ s.requested.filter fun cap => !s.keeps c cap := by simp [hk]
    rw [List.count_filter hk, List.count_eq_zero_of_not_mem hnone, Nat.add_zero]
  | false =>
    have hnone : cap ∉ s.requested.filter (s.keeps c) := by simp [hk]
    rw [List.count_eq_zero_of_not_mem hnone, List.count_filter (by simp [hk]), Nat.zero_add]

theorem canonical_chosen (s : Spec) (c : Catalog) :
    (s.chosen c s.requested).diagnostics.Pairwise fun d e =>
      d.capability.rank < e.capability.rank := by
  have hdropped : ((s.chosen c s.requested).diagnostics.map (·.capability)).Pairwise
      fun a b => a.rank < b.rank := by
    rw [dropped_chosen]
    exact s.requested_ascending.filter _
  rwa [List.pairwise_map] at hdropped

theorem fits_chosen {s : Spec} {c : Catalog}
    (hbase : (c.lookup (.base s.backing)).isSome = true) : (s.chosen c s.requested).Fits s c where
  base_first := rfl
  ascending := s.ascending_chosen c
  held _ hk := ⟨held_chosen hbase hk, backing_of_mem_chosen hk⟩
  accounted := s.accounted_chosen c
  not_applicable cap b := by
    rw [mem_diagnostics_chosen, mem_requested, dropReason?_eq_notApplicable_iff]
    simp [applies]
  missing_prerequisite cap p := by
    have hkey : Key.implementation s.backing p ∈ (s.chosen c s.requested).keys ↔
        s.Requests (.implementation p) ∧ s.keeps c (.implementation p) = true := by
      rw [← mem_requested, ← mem_keys_chosen]
      rfl
    rw [mem_diagnostics_chosen, mem_requested, dropReason?_eq_missingPrerequisite_iff, hkey]
    simp [applies]
  canonical := s.canonical_chosen c
  named _ hd := (mem_diagnostics_chosen.1 hd).1

/-- Selection succeeds exactly when there is a base, and then its result fits. -/
theorem select_fits (s : Spec) (c : Catalog) :
    match c.lookup (.base s.backing) with
    | some _ => ∃ sel, s.select c = .ok sel ∧ sel.Fits s c
    | none => s.select c = .error (.missingFragment s.name (.base s.backing)) := by
  rw [select_eq]
  cases hb : c.lookup (.base s.backing) with
  | none => rfl
  | some f => exact ⟨_, rfl, fits_chosen (by rw [hb]; rfl)⟩

end Spec
end TypedId
