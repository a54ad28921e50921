import Mathlib.Data.List.Basic
import TypedId.Catalog.Edit
import TypedId.Proofs.Selection

/-!
# Asking for more

A spec that asks for more keeps all that it kept. One more capability changes the selection in one
of two ways: it is refused, and only its own diagnostic is new; or it is kept, and what waited for
it is kept as well.
-/

namespace TypedId

namespace Capability

/-- Every capability once, in canonical order. -/
def all : List Capability := Family.all.map converter ++ Family.all.map implementation

theorem mem_all (cap : Capability) : cap ∈ all := by
  cases cap <;> simp [all, Family.mem_all]

theorem nodup_all : all.Nodup := by decide

theorem exists_split_all (a : Capability) :
    ∃ before after, all = before ++ a :: after ∧ ∀ cap ∈ before ++ after, cap ≠ a := by
  obtain ⟨before, after, hall⟩ := List.append_of_mem (mem_all a)
  have hnodup := nodup_all
  rw [hall, List.nodup_middle] at hnodup
  refine ⟨before, after, hall, fun cap hcap => ?_⟩
  rintro rfl
  exact (List.nodup_cons.1 hnodup).1 hcap

end Capability

namespace Selection

/-- The capabilities whose fragments were chosen. -/
def kept (sel : Selection) : List Capability := sel.keys.filterMap Key.capability?

/-- What a second selection keeps beyond a first. -/
def gained (sel sel' : Selection) : List Capability := sel'.kept.filter (· ∉ sel.kept)

/-- The selection dropped `cap` for want of `a`. -/
def Awaits (sel : Selection) (a cap : Capability) : Prop :=
  ∃ d ∈ sel.diagnostics, d.capability = cap ∧
    ∃ p, a = .implementation p ∧ d.reason = .missingPrerequisite p

/-- What asking for `a` as well makes of a selection. -/
structure Extends (a : Capability) (sel sel' : Selection) : Prop where
  refused : a ∉ sel'.kept → sel'.keys = sel.keys ∧ ∃ front d back, d.capability = a ∧
    sel.diagnostics = front ++ back ∧ sel'.diagnostics = front ++ d :: back
  accepted : a ∈ sel'.kept →
    (∀ cap, cap ∈ sel.gained sel' ↔ cap = a ∨ sel.Awaits a cap) ∧
      sel'.diagnostics = sel.diagnostics.filter fun d => d.capability ∉ sel.gained sel'

end Selection

namespace Spec

/-- Two specs for one type and backing, of which the second asks for all that the first does. -/
structure Within (s t : Spec) : Prop where
  name : s.name = t.name
  backing : s.backing = t.backing
  converters : ∀ k ∈ s.converters, k ∈ t.converters
  implementations : ∀ k ∈ s.implementations, k ∈ t.implementations

/-- The second spec asks for just one capability more. -/
def Adds (s t : Spec) (a : Capability) : Prop :=
  ¬ s.Requests a ∧ ∀ cap, t.Requests cap ↔ s.Requests cap ∨ cap = a

/-! ### Selections as filters of all capabilities -/

/-- Whether a capability is asked for and kept. -/
def holds (s : Spec) (c : Catalog) (cap : Capability) : Bool :=
  decide (s.Requests cap) && s.keeps c cap

/-- The diagnostic about a capability that is asked for and dropped. -/
def report? (s : Spec) (c : Catalog) (cap : Capability) : Option Diagnostic :=
  if s.Requests cap then (s.dropReason? c cap).map (⟨s.name, cap, ·⟩) else none

variable {s t : Spec} {c : Catalog} {a cap : Capability}

theorem holds_iff : s.holds c cap = true ↔ s.Requests cap ∧ s.keeps c cap = true := by
  simp [holds]

theorem requested_eq_filter (s : Spec) :
    s.requested = Capability.all.filter fun cap => decide (s.Requests cap) := by
  rw [Capability.all, List.filter_append, List.filter_map, List.filter_map]
  have hconv : Family.all.filter ((fun cap => decide (s.Requests cap)) ∘ Capability.converter) =
      s.converters.toList := by
    apply List.filter_congr
    intro k _
    exact Bool.eq_iff_iff.2 decide_eq_true_iff
  have himpl : Family.all.filter ((fun cap => decide (s.Requests cap)) ∘
      Capability.implementation) = s.implementations.toList := by
    apply List.filter_congr
    intro k _
    exact Bool.eq_iff_iff.2 decide_eq_true_iff
  rw [hconv, himpl, requested]

theorem filter_requested (s : Spec) (c : Catalog) :
    s.requested.filter (s.keeps c) = Capability.all.filter (s.holds c) := by
  rw [requested_eq_filter, List.filter_filter]
  apply List.filter_congr
  intro cap _
  rw [holds, Bool.and_comm]

theorem keys_chosen (s : Spec) (c : Catalog) : (s.chosen c s.requested).keys =
    .base s.backing :: (Capability.all.filter (s.holds c)).map (.ofCapability s.backing) := by
  rw [chosen, filter_requested]

theorem kept_chosen (s : Spec) (c : Catalog) :
    (s.chosen c s.requested).kept = Capability.all.filter (s.holds c) := by
  rw [Selection.kept, capabilities_chosen, filter_requested]

theorem diagnostics_chosen (s : Spec) (c : Catalog) :
    (s.chosen c s.requested).diagnostics = Capability.all.filterMap (s.report? c) := by
  rw [chosen, requested_eq_filter, List.filterMap_filter]
  apply List.filterMap_congr
  intro cap _
  simp [report?]

theorem mem_kept : cap ∈ (s.chosen c s.requested).kept ↔ s.holds c cap = true := by
  simp [kept_chosen, Capability.mem_all]

theorem mem_gained : cap ∈ (s.chosen c s.requested).gained (t.chosen c t.requested) ↔
    t.holds c cap = true ∧ ¬ s.holds c cap = true := by
  simp [Selection.gained, mem_kept]

theorem report?_eq_none_iff :
    s.report? c cap = none ↔ (s.Requests cap → s.keeps c cap = true) := by
  by_cases hr : s.Requests cap
  · simp [report?, hr, dropReason?_eq_none_iff]
  · simp [report?, hr]

theorem capability_of_report? {d : Diagnostic} (h : s.report? c cap = some d) :
    d.capability = cap := by
  unfold report? at h
  split at h
  · obtain ⟨reason, -, rfl⟩ := Option.map_eq_some_iff.1 h
    rfl
  · cases h

theorem awaits_chosen {p : Implementation} (ha : ¬ s.Requests (.implementation p)) :
    (s.chosen c s.requested).Awaits (.implementation p) cap ↔
      s.Requests cap ∧ s.applies c cap = true ∧ cap.prerequisite = some p := by
  have hreason : s.dropReason? c cap = some (.missingPrerequisite p) ↔
      s.applies c cap = true ∧ cap.prerequisite = some p := by
    rw [dropReason?_eq_missingPrerequisite_iff]
    simp [ha]
  rw [← hreason]
  constructor
  · rintro ⟨d, hd, rfl, q, hq, hdq⟩
    cases hq
    obtain ⟨-, hm, hr⟩ := mem_diagnostics_chosen.1 hd
    exact ⟨mem_requested.1 hm, hdq ▸ hr⟩
  · rintro ⟨hm, hr⟩
    exact ⟨⟨s.name, cap, .missingPrerequisite p⟩,
      mem_diagnostics_chosen.2 ⟨rfl, mem_requested.2 hm, hr⟩, rfl, p, rfl, rfl⟩

/-! ### Two specs, one within the other -/

namespace Within

theorem requests (h : s.Within t) (hs : s.Requests cap) : t.Requests cap := by
  cases cap with
  | converter k => exact h.converters k hs
  | implementation k => exact h.implementations k hs

theorem applies_eq (h : s.Within t) (c : Catalog) (cap : Capability) :
    s.applies c cap = t.applies c cap := by
  rw [applies, applies, h.backing]

theorem keeps_mono (h : s.Within t) (hs : s.keeps c cap = true) : t.keeps c cap = true := by
  obtain ⟨happ, hneeds⟩ := keeps_iff.1 hs
  refine keeps_iff.2 ⟨h.applies_eq c cap ▸ happ, fun p hp => ?_⟩
  obtain ⟨hreq, hkeep⟩ := hneeds p hp
  rw [keeps_of_prerequisite hp, h.applies_eq] at hkeep
  exact ⟨h.requests hreq, by rw [keeps_of_prerequisite hp, hkeep]⟩

theorem holds_mono (h : s.Within t) (hs : s.holds c cap = true) : t.holds c cap = true := by
  obtain ⟨hreq, hkeep⟩ := holds_iff.1 hs
  exact holds_iff.2 ⟨h.requests hreq, h.keeps_mono hkeep⟩

theorem keys_sublist (h : s.Within t) (c : Catalog) :
    (s.chosen c s.requested).keys.Sublist (t.chosen c t.requested).keys := by
  have hfilter : (Capability.all.filter (s.holds c)).Sublist (Capability.all.filter (t.holds c)) :=
    List.monotone_filter_right _ fun _ => h.holds_mono
  rw [keys_chosen, keys_chosen, h.backing]
  exact (hfilter.map _).cons_cons _

theorem dropReason?_eq (h : s.Within t) (hk : s.keeps c cap = t.keeps c cap) :
    s.dropReason? c cap = t.dropReason? c cap := by
  rw [dropReason?, dropReason?, h.applies_eq, h.backing, hk]

theorem report?_eq (h : s.Within t) (hr : s.Requests cap ↔ t.Requests cap)
    (hk : s.keeps c cap = t.keeps c cap) : s.report? c cap = t.report? c cap := by
  simp only [report?, hr, h.name, h.dropReason?_eq hk]

/-! ### The added capability is refused -/

theorem keeps_eq_of_refused (h : s.Within t) (hadd : s.Adds t a) (ha : ¬ t.keeps c a = true) :
    s.keeps c cap = t.keeps c cap := by
  refine Bool.eq_iff_iff.2 ⟨h.keeps_mono, fun ht => ?_⟩
  obtain ⟨happ, hneeds⟩ := keeps_iff.1 ht
  refine keeps_iff.2 ⟨(h.applies_eq c cap).trans happ, fun p hp => ?_⟩
  obtain ⟨hreq, hkeep⟩ := hneeds p hp
  rcases (hadd.2 _).1 hreq with hs | rfl
  · rw [keeps_of_prerequisite hp, ← h.applies_eq] at hkeep
    exact ⟨hs, by rw [keeps_of_prerequisite hp, hkeep]⟩
  · -- what needs the refused capability is dropped by both
    exact absurd hkeep ha

theorem keys_eq_of_refused (h : s.Within t) (hadd : s.Adds t a) (ha : ¬ t.keeps c a = true) :
    (t.chosen c t.requested).keys = (s.chosen c s.requested).keys := by
  have hholds : ∀ cap ∈ Capability.all, t.holds c cap = s.holds c cap := by
    intro cap _
    rw [Bool.eq_iff_iff, holds_iff, holds_iff, h.keeps_eq_of_refused hadd ha, hadd.2 cap]
    refine and_congr_left fun hk => or_iff_left ?_
    rintro rfl
    exact ha hk
  rw [keys_chosen, keys_chosen, List.filter_congr hholds, h.backing]

theorem diagnostics_of_refused (h : s.Within t) (hadd : s.Adds t a) (ha : ¬ t.keeps c a = true) :
    ∃ front d back, d.capability = a ∧ (s.chosen c s.requested).diagnostics = front ++ back ∧
      (t.chosen c t.requested).diagnostics = front ++ d :: back := by
  obtain ⟨before, after, hall, hne⟩ := Capability.exists_split_all a
  have hreport : ∀ cap ∈ before ++ after, t.report? c cap = s.report? c cap := by
    intro cap hcap
    have hreq : s.Requests cap ↔ t.Requests cap := by
      rw [hadd.2 cap, or_iff_left (hne cap hcap)]
    exact (h.report?_eq hreq (h.keeps_eq_of_refused hadd ha)).symm
  obtain ⟨hbefore, hafter⟩ := List.forall_mem_append.1 hreport
  have hnone : s.report? c a = none := report?_eq_none_iff.2 fun hr => absurd hr hadd.1
  obtain ⟨d, hd⟩ : ∃ d, t.report? c a = some d := by
    refine Option.ne_none_iff_exists'.1 fun hn => ha ?_
    exact report?_eq_none_iff.1 hn ((hadd.2 a).2 (Or.inr rfl))
  refine ⟨before.filterMap (s.report? c), d, after.filterMap (s.report? c),
    capability_of_report? hd, ?_, ?_⟩
  · rw [diagnostics_chosen, hall, List.filterMap_append, List.filterMap_cons_none hnone]
  · rw [diagnostics_chosen, hall, List.filterMap_append, List.filterMap_cons_some hd,
      List.filterMap_congr hbefore, List.filterMap_congr hafter]

/-! ### The added capability is kept -/

theorem awaits_iff (hadd : s.Adds t a) : (s.chosen c s.requested).Awaits a cap ↔
    s.Requests cap ∧ s.applies c cap = true ∧
      ∃ p, a = .implementation p ∧ cap.prerequisite = some p := by
  cases a with
  | converter k =>
    refine iff_of_false ?_ ?_
    · rintro ⟨d, -, -, p, hp, -⟩
      cases hp
    · rintro ⟨-, -, p, hp, -⟩
      cases hp
  | implementation p => simp [awaits_chosen hadd.1]

theorem mem_gained_iff (h : s.Within t) (hadd : s.Adds t a) (ha : t.keeps c a = true) :
    cap ∈ (s.chosen c s.requested).gained (t.chosen c t.requested) ↔
      cap = a ∨ (s.chosen c s.requested).Awaits a cap := by
  rw [mem_gained, awaits_iff hadd]
  constructor
  · rintro ⟨ht, hs⟩
    obtain ⟨hreq, hkeep⟩ := holds_iff.1 ht
    rcases (hadd.2 cap).1 hreq with hreqs | rfl
    · right
      obtain ⟨happ, hneeds⟩ := keeps_iff.1 hkeep
      rw [← h.applies_eq] at happ
      refine ⟨hreqs, happ, ?_⟩
      by_contra hno
      -- then all that the capability needs was there before
      refine hs (holds_iff.2 ⟨hreqs, keeps_iff.2 ⟨happ, fun p hp => ?_⟩⟩)
      obtain ⟨hreqp, hkeepp⟩ := hneeds p hp
      rw [keeps_of_prerequisite hp, ← h.applies_eq] at hkeepp
      rcases (hadd.2 _).1 hreqp with hp' | hp'
      · exact ⟨hp', by rw [keeps_of_prerequisite hp, hkeepp]⟩
      · exact absurd ⟨p, hp'.symm, hp⟩ hno
    · exact Or.inl rfl
  · rintro (rfl | ⟨hreq, happ, p, rfl, hp⟩)
    · refine ⟨holds_iff.2 ⟨(hadd.2 _).2 (Or.inr rfl), ha⟩, fun hs => ?_⟩
      exact hadd.1 (holds_iff.1 hs).1
    · have hneeds : ∀ q, cap.prerequisite = some q → t.Requests (.implementation q) ∧
          t.keeps c (.implementation q) = true := by
        intro q hq
        rw [hp] at hq
        cases hq
        exact ⟨(hadd.2 _).2 (Or.inr rfl), ha⟩
      refine ⟨holds_iff.2 ⟨h.requests hreq, keeps_iff.2 ⟨?_, hneeds⟩⟩, fun hs => ?_⟩
      · rwa [← h.applies_eq]
      · exact hadd.1 ((keeps_iff.1 (holds_iff.1 hs).2).2 p hp).1

theorem diagnostics_eq_of_kept (h : s.Within t) (hadd : s.Adds t a) (ha : t.keeps c a = true) :
    (t.chosen c t.requested).diagnostics = (s.chosen c s.requested).diagnostics.filter fun d =>
      d.capability ∉ (s.chosen c s.requested).gained (t.chosen c t.requested) := by
  rw [diagnostics_chosen, diagnostics_chosen, List.filter_filterMap]
  apply List.filterMap_congr
  intro cap _
  by_cases hk : t.keeps c cap = true
  · rw [report?_eq_none_iff.2 fun _ => hk]
    cases hd : s.report? c cap with
    | none => rfl
    | some d =>
      have hdrop : ¬ (s.Requests cap → s.keeps c cap = true) := by
        rw [← report?_eq_none_iff, hd]
        exact Option.some_ne_none d
      obtain ⟨hreq, hnot⟩ := Classical.not_imp.1 hdrop
      have hgain : cap ∈ (s.chosen c s.requested).gained (t.chosen c t.requested) :=
        mem_gained.2 ⟨holds_iff.2 ⟨h.requests hreq, hk⟩, fun hs => hnot (holds_iff.1 hs).2⟩
      simp [Option.filter, capability_of_report? hd, hgain]
  · have hne : cap ≠ a := by
      rintro rfl
      exact hk ha
    have hks : s.keeps c cap = t.keeps c cap := by
      rw [Bool.eq_false_iff.2 hk]
      exact Bool.eq_false_iff.2 fun hs => hk (h.keeps_mono hs)
    have hreq : s.Requests cap ↔ t.Requests cap := by rw [hadd.2 cap, or_iff_left hne]
    have hstays : cap ∉ (s.chosen c s.requested).gained (t.chosen c t.requested) := fun hg =>
      hk (holds_iff.1 (mem_gained.1 hg).1).2
    rw [← h.report?_eq hreq hks]
    cases hd : s.report? c cap with
    | none => rfl
    | some d => simp [Option.filter, capability_of_report? hd, hstays]

theorem keys_sublist_of_select {sel sel' : Selection} (h : s.Within t) (hs : s.select c = .ok sel)
    (ht : t.select c = .ok sel') : sel.keys.Sublist sel'.keys := by
  obtain ⟨-, rfl⟩ := select_eq_ok.1 hs
  obtain ⟨-, rfl⟩ := select_eq_ok.1 ht
  exact h.keys_sublist c

theorem extends_chosen (h : s.Within t) (hadd : s.Adds t a) :
    (s.chosen c s.requested).Extends a (t.chosen c t.requested) := by
  have hkept : a ∈ (t.chosen c t.requested).kept ↔ t.keeps c a = true := by
    rw [mem_kept, holds_iff]
    exact and_iff_right ((hadd.2 a).2 (Or.inr rfl))
  constructor
  · intro hnot
    have ha := mt hkept.2 hnot
    exact ⟨h.keys_eq_of_refused hadd ha, h.diagnostics_of_refused hadd ha⟩
  · intro hmem
    have ha := hkept.1 hmem
    exact ⟨fun cap => h.mem_gained_iff hadd ha, h.diagnostics_eq_of_kept hadd ha⟩

end Within

/-- Asking for more fails where asking for less does, keeps every key in its order, and one
capability more extends the selection by no more than what waited for it. -/
theorem select_within (h : s.Within t) (c : Catalog) :
    (∃ f, s.select c = .error f ∧ t.select c = .error f) ∨
    ∃ sel sel', s.select c = .ok sel ∧ t.select c = .ok sel' ∧ sel.keys.Sublist sel'.keys ∧
      ∀ a, s.Adds t a → sel.Extends a sel' := by
  have hs := s.select_eq c
  have ht := t.select_eq c
  rw [← h.name, ← h.backing] at ht
  cases hbase : c.lookup (.base s.backing) with
  | none =>
    rw [hbase] at hs ht
    exact Or.inl ⟨_, hs, ht⟩
  | some f =>
    rw [hbase] at hs ht
    exact Or.inr ⟨_, _, hs, ht, h.keys_sublist c, fun a hadd => h.extends_chosen hadd⟩

/-- A catalog for one backing, with comparison operators and the equality that they wait for. -/
def comparingCatalog : Catalog :=
  Catalog.build [.put (.base .int) {}, .put (.implementation .int .equatable) {},
    .put (.implementation .int .comparisonOperators) {}]

/-- A spec for a type with just the given implementations. -/
def implementing (kinds : List Implementation) : Spec where
  name := "A".toList
  scope := none
  backing := .int
  converters := ∅
  implementations := .ofList kinds

theorem select_comparing :
    (implementing [.comparisonOperators]).Within (implementing [.equatable, .comparisonOperators]) ∧
    (implementing [.comparisonOperators]).Adds (implementing [.equatable, .comparisonOperators])
      (.implementation .equatable) ∧
    ∃ sel sel', (implementing [.comparisonOperators]).select comparingCatalog = .ok sel ∧
      (implementing [.equatable, .comparisonOperators]).select comparingCatalog = .ok sel' ∧
      sel.keys.Sublist sel'.keys ∧ sel.Extends (.implementation .equatable) sel' := by
  have hwithin : (implementing [.comparisonOperators]).Within
      (implementing [.equatable, .comparisonOperators]) := by
    refine ⟨rfl, rfl, fun k hk => hk, fun k hk => ?_⟩
    simp only [implementing, KindSet.mem_ofList] at hk ⊢
    exact List.mem_cons_of_mem _ hk
  have hadd : (implementing [.comparisonOperators]).Adds
      (implementing [.equatable, .comparisonOperators]) (.implementation .equatable) := by
    refine ⟨by decide, fun cap => ?_⟩
    cases cap with
    | converter k => simp [Requests, implementing]
    | implementation k => simp [Requests, implementing, or_comm]
  have hbase : ∀ f, (implementing [.comparisonOperators]).select comparingCatalog ≠ .error f := by
    intro f hf
    rw [select_eq, if_neg (by decide +kernel)] at hf
    cases hf
  rcases select_within hwithin comparingCatalog with ⟨f, hf, -⟩ | ⟨sel, sel', hs, ht, hsub, hext⟩
  · exact absurd hf (hbase f)
  · exact ⟨hwithin, hadd, sel, sel', hs, ht, hsub, hext _ hadd⟩

end Spec
end TypedId
