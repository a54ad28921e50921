import TypedId.Proofs.Layering

/-!
# Whom failures of defaults are put down to

Gathering settings fails for the settings as a whole, and is reported so. A name in them that no field
may have, or a settings file that is not there, is reported as a failure of the type whose name is
empty.
-/

namespace TypedId

namespace Failure

/-- A failure that is reported as none of a type. -/
def OfProcess (e : Failure) : Prop := e.isScoped = false ∧ e.typeName? = none

/-- A failure that is reported as one of the type with the empty name. -/
def OfNamelessType (e : Failure) : Prop := e.isScoped = true ∧ e.typeName? = some []

theorem ofProcess_gathering (count : Nat) (place : List Text) (cause : GatherCause) :
    OfProcess (.gathering count place cause) := ⟨rfl, rfl⟩

theorem ofNamelessType_configuration (cause : Rejection) :
    OfNamelessType (.configuration [] cause) := ⟨rfl, rfl⟩

end Failure

namespace Defaults

open Value Settings

/-! ### Shapes -/

def IsText (v : Value) : Prop := ∃ s, v = .text s

def IsTexts (v : Value) : Prop := ∃ texts : List Text, v = .list (texts.map .text)

/-- The values of the three fields have the shapes that they must have. -/
structure Shaped (value? : String → Option Value) : Prop where
  backing : ∀ v ∈ value? backingField, IsText v
  converters : ∀ v ∈ value? (Family.field Converter), IsTexts v
  implementations : ∀ v ∈ value? (Family.field Implementation), IsTexts v

/-- Layers that can all be read and whose winning values have the right shapes. -/
def WellShaped (layers : List Layer) : Prop :=
  (∀ l ∈ layers, l.Readable) ∧ Shaped (winner? layers)

theorem exists_readText_iff {place : List Text} {v : Value} :
    (∃ s, readText place v = .ok s) ↔ IsText v := by
  simp only [readText_eq_ok, IsText]

theorem readTexts_eq_ok_iff {field : String} {v : Value} {texts : List Text} :
    readTexts field v = .ok texts ↔ v = .list (texts.map .text) := by
  have hmap : ∀ items : List Value,
      List.Forall₂ (fun item s => item = .text s) items texts ↔ items = texts.map .text := by
    intro items
    exact (List.forall₂_map_right_iff (R := Eq)).symm.trans (by rw [List.forall₂_eq_eq_eq])
  rw [readTexts_eq_ok]
  simp only [hmap]
  constructor
  · intro ⟨items, hv, hitems⟩
    rw [hv, hitems]
  · intro hv
    exact ⟨_, hv, rfl⟩

theorem exists_readTexts_iff {field : String} {v : Value} :
    (∃ texts, readTexts field v = .ok texts) ↔ IsTexts v := by
  simp only [readTexts_eq_ok_iff, IsTexts]

theorem readText_eq_error {place : List Text} {v : Value} {e : Failure}
    (h : readText place v = .error e) : ∃ cause, e = .gathering 1 place cause := by
  cases v with
  | text s => cases h
  | _ =>
    cases h
    exact ⟨_, rfl⟩

theorem readTexts_eq_error {field : String} {v : Value} {e : Failure}
    (h : readTexts field v = .error e) : ∃ place cause, e = .gathering 1 place cause := by
  cases v with
  | list items =>
    obtain ⟨entry, -, hentry⟩ := mapM_eq_error h
    exact ⟨_, readText_eq_error hentry⟩
  | _ =>
    cases h
    exact ⟨_, _, rfl⟩

/-! ### Names -/

/-- A text that says `default`, in any case of letters. -/
def Defers (raw : Text) : Prop := (Text.trim raw).map Char.toLower = "default".toList

instance (raw : Text) : Decidable (Defers raw) := inferInstanceAs (Decidable (_ = _))

/-- What is reported about a text that is no name of its field. -/
def complaint (e : String × Text) : Rejection :=
  if Defers e.2 then .deferred e.1 else .unknownName e.1 (Text.trim e.2)

theorem readName_eq_complaint {α : Type} {ofName? : Text → Option α} {field : String} {raw : Text}
    {e : Failure} (h : readName ofName? field raw = .error e) :
    e = .configuration [] (complaint (field, raw)) := by
  rw [readName] at h
  by_cases hdefers : (Text.trim raw).map Char.toLower = deferral
  · rw [if_pos hdefers] at h
    cases h
    have hraw : Defers raw := hdefers
    rw [complaint, if_pos hraw]
  · rw [if_neg hdefers] at h
    cases hof : ofName? (Text.trim raw) with
    | some a =>
      rw [hof] at h
      cases h
    | none =>
      rw [hof] at h
      cases h
      have hraw : ¬ Defers raw := hdefers
      rw [complaint, if_neg hraw]

/-- A failure about a name in a field: it is the word that defers, or not known. -/
inductive AboutName (field : String) : Failure → Prop
  | deferred : AboutName field (.configuration [] (.deferred field))
  | unknown (name : Text) : AboutName field (.configuration [] (.unknownName field name))

theorem readName_eq_error {α : Type} {ofName? : Text → Option α} {field : String} {raw : Text}
    {e : Failure} (h : readName ofName? field raw = .error e) : AboutName field e := by
  rw [readName_eq_complaint h, complaint]
  split
  · exact .deferred
  · exact .unknown _

theorem readNames_eq_error {K : Type} [Family K] {raw : List Text} {e : Failure}
    (h : readNames K raw = .error e) : AboutName (Family.field K) e := by
  rw [readNames, map_eq_error] at h
  obtain ⟨name, -, hname⟩ := mapM_eq_error h
  exact readName_eq_error hname

/-! ### Settings -/

theorem shaped_iff {settings : Value} :
    Shaped (find? settings) ↔
      (∃ r, (find? settings backingField).mapM (readText [backingField.toList]) = .ok r) ∧
      (∃ r, (find? settings (Family.field Converter)).mapM (readTexts (Family.field Converter)) =
        .ok r) ∧
      ∃ r, (find? settings (Family.field Implementation)).mapM
        (readTexts (Family.field Implementation)) = .ok r := by
  simp only [exists_option_mapM_iff, exists_readText_iff, exists_readTexts_iff]
  exact ⟨fun h => ⟨h.backing, h.converters, h.implementations⟩, fun h => ⟨h.1, h.2.1, h.2.2⟩⟩

theorem shaped_of_ofSettings {settings : Value} {d : Defaults} (h : ofSettings settings = .ok d) :
    Shaped (find? settings) := by
  rw [ofSettings] at h
  simp only [bind_eq_ok] at h
  obtain ⟨b, hb, c, hc, i, hi, -⟩ := h
  exact shaped_iff.2 ⟨⟨b, hb⟩, ⟨c, hc⟩, i, hi⟩

/-- A value of the wrong shape is reported for its place. -/
theorem misshapen_field {ρ : Type} {shape : Value → Except Failure ρ}
    (hshape : ∀ v e, shape v = .error e → ∃ place cause, e = .gathering 1 place cause)
    {o : Option Value} {e : Failure} (h : o.mapM shape = .error e) :
    (¬ ∃ r, o.mapM shape = .ok r) ∧ ∃ place cause, e = .gathering 1 place cause := by
  constructor
  · rintro ⟨r, hr⟩
    rw [h] at hr
    cases hr
  · obtain ⟨v, -, hv⟩ := option_mapM_eq_error.1 h
    exact hshape v e hv

/-- Settings of the wrong shapes cannot be gathered; others can only have a wrong name. -/
theorem ofSettings_eq_error {settings : Value} {e : Failure} (h : ofSettings settings = .error e) :
    (¬ Shaped (find? settings) ∧ ∃ place cause, e = .gathering 1 place cause) ∨
    (Shaped (find? settings) ∧ ∃ field ∈ fields, AboutName field e) := by
  rw [shaped_iff]
  rw [ofSettings] at h
  simp only [bind_eq_error] at h
  rcases h with hb | ⟨b, hb, hc | ⟨c, hc, hi | ⟨i, hi, hnames⟩⟩⟩
  · obtain ⟨hnone, hplace⟩ := misshapen_field (fun _ _ h => ⟨_, readText_eq_error h⟩) hb
    exact Or.inl ⟨fun h => hnone h.1, hplace⟩
  · obtain ⟨hnone, hplace⟩ := misshapen_field (fun _ _ h => readTexts_eq_error h) hc
    exact Or.inl ⟨fun h => hnone h.2.1, hplace⟩
  · obtain ⟨hnone, hplace⟩ := misshapen_field (fun _ _ h => readTexts_eq_error h) hi
    exact Or.inl ⟨fun h => hnone h.2.2, hplace⟩
  · refine Or.inr ⟨⟨⟨b, hb⟩, ⟨c, hc⟩, i, hi⟩, ?_⟩
    rcases hnames with hb | ⟨b, -, hc | ⟨c, -, hi | ⟨i, -, h⟩⟩⟩
    · obtain ⟨s, -, hs⟩ := option_mapM_eq_error.1 hb
      exact ⟨_, by simp [fields], readName_eq_error hs⟩
    · obtain ⟨texts, -, htexts⟩ := option_mapM_eq_error.1 hc
      exact ⟨_, by simp [fields], readNames_eq_error htexts⟩
    · obtain ⟨texts, -, htexts⟩ := option_mapM_eq_error.1 hi
      exact ⟨_, by simp [fields], readNames_eq_error htexts⟩
    · cases h

theorem Shaped.congr {value? value?' : String → Option Value}
    (h : ∀ field ∈ fields, value? field = value?' field) : Shaped value? ↔ Shaped value?' := by
  obtain ⟨hbacking, hconverters, himplementations⟩ := forall_fields.1 h
  constructor
  · intro ⟨hb, hc, hi⟩
    exact ⟨hbacking ▸ hb, hconverters ▸ hc, himplementations ▸ hi⟩
  · intro ⟨hb, hc, hi⟩
    exact ⟨hbacking ▸ hb, hconverters ▸ hc, himplementations ▸ hi⟩

/-! ### Reports -/

/-- How a failure to gather layers is reported. -/
inductive Attributed (layers : List Layer) (e : Failure) : Prop
  | toProcess : ¬ WellShaped layers → (∃ count place cause, e = .gathering count place cause) →
      e.OfProcess → Attributed layers e
  | toNamelessType : WellShaped layers → (∃ field ∈ fields, AboutName field e) →
      e.OfNamelessType → Attributed layers e

theorem AboutName.ofNamelessType {field : String} {e : Failure} (h : AboutName field e) :
    e.OfNamelessType := by
  cases h <;> exact Failure.ofNamelessType_configuration _

theorem wellShaped_iff {layers : List Layer} (h : ∀ l ∈ layers, l.Readable) :
    WellShaped layers ↔ Shaped (find? (winners layers)) := by
  rw [WellShaped, and_iff_right h]
  exact (Shaped.congr fun field hfield => find?_winners layers hfield).symm

theorem exists_unreadable {layers : List Layer} (h : ¬ ∀ l ∈ layers, l.Readable) :
    ∃ count cause, gathered layers = .error (.gathering count [] cause) :=
  gathered_of_unreadable (by simpa only [not_forall, exists_prop] using h)

theorem wellShaped_of_gathered {layers : List Layer} {d : Defaults} (h : gathered layers = .ok d) :
    WellShaped layers := by
  by_cases hreadable : ∀ l ∈ layers, l.Readable
  · rw [gathered_of_readable hreadable] at h
    exact (wellShaped_iff hreadable).2 (shaped_of_ofSettings h)
  · obtain ⟨count, cause, hgathered⟩ := exists_unreadable hreadable
    rw [hgathered] at h
    cases h

theorem gathered_attributed {layers : List Layer} {e : Failure} (h : gathered layers = .error e) :
    Attributed layers e := by
  by_cases hreadable : ∀ l ∈ layers, l.Readable
  · have hshaped := wellShaped_iff hreadable
    rw [gathered_of_readable hreadable] at h
    rcases ofSettings_eq_error h with ⟨hwrong, place, cause, rfl⟩ | ⟨hright, field, hfield, hname⟩
    · exact .toProcess (mt hshaped.1 hwrong) ⟨1, place, cause, rfl⟩
        (Failure.ofProcess_gathering _ _ _)
    · exact .toNamelessType (hshaped.2 hright) ⟨field, hfield, hname⟩ hname.ofNamelessType
  · obtain ⟨count, cause, hgathered⟩ := exists_unreadable hreadable
    rw [hgathered] at h
    cases h
    exact .toProcess (fun hwell => hreadable hwell.1) ⟨count, [], cause, rfl⟩
      (Failure.ofProcess_gathering _ _ _)

/-- Layers fail as the process's own exactly when they are not well shaped. -/
theorem exists_ofProcess_iff {layers : List Layer} :
    (∃ e, gathered layers = .error e ∧ e.OfProcess) ↔ ¬ WellShaped layers := by
  constructor
  · rintro ⟨e, h, hprocess⟩
    cases gathered_attributed h with
    | toProcess hwrong => exact hwrong
    | toNamelessType _ _ hnameless =>
      exact absurd (hprocess.1.symm.trans hnameless.1) Bool.false_ne_true
  · intro hwrong
    cases h : gathered layers with
    | ok d => exact absurd (wellShaped_of_gathered h) hwrong
    | error e =>
      cases gathered_attributed h with
      | toProcess _ _ hprocess => exact ⟨e, rfl, hprocess⟩
      | toNamelessType hwell => exact absurd hwell hwrong

theorem settingsFile?_eq_error {t : FileTree} {here : Path} {path : Option Text} {e : Failure} :
    settingsFile? t here path = .error e ↔
      ∃ p, path = some p ∧ (∀ content, (Way.parse p).bind (t.read [] here) ≠ .ok content) ∧
        e = .configuration [] (.noFile p) := by
  cases path with
  | none => simp [settingsFile?]
  | some p =>
    rw [settingsFile?]
    cases hread : (Way.parse p).bind (t.read [] here) with
    | ok content => simp [hread]
    | error fault => simp [hread, eq_comm]

/-- A failure of defaults never bears the name of a type, but not every one is reported as the
process's own. What cannot be gathered is: a layer that cannot be read, a winning value of the wrong
shape. A winning name that is not known or defers, and a settings file that is asked for and not
there, are reported as failures of one type, with the empty name. -/
theorem load_attributed (layers : List Layer) (t : FileTree) (here : Path)
    (vars : List (Text × Text)) (path : Option Text) :
    ((∃ e, gathered layers = .error e ∧ e.OfProcess) ↔ ¬ WellShaped layers) ∧
    (∀ e, gathered layers = .error e → Attributed layers e) ∧
    ∀ e, load t here vars path = .error e →
      (∃ p, path = some p ∧ (∀ content, (Way.parse p).bind (t.read [] here) ≠ .ok content) ∧
        e = .configuration [] (.noFile p) ∧ e.OfNamelessType) ∨
      ∃ file, settingsFile? t here path = .ok file ∧
        Attributed ((file.map fileLayer).toList ++ [.ofValue (Environment.read vars)]) e := by
  refine ⟨exists_ofProcess_iff, fun e h => gathered_attributed h, fun e h => ?_⟩
  rw [load] at h
  rcases bind_eq_error.1 h with hfile | ⟨file, hfile, hgathered⟩
  · obtain ⟨p, hp, hmissing, rfl⟩ := settingsFile?_eq_error.1 hfile
    exact Or.inl ⟨p, hp, hmissing, rfl, Failure.ofNamelessType_configuration _⟩
  · exact Or.inr ⟨file, hfile, gathered_attributed hgathered⟩

/-- Settings with a name for the backing and nothing else. -/
def misnamed (name : String) : List Layer :=
  [{ content := .ok [("backing_type".toList, .text name.toList)] }]

/-- A missing settings file, an unknown name and a name that defers are reported as failures of one
type. -/
theorem exists_scoped_defaults_failure :
    (¬ ∀ t here vars path e, load t here vars path = .error e →
      e.isScoped = false ∧ e.typeName? = none) ∧
    ¬ ∀ layers e, gathered layers = .error e → e.isScoped = false ∧ e.typeName? = none := by
  constructor
  · intro h
    have hmissing : load {} [] [] (some "absent.toml".toList) =
        .error (.configuration [] (.noFile "absent.toml".toList)) := by decide +kernel
    exact absurd (h _ _ _ _ _ hmissing).1 (by decide)
  · intro h
    have hunknown : gathered (misnamed "uuid") =
        .error (.configuration [] (.unknownName "backing_type" "uuid".toList)) := by decide +kernel
    exact absurd (h _ _ hunknown).1 (by decide)

theorem attributed_misnamed :
    gathered (misnamed " Default ") = .error (.configuration [] (.deferred "backing_type")) ∧
    Attributed (misnamed " Default ") (.configuration [] (.deferred "backing_type")) ∧
    ∃ count place cause,
      gathered (misnamed "int" ++ [.ofValue .null]) = .error (.gathering count place cause) ∧
      Attributed (misnamed "int" ++ [.ofValue .null]) (.gathering count place cause) := by
  have hdeferred : gathered (misnamed " Default ") =
      .error (.configuration [] (.deferred "backing_type")) := by decide +kernel
  have hnull : gathered (misnamed "int" ++ [.ofValue .null]) =
      .error (.gathering 1 [] (.mismatch "unit".toList "map")) := by decide +kernel
  refine ⟨hdeferred, (load_attributed _ {} [] [] none).2.1 _ hdeferred, _, _, _, hnull, ?_⟩
  exact (load_attributed _ {} [] [] none).2.1 _ hnull

end Defaults

end TypedId
