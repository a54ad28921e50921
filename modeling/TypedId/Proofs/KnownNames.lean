import TypedId.Proofs.Attribution

/-!
# Names in settings

Defaults are read exactly when the settings have the right shapes and every name in them is known.
Otherwise a wrong shape is reported first, and then the first name that is not known, field by field
and from front to back.
-/

namespace TypedId.Defaults

open Value Settings

variable {α β : Type}

/-! ### What settings name -/

def text? : Value → Option Text
  | .text s => some s
  | _ => none

/-- The texts that a value holds, in order. -/
def texts : Value → List Text
  | .text s => [s]
  | .list items => items.filterMap text?
  | _ => []

/-- The texts of all fields, each with its field. -/
def listed (value? : String → Option Value) : List (String × Text) :=
  fields.flatMap fun field => ((value? field).toList.flatMap texts).map (field, ·)

/-- The names that a field may have. -/
def vocabulary (field : String) : List Text :=
  if field = backingField then Backing.all.map fun b => b.name.toList
  else if field = Family.field Converter then
    (Family.all : List Converter).map fun k => (Family.name k).toList
  else if field = Family.field Implementation then
    (Family.all : List Implementation).map fun k => (Family.name k).toList
  else []

/-- A text that without the white space around it is none of the field's names. -/
def isUnknown (e : String × Text) : Bool := !(vocabulary e.1).contains (Text.trim e.2)

theorem vocabulary_backing (s : Text) :
    s ∈ vocabulary backingField ↔ ∃ b : Backing, b.name.toList = s := by
  rw [vocabulary, if_pos rfl, List.mem_map]
  simp [Backing.mem_all]

theorem vocabulary_converters (s : Text) :
    s ∈ vocabulary (Family.field Converter) ↔ ∃ k : Converter, (Family.name k).toList = s := by
  rw [vocabulary, if_neg (by decide), if_pos rfl, List.mem_map]
  simp [Family.mem_all]

theorem vocabulary_implementations (s : Text) : s ∈ vocabulary (Family.field Implementation) ↔
    ∃ k : Implementation, (Family.name k).toList = s := by
  rw [vocabulary, if_neg (by decide), if_neg (by decide), if_pos rfl, List.mem_map]
  simp [Family.mem_all]

/-! ### The first name that is not known -/

/-- The outcome turns on some texts: the first that is not known is reported. -/
def Screened (l : List (String × Text)) (o : Except Failure α) : Prop :=
  match l.find? isUnknown with
  | some e => o = .error (.configuration [] (complaint e))
  | none => ∃ a, o = .ok a

theorem screened_ok (a : α) : Screened [] (.ok a) := ⟨a, rfl⟩

theorem Screened.bind {l l' : List (String × Text)} {o : Except Failure α}
    {f : α → Except Failure β} (h : Screened l o) (hf : ∀ a, Screened l' (f a)) :
    Screened (l ++ l') (o >>= f) := by
  rw [Screened, List.find?_append]
  cases hfind : l.find? isUnknown with
  | some e =>
    rw [Screened, hfind] at h
    rw [h]
    rfl
  | none =>
    rw [Screened, hfind] at h
    obtain ⟨a, ha⟩ := h
    rw [ha]
    exact hf a

theorem Screened.map {l : List (String × Text)} {o : Except Failure α} (h : Screened l o)
    (f : α → β) : Screened l (o.map f) := by
  cases hfind : l.find? isUnknown with
  | some e =>
    rw [Screened, hfind] at h ⊢
    rw [h]
    rfl
  | none =>
    rw [Screened, hfind] at h ⊢
    obtain ⟨a, ha⟩ := h
    exact ⟨f a, by rw [ha]; rfl⟩

theorem screened_mapM {field : String} {f : Text → Except Failure α}
    (hf : ∀ raw, Screened [(field, raw)] (f raw)) (l : List Text) :
    Screened (l.map (field, ·)) (l.mapM f) := by
  induction l with
  | nil => exact screened_ok []
  | cons raw l ih =>
    have hrest : ∀ a, Screened (l.map (field, ·)) (l.mapM f >>= fun as => pure (a :: as)) := by
      intro a
      have hbind := ih.bind fun as => screened_ok (a :: as)
      rwa [List.append_nil] at hbind
    rw [List.mapM_cons]
    exact (hf raw).bind hrest

theorem screened_option {ρ : Type} {field : String} (spell : ρ → List Text)
    {f : ρ → Except Failure α} (hf : ∀ r, Screened ((spell r).map (field, ·)) (f r))
    (o : Option ρ) : Screened ((o.toList.flatMap spell).map (field, ·)) (o.mapM f) := by
  cases o with
  | none => exact screened_ok none
  | some r =>
    rw [Option.toList_some, List.flatMap_singleton, Option.mapM_some]
    exact (hf r).map some

theorem screened_readName {ofName? : Text → Option α} {name : α → String} {field : String}
    (hof : ∀ s a, ofName? s = some a ↔ (name a).toList = s)
    (hconcrete : ∀ a, (name a).toList.map Char.toLower ≠ deferral)
    (hvocabulary : ∀ s, s ∈ vocabulary field ↔ ∃ a, (name a).toList = s) (raw : Text) :
    Screened [(field, raw)] (readName ofName? field raw) := by
  have hknown : (∃ a, readName ofName? field raw = .ok a) ↔ Text.trim raw ∈ vocabulary field := by
    simp only [readName_eq_ok hof hconcrete, hvocabulary, eq_comm]
  rw [Screened, List.find?_singleton, isUnknown]
  cases hread : readName ofName? field raw with
  | ok a => simp [← hknown, hread]
  | error e => simp [← hknown, hread, readName_eq_complaint hread]

theorem screened_names (raw : Text) :
    Screened [(backingField, raw)] (readName Backing.ofName? backingField raw) :=
  screened_readName (fun _ _ => Backing.ofName?_eq_some) concrete_backing vocabulary_backing raw

theorem screened_readNames {K : Type} [Family K]
    (hconcrete : ∀ k : K, (Family.name k).toList.map Char.toLower ≠ deferral)
    (hvocabulary : ∀ s, s ∈ vocabulary (Family.field K) ↔ ∃ k : K, (Family.name k).toList = s)
    (raw : List Text) : Screened (raw.map (Family.field K, ·)) (readNames K raw) := by
  have hname := screened_readName (fun _ _ => Family.ofName?_eq_some) hconcrete hvocabulary
  exact (screened_mapM hname raw).map _

/-! ### Settings -/

theorem texts_list (l : List Text) : texts (.list (l.map .text)) = l := by
  have hsome : text? ∘ Value.text = some := rfl
  rw [texts, List.filterMap_map, hsome, List.filterMap_some]

/-- What is read of the shape of a field holds the texts of the field. -/
theorem texts_of_mapM {ρ : Type} {shape : Value → Except Failure ρ} (spell : ρ → List Text)
    (h : ∀ v r, shape v = .ok r → texts v = spell r) {o : Option Value} {p : Option ρ}
    (hp : o.mapM shape = .ok p) : o.toList.flatMap texts = p.toList.flatMap spell := by
  cases o with
  | none =>
    cases hp
    rfl
  | some v =>
    obtain ⟨r, hr, rfl⟩ := mapM_some_eq_ok.1 hp
    simp [h v r hr]

theorem listed_eq (value? : String → Option Value) : listed value? =
    ((value? backingField).toList.flatMap texts).map (backingField, ·) ++
      (((value? (Family.field Converter)).toList.flatMap texts).map (Family.field Converter, ·) ++
        ((value? (Family.field Implementation)).toList.flatMap texts).map
          (Family.field Implementation, ·)) := by
  simp [listed, fields]

/-- Settings of the right shapes turn on the names in them, in order. -/
theorem screened_ofSettings {settings : Value} (h : Shaped (find? settings)) :
    Screened (listed (find? settings)) (ofSettings settings) := by
  obtain ⟨⟨b, hb⟩, ⟨c, hc⟩, i, hi⟩ := shaped_iff.1 h
  have hbacking := texts_of_mapM (fun s => [s])
    (fun v s hs => by rw [readText_eq_ok.1 hs, texts]) hb
  have hconverters := texts_of_mapM id
    (fun v l hl => by rw [readTexts_eq_ok_iff.1 hl, texts_list, id_eq]) hc
  have himplementations := texts_of_mapM id
    (fun v l hl => by rw [readTexts_eq_ok_iff.1 hl, texts_list, id_eq]) hi
  rw [listed_eq, hbacking, hconverters, himplementations, ofSettings, hb, ok_bind, hc, ok_bind, hi,
    ok_bind]
  have hnames := screened_option (fun s => [s]) screened_names b
  have hconverterNames := screened_option id
    (screened_readNames concrete_converter vocabulary_converters) c
  have himplementationNames := screened_option id
    (screened_readNames concrete_implementation vocabulary_implementations) i
  refine hnames.bind fun backing => hconverterNames.bind fun converters => ?_
  have hlast := himplementationNames.bind fun implementations => screened_ok
    (Defaults.mk (backing.getD builtIn.backing) (converters.getD builtIn.converters)
      (implementations.getD builtIn.implementations))
  rwa [List.append_nil] at hlast

/-! ### Reports -/

/-- The report of a text says whether the text defers or is not known. -/
structure Reports (e : String × Text) (cause : Rejection) : Prop where
  kind : cause = if Defers e.2 then .deferred e.1 else .unknownName e.1 (Text.trim e.2)
  concrete : "defaults must be concrete".toList <+: cause.message ↔ Defers e.2
  unknown : "unknown ".toList <+: cause.message ↔ ¬ Defers e.2

theorem not_prefix_of_head {a b s : Text} (ha : a ≠ []) (hb : b ≠ []) (h : a.head? ≠ b.head?) :
    ¬ a <+: b ++ s := by
  intro ⟨rest, hrest⟩
  have hhead := congrArg List.head? hrest
  rw [List.head?_append_of_ne_nil _ ha, List.head?_append_of_ne_nil _ hb] at hhead
  exact h hhead

theorem message_deferred (field : String) : (Rejection.deferred field).message =
    "defaults must be concrete; '".toList ++ field.toList ++ "' is set to 'default'".toList := rfl

theorem message_unknownName (field : String) (name : Text) :
    (Rejection.unknownName field name).message =
      "unknown ".toList ++ field.toList ++ " value '".toList ++ name ++ ['\''] := rfl

theorem reports_complaint (e : String × Text) : Reports e (complaint e) := by
  by_cases hdefers : Defers e.2
  · have hopen : "defaults must be concrete; '".toList =
        "defaults must be concrete".toList ++ "; '".toList := by decide
    refine ⟨rfl, ?_, ?_⟩
    all_goals rw [complaint, if_pos hdefers, message_deferred, hopen, List.append_assoc,
      List.append_assoc]
    · exact iff_of_true (List.prefix_append _ _) hdefers
    · refine iff_of_false (not_prefix_of_head ?_ ?_ ?_) (not_not_intro hdefers)
      all_goals decide
  · refine ⟨rfl, ?_, ?_⟩
    all_goals rw [complaint, if_neg hdefers, message_unknownName, List.append_assoc,
      List.append_assoc, List.append_assoc]
    · refine iff_of_false (not_prefix_of_head ?_ ?_ ?_) hdefers
      all_goals decide
    · exact iff_of_true (List.prefix_append _ _) hdefers

/-! ### Sets -/

/-- The set of the kinds whose names are among the texts, white space around them apart. -/
def Lists {K : Type} [Family K] (v : Value) (s : KindSet K) : Prop :=
  ∀ k, k ∈ s ↔ ∃ t ∈ texts v, Text.trim t = (Family.name k).toList

theorem lists_of_namesAll {K : Type} [Family K] {v : Value} {s : KindSet K} (h : NamesAll v s) :
    Lists v s := by
  obtain ⟨items, kinds, rfl, hnames, rfl⟩ := h
  intro k
  rw [KindSet.mem_ofList, texts]
  induction hnames with
  | nil => simp
  | @cons item a items kinds hname _ ih =>
    obtain ⟨t, rfl, ht⟩ := hname
    have hfirst : Text.trim t = (Family.name k).toList ↔ k = a := by
      rw [ht, String.toList_inj]
      constructor
      · intro hsame
        exact Family.name_injective _ _ hsame.symm
      · intro hsame
        rw [hsame]
    have htext : text? (.text t) = some t := rfl
    rw [List.mem_cons, ih, List.filterMap_cons_some htext, List.exists_mem_cons_iff, hfirst]

/-- The fields are what the settings name, or as built in where these say nothing. -/
structure Holds (value? : String → Option Value) (d : Defaults) : Prop where
  backing : Decided (Names Backing.name) builtIn.backing (value? backingField) d.backing
  converters : Decided Lists builtIn.converters (value? (Family.field Converter)) d.converters
  implementations :
    Decided Lists builtIn.implementations (value? (Family.field Implementation)) d.implementations

theorem Decided.imp {states states' : Value → α → Prop} (h : ∀ v a, states v a → states' v a)
    {fallback a : α} {o : Option Value} (hd : Decided states fallback o a) :
    Decided states' fallback o a := by
  cases o with
  | none => exact hd
  | some v => exact h v a hd

theorem Stated.holds {value? : String → Option Value} {d : Defaults} (h : Stated value? d) :
    Holds value? d where
  backing := h.backing
  converters := h.converters.imp fun _ _ => lists_of_namesAll
  implementations := h.implementations.imp fun _ _ => lists_of_namesAll

/-! ### The whole -/

/-- How settings are judged: by their shapes first, and then by the names in them. -/
structure Judged (value? : String → Option Value) (o : Except Failure Defaults) : Prop where
  accepted : (∃ d, o = .ok d) ↔
    Shaped value? ∧ ∀ e ∈ listed value?, Text.trim e.2 ∈ vocabulary e.1
  holds : ∀ d, o = .ok d → Holds value? d
  misshapen : ¬ Shaped value? → ∃ place cause, o = .error (.gathering 1 place cause)
  refused : Shaped value? → ∀ e, (listed value?).find? isUnknown = some e →
    ∃ cause, o = .error (.configuration [] cause) ∧ Reports e cause

theorem judged_ofSettings (settings : Value) : Judged (find? settings) (ofSettings settings) where
  accepted := by
    have hnone : (listed (find? settings)).find? isUnknown = none ↔
        ∀ e ∈ listed (find? settings), Text.trim e.2 ∈ vocabulary e.1 := by
      simp [List.find?_eq_none, isUnknown]
    rw [← hnone]
    constructor
    · intro ⟨d, hd⟩
      have hshaped := shaped_of_ofSettings hd
      have hscreened := screened_ofSettings hshaped
      refine ⟨hshaped, ?_⟩
      cases hfind : (listed (find? settings)).find? isUnknown with
      | none => rfl
      | some e =>
        rw [Screened, hfind, hd] at hscreened
        cases hscreened
    · intro ⟨hshaped, hknown⟩
      have hscreened := screened_ofSettings hshaped
      rwa [Screened, hknown] at hscreened
  holds d hd := (ofSettings_eq_ok.1 hd).holds
  misshapen hwrong := by
    cases h : ofSettings settings with
    | ok d => exact absurd (shaped_of_ofSettings h) hwrong
    | error e =>
      rcases ofSettings_eq_error h with ⟨-, place, cause, rfl⟩ | ⟨hshaped, -⟩
      · exact ⟨place, cause, rfl⟩
      · exact absurd hshaped hwrong
  refused hshaped e he := by
    have hscreened := screened_ofSettings hshaped
    rw [Screened, he] at hscreened
    exact ⟨complaint e, hscreened, reports_complaint e⟩

theorem gather_eq_error {layers : List Layer} {f : Failure} (h : gather layers = .error f) :
    ∃ count cause, f = .gathering count [] cause := by
  rw [gather] at h
  split at h
  · cases h
    exact ⟨_, _, rfl⟩
  · cases h
    exact ⟨_, _, rfl⟩
  · cases h

/-- Gathered settings are judged by their shapes and by the names in them; layers that cannot be read
are reported as such. -/
theorem gathered_judged (layers : List Layer) :
    (∀ settings, gather layers = .ok settings → Judged (find? settings) (gathered layers)) ∧
    ∀ f, gather layers = .error f →
      gathered layers = .error f ∧ ∃ count cause, f = .gathering count [] cause := by
  constructor
  · intro settings hsettings
    rw [gathered, hsettings, ok_bind]
    exact judged_ofSettings settings
  · intro f hf
    refine ⟨?_, gather_eq_error hf⟩
    rw [gathered, hf]
    rfl

/-- Settings that name one converter twice and no implementation. -/
def repeating : Value := .table [("backing_type".toList, .text " long ".toList),
  ("converters".toList, .list [.text "type_converter".toList, .text "type_converter\n".toList]),
  ("implementations".toList, .list [])]

/-- Settings that defer a field behind a known name; what no field may have stands after that too. -/
def deferring : Value := .table [("backing_type".toList, .text "int".toList),
  ("converters".toList, .list [.text "type_converter".toList, .text "DEFAULT ".toList]),
  ("implementations".toList, .list [.text "Equatable".toList])]

theorem shaped_deferring : Shaped (find? deferring) where
  backing _ hv := ⟨"int".toList, (Option.some.inj hv).symm⟩
  converters _ hv :=
    ⟨["type_converter".toList, "DEFAULT ".toList], (Option.some.inj hv).symm⟩
  implementations _ hv := ⟨["Equatable".toList], (Option.some.inj hv).symm⟩

theorem judged_repeating :
    (∃ d, gathered [.ofValue repeating] = .ok d ∧ Holds (find? repeating) d) ∧
    (listed (find? deferring)).find? isUnknown = some ("converters", "DEFAULT ".toList) ∧
    ∃ cause, gathered [.ofValue deferring] = .error (.configuration [] cause) ∧
      Reports ("converters", "DEFAULT ".toList) cause := by
  have haccepted : gathered [.ofValue repeating] =
      .ok ⟨.long, .ofList [.typeConverter], .ofList []⟩ := by decide +kernel
  have hfirst : (listed (find? deferring)).find? isUnknown =
      some ("converters", "DEFAULT ".toList) := by decide +kernel
  have hrepeating := (gathered_judged [.ofValue repeating]).1 repeating rfl
  have hdeferring := (gathered_judged [.ofValue deferring]).1 deferring rfl
  exact ⟨⟨_, haccepted, hrepeating.holds _ haccepted⟩, hfirst,
    hdeferring.refused shaped_deferring _ hfirst⟩

end TypedId.Defaults
