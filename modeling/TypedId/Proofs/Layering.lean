import TypedId.Defaults.Loaded
import TypedId.Proofs.Outcomes
import TypedId.Proofs.Winners

/-!
# Layers of defaults

Each field of the defaults is decided on its own by the layer that wins for it. What the other
layers say about it, and what any layer says about other keys, is never looked at.
-/

namespace TypedId.Defaults

open Value Settings

variable {α : Type} {K : Type} [Family K]

/-! ### What a value states -/

/-- A value that names one thing. White space around the name does not count. -/
def Names (name : α → String) (v : Value) (a : α) : Prop :=
  ∃ s, v = .text s ∧ Text.trim s = (name a).toList

/-- A value that lists the names of a set's kinds, in any order and with repetitions. -/
def NamesAll (v : Value) (s : KindSet K) : Prop :=
  ∃ items kinds, v = .list items ∧ List.Forall₂ (Names Family.name) items kinds ∧ s = .ofList kinds

theorem readText_eq_ok {place : List Text} {v : Value} {s : Text} :
    readText place v = .ok s ↔ v = .text s := by
  cases v <;> simp [readText]

theorem readTexts_eq_ok {field : String} {v : Value} {texts : List Text} :
    readTexts field v = .ok texts ↔
      ∃ items, v = .list items ∧ List.Forall₂ (fun item s => item = .text s) items texts := by
  cases v with
  | list items =>
    rw [readTexts, mapM_eq_ok]
    simp only [readText_eq_ok]
    have hitems : items.zipIdx.map Prod.fst = items := List.zipIdx_map_fst 0 items
    constructor
    · intro h
      refine ⟨items, rfl, ?_⟩
      rw [← hitems, List.forall₂_map_left_iff]
      exact h
    · intro ⟨_, hv, h⟩
      cases hv
      rw [← hitems, List.forall₂_map_left_iff] at h
      exact h
  | _ => simp [readTexts]

/-- Where no name is the word that defers, reading gives what a trimmed name stands for. -/
theorem readName_eq_ok {ofName? : Text → Option α} {name : α → String}
    (hof : ∀ s a, ofName? s = some a ↔ (name a).toList = s)
    (hconcrete : ∀ a, (name a).toList.map Char.toLower ≠ deferral) {field : String} {raw : Text}
    {a : α} : readName ofName? field raw = .ok a ↔ Text.trim raw = (name a).toList := by
  rw [readName]
  by_cases hdeferred : (Text.trim raw).map Char.toLower = deferral
  · rw [if_pos hdeferred]
    refine iff_of_false (by simp) ?_
    intro h
    rw [h] at hdeferred
    exact hconcrete a hdeferred
  · rw [if_neg hdeferred, eq_comm (b := (name a).toList), ← hof]
    cases ofName? (Text.trim raw) <;> simp

theorem readNames_eq_ok (hconcrete : ∀ k : K, (Family.name k).toList.map Char.toLower ≠ deferral)
    {raw : List Text} {s : KindSet K} :
    readNames K raw = .ok s ↔
      ∃ kinds, List.Forall₂ (fun r k => Text.trim r = (Family.name k).toList) raw kinds ∧
        s = .ofList kinds := by
  have hof : ∀ (r : Text) (k : K), Family.ofName? r = some k ↔ (Family.name k).toList = r :=
    fun _ _ => Family.ofName?_eq_some
  rw [readNames, map_eq_ok]
  simp only [mapM_eq_ok, readName_eq_ok hof hconcrete, eq_comm (a := s)]

/-! ### What settings state -/

/-- A field is as its value states, or as built in where there is no value. -/
def Decided (states : Value → α → Prop) (fallback : α) : Option Value → α → Prop
  | none, a => a = fallback
  | some v, a => states v a

/-- The defaults whose fields are decided by the values of the three settings. -/
structure Stated (value? : String → Option Value) (d : Defaults) : Prop where
  backing : Decided (Names Backing.name) builtIn.backing (value? backingField) d.backing
  converters : Decided NamesAll builtIn.converters (value? (Family.field Converter)) d.converters
  implementations :
    Decided NamesAll builtIn.implementations (value? (Family.field Implementation)) d.implementations

/-- Reading a field in two steps, first its shape and then its names. -/
theorem decided_iff {ρ : Type} {shape : Value → Except Failure ρ} {names : ρ → Except Failure α}
    {states : Value → α → Prop} (h : ∀ v a, (∃ r, shape v = .ok r ∧ names r = .ok a) ↔ states v a)
    (o : Option Value) (fallback a : α) :
    (∃ r b, o.mapM shape = .ok r ∧ r.mapM names = .ok b ∧ b.getD fallback = a) ↔
      Decided states fallback o a := by
  cases o with
  | none => simp [Decided, pure, Except.pure, eq_comm]
  | some v =>
    rw [Decided, ← h]
    simp only [mapM_some_eq_ok]
    constructor
    · intro ⟨_, b, ⟨r, hshape, hr⟩, hb, ha⟩
      rw [hr, mapM_some_eq_ok] at hb
      obtain ⟨c, hnames, hc⟩ := hb
      rw [hc, Option.getD_some] at ha
      exact ⟨r, hshape, ha ▸ hnames⟩
    · intro ⟨r, hshape, hnames⟩
      exact ⟨some r, some a, ⟨r, hshape, rfl⟩, mapM_some_eq_ok.2 ⟨a, hnames, rfl⟩, rfl⟩

theorem concrete_backing (b : Backing) : b.name.toList.map Char.toLower ≠ deferral := by
  cases b <;> decide

theorem concrete_converter (k : Converter) :
    (Family.name k).toList.map Char.toLower ≠ deferral := by
  cases k <;> decide

theorem concrete_implementation (k : Implementation) :
    (Family.name k).toList.map Char.toLower ≠ deferral := by
  cases k <;> decide

theorem names_iff (v : Value) (b : Backing) :
    (∃ s, readText [backingField.toList] v = .ok s ∧
      readName Backing.ofName? backingField s = .ok b) ↔ Names Backing.name v b := by
  simp only [readText_eq_ok, readName_eq_ok (fun _ _ => Backing.ofName?_eq_some) concrete_backing,
    Names]

theorem namesAll_iff (hconcrete : ∀ k : K, (Family.name k).toList.map Char.toLower ≠ deferral)
    (v : Value) (s : KindSet K) :
    (∃ texts, readTexts (Family.field K) v = .ok texts ∧ readNames K texts = .ok s) ↔
      NamesAll v s := by
  simp only [readTexts_eq_ok, readNames_eq_ok hconcrete]
  rw [NamesAll]
  constructor
  · intro ⟨texts, ⟨items, hv, htexts⟩, kinds, hkinds, hs⟩
    exact ⟨items, kinds, hv, exists_forall₂_comp.1 ⟨texts, htexts, hkinds⟩, hs⟩
  · intro ⟨items, kinds, hv, hnames, hs⟩
    obtain ⟨texts, htexts, hkinds⟩ := exists_forall₂_comp.2 hnames
    exact ⟨texts, ⟨items, hv, htexts⟩, kinds, hkinds, hs⟩

/-- Settings give the defaults that their three fields state, and nothing else. -/
theorem ofSettings_eq_ok {settings : Value} {d : Defaults} :
    ofSettings settings = .ok d ↔ Stated (find? settings) d := by
  have hbacking := decided_iff names_iff (find? settings backingField) builtIn.backing d.backing
  have hconverter := decided_iff (namesAll_iff concrete_converter)
    (find? settings (Family.field Converter)) builtIn.converters d.converters
  have himplementation := decided_iff (namesAll_iff concrete_implementation)
    (find? settings (Family.field Implementation)) builtIn.implementations d.implementations
  rw [ofSettings]
  simp only [bind_eq_ok]
  constructor
  · intro ⟨r, hr, cs, hcs, is, his, b, hb, c, hc, i, hi, hd⟩
    cases hd
    exact ⟨hbacking.1 ⟨r, b, hr, hb, rfl⟩, hconverter.1 ⟨cs, c, hcs, hc, rfl⟩,
      himplementation.1 ⟨is, i, his, hi, rfl⟩⟩
  · intro h
    obtain ⟨r, b, hr, hb, hbd⟩ := hbacking.2 h.backing
    obtain ⟨cs, c, hcs, hc, hcd⟩ := hconverter.2 h.converters
    obtain ⟨is, i, his, hi, hid⟩ := himplementation.2 h.implementations
    refine ⟨r, hr, cs, hcs, is, his, b, hb, c, hc, i, hi, ?_⟩
    rw [hbd, hcd, hid]
    rfl

/-! ### What settings are looked at for -/

theorem readText_outline (place : List Text) (v : Value) :
    readText place v.outline = readText place v := by
  cases v <;> rfl

theorem readTexts_outline (field : String) (v : Value) :
    readTexts field v.outline = readTexts field v := by
  cases v <;> rfl

/-- A step that sees no more of values than their outlines does the same where these agree. -/
theorem mapM_congr_outline {β : Type} {f : Value → Except Failure β}
    (hf : ∀ v, f v.outline = f v) {o p : Option Value} (h : o.map outline = p.map outline) :
    o.mapM f = p.mapM f := by
  have hmapM : ∀ o : Option Value, (o.map outline).mapM f = o.mapM f := by
    intro o
    cases o with
    | none => rfl
    | some v => rw [Option.map_some, Option.mapM_some, Option.mapM_some, hf]
  rw [← hmapM o, h, hmapM]

/-- The settings that give the fields. -/
def fields : List String := [backingField, Family.field Converter, Family.field Implementation]

theorem forall_fields {p : String → Prop} :
    (∀ field ∈ fields, p field) ↔
      p backingField ∧ p (Family.field Converter) ∧ p (Family.field Implementation) := by
  simp [fields]

/-- Settings that agree on the three fields give the same outcome, whatever it is. What stands in a
table in place of a field does not matter. -/
theorem ofSettings_congr {v w : Value}
    (h : ∀ field ∈ fields, (find? v field).map outline = (find? w field).map outline) :
    ofSettings v = ofSettings w := by
  obtain ⟨hb, hc, hi⟩ := forall_fields.1 h
  have hbacking := mapM_congr_outline (readText_outline [backingField.toList]) hb
  have hconverters := mapM_congr_outline (readTexts_outline (Family.field Converter)) hc
  have himplementations := mapM_congr_outline (readTexts_outline (Family.field Implementation)) hi
  rw [ofSettings, ofSettings, hbacking, hconverters, himplementations]

/-- A table of the fields alone, with the values that win for them. -/
def winners (layers : List Layer) : Value :=
  .table (fields.filterMap fun field => (winner? layers field).map fun v => (field.toList, v))

theorem find?_winners (layers : List Layer) {field : String} (h : field ∈ fields) :
    find? (winners layers) field = winner? layers field := by
  have hlookup : ∀ l : List String,
      (l.filterMap fun i => (winner? layers i).map fun v => (i.toList, v)).lookup field.toList =
        if field ∈ l then winner? layers field else none := by
    intro l
    induction l with
    | nil => rfl
    | cons i l ih =>
      rw [List.filterMap_cons]
      by_cases hi : field = i
      · rw [← hi, if_pos List.mem_cons_self]
        cases hw : winner? layers field with
        | none =>
          rw [hw, ite_self] at ih
          exact ih
        | some v => exact List.lookup_cons_self
      · have hkey : field.toList ≠ i.toList := fun he => hi (String.toList_inj.1 he)
        cases winner? layers i with
        | none => simp [ih, hi]
        | some v => simp [lookup_cons_eq, hkey, ih, hi]
  rw [winners, find?, hlookup, if_pos h]

/-! ### Layers -/

/-- Layers that can be read give what their winning values give on their own. -/
theorem gathered_of_readable {layers : List Layer} (h : ∀ l ∈ layers, l.Readable) :
    gathered layers = ofSettings (winners layers) := by
  rw [gathered, gather_of_readable h, ok_bind]
  apply ofSettings_congr
  intro field hfield
  rw [find?_stack, find?_winners layers hfield]

/-- Where some layer cannot be read, the lowest such layer is reported. -/
theorem gathered_of_unreadable {layers : List Layer} (h : ∃ l ∈ layers, ¬ l.Readable) :
    ∃ count cause, gathered layers = .error (.gathering count [] cause) := by
  obtain ⟨l, hl, hunreadable⟩ := h
  have hfailure : ∃ cause, l.failure? = some cause := by
    rw [← Option.isSome_iff_exists, ← Option.ne_none_iff_isSome]
    exact fun hnone => hunreadable (Layer.failure?_eq_none_iff.1 hnone)
  obtain ⟨cause, hcause⟩ := hfailure
  have hmem : cause ∈ layers.filterMap Layer.failure? := List.mem_filterMap.2 ⟨l, hl, hcause⟩
  obtain ⟨first, others, hfirst⟩ := List.exists_cons_of_ne_nil (List.ne_nil_of_mem hmem)
  obtain ⟨count, hcount⟩ := gather_of_unreadable hfirst
  exact ⟨count, first, by rw [gathered, hcount]; rfl⟩

/-- Only what is said about the three fields counts for what is stated. -/
theorem Stated.congr {value? value?' : String → Option Value} {d : Defaults}
    (h : ∀ field ∈ fields, value? field = value?' field) : Stated value? d ↔ Stated value?' d := by
  obtain ⟨hbacking, hconverters, himplementations⟩ := forall_fields.1 h
  constructor
  · intro ⟨hb, hc, hi⟩
    exact ⟨hbacking ▸ hb, hconverters ▸ hc, himplementations ▸ hi⟩
  · intro ⟨hb, hc, hi⟩
    exact ⟨hbacking ▸ hb, hconverters ▸ hc, himplementations ▸ hi⟩

theorem gathered_eq_ok {layers : List Layer} {d : Defaults} (h : ∀ l ∈ layers, l.Readable) :
    gathered layers = .ok d ↔ Stated (winner? layers) d := by
  rw [gathered_of_readable h, ofSettings_eq_ok]
  exact Stated.congr fun field hfield => find?_winners layers hfield

/-- What a settings file says about a field, if there is one. -/
def fileValue? (file : Option ByteArray) (field : String) : Option Value :=
  file.bind fun content => (fileLayer content).value? field

/-- Of a file and the variables over it the variables win. -/
theorem winner?_loaded (file : Option ByteArray) (entries : List (Text × Value)) (field : String) :
    winner? ((file.map fileLayer).toList ++ [.ofValue (.table entries)]) field =
      (find? (.table entries) field).or (fileValue? file field) := by
  have hfile : winner? (file.map fileLayer).toList field = fileValue? file field := by
    cases file with
    | none => rfl
    | some content =>
      have hprecedence : (fileLayer content).precedence = .later := by
        rw [fileLayer]
        cases Text.decode? content <;> rfl
      change winner? ([] ++ [fileLayer content]) field = (fileLayer content).value? field
      rw [winner?_append, hprecedence]
      exact Option.or_none
  rw [winner?_append, ← hfile]
  rfl

theorem forall_readable_loaded (file : Option ByteArray) (entries : List (Text × Value)) :
    (∀ l ∈ (file.map fileLayer).toList ++ [.ofValue (.table entries)], l.Readable) ↔
      ∀ content ∈ file, (fileLayer content).Readable := by
  have hvars : (Layer.ofValue (.table entries)).Readable := ⟨entries, rfl⟩
  cases file with
  | none => simp [hvars]
  | some content => simp [hvars]

/-- Loading gathers the settings file, if there is one, and the variables over it. -/
theorem load_of_settingsFile? {t : FileTree} {here : Path} {path : Option Text}
    {file : Option ByteArray} (hfile : settingsFile? t here path = .ok file)
    (vars : List (Text × Text)) :
    ∃ entries, Environment.read vars = .table entries ∧
      load t here vars path =
        gathered ((file.map fileLayer).toList ++ [.ofValue (.table entries)]) := by
  obtain ⟨entries, hread⟩ := Environment.read_eq_table vars
  refine ⟨entries, hread, ?_⟩
  rw [load, hfile, ok_bind, hread]

/-- Each of the three fields is what its own winning value states, or as built in where no layer
names it. The values that lose and the other keys are not looked at: a table of the winning values
alone gives the same outcome, whatever it is. Variables win over the settings file. -/
theorem gathered_decided (layers : List Layer) :
    ((∀ l ∈ layers, l.Readable) →
      gathered layers = ofSettings (winners layers) ∧
      ∀ d, gathered layers = .ok d ↔ Stated (winner? layers) d) ∧
    ((∃ l ∈ layers, ¬ l.Readable) →
      ∃ count cause, gathered layers = .error (.gathering count [] cause)) ∧
    ∀ t here vars path file, settingsFile? t here path = .ok file →
      ((∀ content ∈ file, (fileLayer content).Readable) → ∀ d, load t here vars path = .ok d ↔
        Stated (fun field => (find? (Environment.read vars) field).or (fileValue? file field)) d) ∧
      ((∃ content ∈ file, ¬ (fileLayer content).Readable) →
        ∃ count cause, load t here vars path = .error (.gathering count [] cause)) := by
  refine ⟨fun h => ⟨gathered_of_readable h, fun d => gathered_eq_ok h⟩, gathered_of_unreadable, ?_⟩
  intro t here vars path file hfile
  obtain ⟨entries, hread, hload⟩ := load_of_settingsFile? hfile vars
  rw [hload, hread]
  constructor
  · intro hreadable d
    rw [gathered_eq_ok ((forall_readable_loaded file entries).2 hreadable),
      funext (winner?_loaded file entries)]
  · intro ⟨content, hcontent, hunreadable⟩
    rw [Option.mem_def.1 hcontent]
    exact gathered_of_unreadable ⟨fileLayer content, List.mem_cons_self, hunreadable⟩

/-- Layers that disagree about every field and hold values that no field may have. -/
def contested : List Layer := [
  { content := .ok [("converters".toList, .list [.text "none_such".toList])]
    precedence := .earlier },
  { content := .ok [("backing_type".toList, .bool true), ("unit".toList, .natural 7)] },
  { content := .ok [("backing_type".toList, .text " long ".toList),
      ("converters".toList, .list [.text "type_converter".toList])] },
  { content := .ok [("backing_type".toList, .null), ("implementations".toList, .list [])]
    precedence := .earlier }]

theorem readable_contested : ∀ l ∈ contested, l.Readable := by
  intro l hl
  simp only [contested, List.mem_cons, List.not_mem_nil, or_false] at hl
  rcases hl with hl | hl | hl | hl <;> exact ⟨_, by rw [hl]⟩

/-- A settings file with a number for the backing, which a variable replaces. -/
def misshapen : ByteArray := Text.encode "backing_type = 7".toList

theorem readable_misshapen : (fileLayer misshapen).Readable := by
  have hsome : (Document.read? "backing_type = 7".toList).isSome = true := by decide +kernel
  obtain ⟨entries, hentries⟩ := Option.isSome_iff_exists.1 hsome
  refine ⟨entries, ?_⟩
  rw [fileLayer, misshapen, Text.decode?_encode]
  simp only [Layer.ofDocument, hentries]

theorem gathered_contested :
    gathered contested = .ok ⟨.long, .ofList [.typeConverter], .ofList []⟩ ∧
    Stated (winner? contested) ⟨.long, .ofList [.typeConverter], .ofList []⟩ ∧
    (∃ count cause, gathered (contested ++ [.ofValue .null]) =
      .error (.gathering count [] cause)) ∧
    ∀ d, load (FileTree.put {} [fileName] (.file misshapen)) []
        [("STRONGLY_BACKING_TYPE".toList, "int".toList)] none = .ok d ↔
      Stated (fun field =>
        (find? (Environment.read [("STRONGLY_BACKING_TYPE".toList, "int".toList)]) field).or
          (fileValue? (some misshapen) field)) d := by
  have hgathered : gathered contested = .ok ⟨.long, .ofList [.typeConverter], .ofList []⟩ :=
    ((gathered_decided contested).1 readable_contested).1
  refine ⟨hgathered, (((gathered_decided contested).1 readable_contested).2 _).1 hgathered, ?_, ?_⟩
  · apply (gathered_decided _).2.1
    refine ⟨.ofValue .null, by simp, ?_⟩
    intro ⟨entries, h⟩
    cases h
  · apply ((gathered_decided contested).2.2 _ _ _ _ (some misshapen) rfl).1
    intro content hcontent
    cases hcontent
    exact readable_misshapen

end TypedId.Defaults
