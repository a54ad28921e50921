import TypedId.Proofs.Layering
import TypedId.Proofs.SerialSets

/-!
# Serialised defaults

Which values are read as defaults, and that writing chooses one of them for each: the fields in order,
every kind by its name alone, each set in canonical order. Settings that hold the written value state
the same defaults.
-/

namespace TypedId

namespace Serial

open Family

variable {K : Type} [Family K]

/-! ### Sets -/

/-- A value that lists the kinds of a set, in any order and with repetitions. -/
def Gives (v : Value) (s : KindSet K) : Prop := Lists K v ∧ ∀ k, k ∈ s ↔ k ∈ listed K v

theorem readSet_eq_ok_iff_gives {v : Value} {s : KindSet K} : readSet K v = .ok s ↔ Gives v s := by
  constructor
  · intro h
    exact ⟨exists_readSet_iff.1 ⟨s, h⟩, mem_of_readSet h⟩
  · rintro ⟨hv, hs⟩
    obtain ⟨t, ht⟩ := exists_readSet_iff.2 hv
    rw [ht, KindSet.ext_mem fun k => (hs k).trans (mem_of_readSet ht k).symm]

/-- Names give what any names give that are the same as a set. -/
theorem readSet_names_congr {names names' : List Text} (h : ∀ s, s ∈ names ↔ s ∈ names')
    (s : KindSet K) : readSet K (.list (names.map .text)) = .ok s ↔
      readSet K (.list (names'.map .text)) = .ok s := by
  have hitem : ∀ v, v ∈ names.map Value.text ↔ v ∈ names'.map Value.text := by
    intro v
    simp only [List.mem_map, h]
  have hlists : Lists K (.list (names.map .text)) ↔ Lists K (.list (names'.map .text)) := by
    simp [Lists, hitem]
  have hlisted : listed K (.list (names.map .text)) = listed K (.list (names'.map .text)) := by
    ext k
    simp [listed, hitem]
  rw [readSet_eq_ok_iff_gives, readSet_eq_ok_iff_gives, Gives, Gives, hlists, hlisted]

theorem exists_readSet_list_iff {items : List Value} :
    (∃ s : KindSet K, readSet K (.list items) = .ok s) ↔ ∀ item ∈ items, ∃ k : K, Spells item k := by
  rw [exists_readSet_iff, Lists]
  simp

/-- A list is refused for the first item that is no kind. -/
theorem readSet_list_eq_error {items : List Value} {p : Problem} :
    readSet K (.list items) = .error p ↔
      ∃ before item after, items = before ++ item :: after ∧
        (∀ v ∈ before, ∃ k : K, Spells v k) ∧ (∀ k : K, ¬ Spells item k) ∧
        readKind K item = .error p := by
  rw [readSet, map_eq_error, mapM_eq_error_iff]
  simp only [readKind_eq_ok]
  constructor
  · rintro ⟨before, item, after, hitems, hbefore, herror⟩
    refine ⟨before, item, after, hitems, hbefore, fun k hk => ?_, herror⟩
    rw [readKind_eq_ok.2 hk] at herror
    cases herror
  · rintro ⟨before, item, after, hitems, hbefore, -, herror⟩
    exact ⟨before, item, after, hitems, hbefore, herror⟩

/-- A value that lists the names of a set's kinds in strictly ascending order. -/
def Ascends (v : Value) (s : KindSet K) : Prop :=
  ∃ kinds : List K, v = .list (kinds.map fun k => .text (name k).toList) ∧
    (kinds.Pairwise fun a b => position a < position b) ∧ ∀ k, k ∈ kinds ↔ k ∈ s

theorem ascends_writeSet (s : KindSet K) : Ascends (writeSet s) s :=
  ⟨s.toList, rfl, Family.ascending.filter _, fun _ => KindSet.mem_toList⟩

theorem Ascends.gives {v : Value} {s : KindSet K} (h : Ascends v s) : Gives v s := by
  obtain ⟨kinds, rfl, -, hs⟩ := h
  constructor
  · refine ⟨_, rfl, fun item hitem => ?_⟩
    obtain ⟨k, -, rfl⟩ := List.mem_map.1 hitem
    exact ⟨k, .name k⟩
  · intro k
    rw [← hs]
    constructor
    · intro hk
      exact ⟨_, rfl, _, List.mem_map_of_mem hk, .name k⟩
    · rintro ⟨items, hitems, item, hitem, hspells⟩
      cases hitems
      obtain ⟨j, hj, rfl⟩ := List.mem_map.1 hitem
      rwa [hspells.unique (.name j)]

/-! ### Defaults -/

/-- The values of the three fields are written for those of the defaults. -/
structure FieldsHold (backing converters implementations : Value) (d : Defaults) : Prop where
  backing : Written d.backing.name.toList backing
  converters : Gives converters d.converters
  implementations : Gives implementations d.implementations

/-- A value that holds defaults: a table with the three fields among its entries, or a list of
nothing but the three. -/
inductive Holds : Value → Defaults → Prop
  | table {entries : List (Text × Value)} {b cs is : Value} {d : Defaults} :
      entries.lookup "backing_type".toList = some b →
      entries.lookup "converters".toList = some cs →
      entries.lookup "implementations".toList = some is →
      FieldsHold b cs is d → Holds (.table entries) d
  | list {b cs is : Value} {d : Defaults} : FieldsHold b cs is d → Holds (.list [b, cs, is]) d

theorem readBacking_eq_ok {v : Value} {b : Backing} :
    readBacking v = .ok b ↔ Written b.name.toList v :=
  readVariant_eq_ok fun _ _ => Backing.ofName?_eq_some

theorem required_eq_ok {α : Type} {field : String} {o : Option α} {a : α} :
    required field o = .ok a ↔ o = some a := by
  cases o <;> simp [required]

theorem fieldsHold_iff {b cs is : Value} {d : Defaults} :
    FieldsHold b cs is d ↔ readBacking b = .ok d.backing ∧
      readSet Converter cs = .ok d.converters ∧
      readSet Implementation is = .ok d.implementations := by
  rw [readBacking_eq_ok, readSet_eq_ok_iff_gives, readSet_eq_ok_iff_gives]
  exact ⟨fun h => ⟨h.backing, h.converters, h.implementations⟩, fun h => ⟨h.1, h.2.1, h.2.2⟩⟩

theorem readDefaults_table_eq_ok {entries : List (Text × Value)} {d : Defaults} :
    readDefaults (.table entries) = .ok d ↔ Holds (.table entries) d := by
  simp only [readDefaults, bind_eq_ok, required_eq_ok]
  constructor
  · rintro ⟨_, hb, _, hc, _, hi, b, rfl, c, rfl, i, rfl, hd⟩
    cases hd
    obtain ⟨vb, hvb, hb⟩ := mapM_eq_ok_some.1 hb
    obtain ⟨vc, hvc, hc⟩ := mapM_eq_ok_some.1 hc
    obtain ⟨vi, hvi, hi⟩ := mapM_eq_ok_some.1 hi
    exact .table hvb hvc hvi (fieldsHold_iff.2 ⟨hb, hc, hi⟩)
  · rintro ⟨hvb, hvc, hvi, hfields⟩
    obtain ⟨hb, hc, hi⟩ := fieldsHold_iff.1 hfields
    exact ⟨_, mapM_eq_ok_some.2 ⟨_, hvb, hb⟩, _, mapM_eq_ok_some.2 ⟨_, hvc, hc⟩, _,
      mapM_eq_ok_some.2 ⟨_, hvi, hi⟩, _, rfl, _, rfl, _, rfl, rfl⟩

/-- A list with three members and no more. -/
theorem eq_triple {α : Type} {l : List α} {a b c : α} (ha : l[0]? = some a) (hb : l[1]? = some b)
    (hc : l[2]? = some c) (hlength : ¬ 3 < l.length) : l = [a, b, c] := by
  rcases l with _ | ⟨a', _ | ⟨b', _ | ⟨c', rest⟩⟩⟩
  · cases ha
  · cases hb
  · cases hc
  · cases ha
    cases hb
    cases hc
    have hrest : rest.length = 0 := by
      simp only [List.length_cons] at hlength
      omega
    rw [List.eq_nil_of_length_eq_zero hrest]

theorem readDefaults_list_eq_ok {items : List Value} {d : Defaults} :
    readDefaults (.list items) = .ok d ↔ Holds (.list items) d := by
  constructor
  · intro h
    simp only [readDefaults, bind_eq_ok] at h
    obtain ⟨_, hb, _, hc, _, hi, h⟩ := h
    split at h
    · cases h
    · next hlength =>
      split at h
      · cases h
        obtain ⟨vb, hvb, hb⟩ := mapM_eq_ok_some.1 hb
        obtain ⟨vc, hvc, hc⟩ := mapM_eq_ok_some.1 hc
        obtain ⟨vi, hvi, hi⟩ := mapM_eq_ok_some.1 hi
        rw [eq_triple hvb hvc hvi hlength]
        exact .list (fieldsHold_iff.2 ⟨hb, hc, hi⟩)
      · cases h
  · intro h
    cases h with
    | list hfields =>
      obtain ⟨hb, hc, hi⟩ := fieldsHold_iff.1 hfields
      simp only [readDefaults, bind_eq_ok]
      exact ⟨_, mapM_eq_ok_some.2 ⟨_, rfl, hb⟩, _, mapM_eq_ok_some.2 ⟨_, rfl, hc⟩, _,
        mapM_eq_ok_some.2 ⟨_, rfl, hi⟩, rfl⟩

theorem readDefaults_eq_ok {v : Value} {d : Defaults} : readDefaults v = .ok d ↔ Holds v d := by
  cases v with
  | table entries => exact readDefaults_table_eq_ok
  | list items => exact readDefaults_list_eq_ok
  | _ =>
    refine iff_of_false (by simp [readDefaults, mismatch]) ?_
    intro h
    cases h

/-- The value that is chosen for defaults: the names of the kinds, in canonical order. -/
inductive Canonical : Value → Defaults → Prop
  | mk {cs is : Value} {d : Defaults} : Ascends cs d.converters → Ascends is d.implementations →
      Canonical (.table [("backing_type".toList, .text d.backing.name.toList),
        ("converters".toList, cs), ("implementations".toList, is)]) d

theorem canonical_writeDefaults (d : Defaults) : Canonical (writeDefaults d) d :=
  .mk (ascends_writeSet _) (ascends_writeSet _)

theorem Canonical.holds {w : Value} {d : Defaults} (h : Canonical w d) : Holds w d := by
  obtain ⟨hcs, his⟩ := h
  exact .table rfl rfl rfl ⟨.alone, hcs.gives, his.gives⟩

end Serial

namespace Defaults

open Serial Settings

variable {K : Type} [Family K]

/-! ### Settings -/

theorem namesAll_of_ascends
    (htrim : ∀ k : K, Text.trim (Family.name k).toList = (Family.name k).toList) {v : Value}
    {s : KindSet K} (h : Ascends v s) : NamesAll v s := by
  obtain ⟨kinds, rfl, -, hs⟩ := h
  refine ⟨_, kinds, rfl, ?_, ?_⟩
  · rw [List.forall₂_map_left_iff, List.forall₂_same]
    exact fun k _ => ⟨_, rfl, htrim k⟩
  · exact KindSet.ext_mem fun k => by rw [KindSet.mem_ofList, hs]

/-- The canonical value of defaults states them as settings. -/
theorem stated_of_canonical {entries : List (Text × Value)} {d : Defaults}
    (h : Canonical (.table entries) d) {value? : String → Option Value}
    (hvalue : ∀ field ∈ fields, value? field = entries.lookup field.toList) : Stated value? d := by
  have hbacking : ∀ b : Backing, Text.trim b.name.toList = b.name.toList := by
    intro b
    cases b <;> decide
  have hconverter : ∀ k : Converter, Text.trim (Family.name k).toList = (Family.name k).toList := by
    intro k
    cases k <;> decide
  have himplementation :
      ∀ k : Implementation, Text.trim (Family.name k).toList = (Family.name k).toList := by
    intro k
    cases k <;> decide
  obtain ⟨hb, hc, hi⟩ := forall_fields.1 hvalue
  obtain ⟨hcs, his⟩ := h
  constructor
  · rw [hb]
    exact ⟨_, rfl, hbacking d.backing⟩
  · rw [hc]
    exact namesAll_of_ascends hconverter hcs
  · rw [hi]
    exact namesAll_of_ascends himplementation his

/-- A layer on top that replaces and names every field decides them all. -/
theorem gathered_canonical {layers : List Layer} (hlayers : ∀ l ∈ layers, l.Readable)
    {entries : List (Text × Value)} {d : Defaults} (h : Canonical (.table entries) d) :
    gathered (layers ++ [.ofValue (.table entries)]) = .ok d := by
  have hreadable : ∀ l ∈ layers ++ [Layer.ofValue (.table entries)], l.Readable := by
    intro l hl
    rcases List.mem_append.1 hl with hl | hl
    · exact hlayers l hl
    · rw [List.mem_singleton.1 hl]
      exact ⟨entries, rfl⟩
  rw [gathered_eq_ok hreadable]
  apply stated_of_canonical h
  obtain ⟨hcs, his⟩ := h
  simp only [forall_fields, winner?_append]
  exact ⟨rfl, rfl, rfl⟩

end Defaults

namespace Serial

open Settings

/-- Exactly the values that hold defaults are read, and every one of them is then written as the one
canonical value. That is read as the same defaults and written as it was; and settings that any
layers gather under it are those defaults. Of a list of names for a set only the set of names counts
where all are known, and the first item that is no kind is what is reported otherwise. -/
theorem readDefaults_canonical (v : Value) (d : Defaults) :
    (readDefaults v = .ok d ↔ Holds v d) ∧
    (readDefaults v = .ok d →
      Canonical (writeDefaults d) d ∧
      readDefaults (writeDefaults d) = .ok d ∧
      (readDefaults (writeDefaults d)).map writeDefaults = .ok (writeDefaults d) ∧
      ∀ layers : List Layer, (∀ l ∈ layers, l.Readable) →
        Defaults.gathered (layers ++ [.ofValue (writeDefaults d)]) = .ok d) ∧
    ∀ (K : Type) [Family K],
      (∀ names names' : List Text, (∀ s, s ∈ names ↔ s ∈ names') → ∀ s : KindSet K,
        readSet K (.list (names.map .text)) = .ok s ↔
          readSet K (.list (names'.map .text)) = .ok s) ∧
      ∀ items,
        ((∃ s : KindSet K, readSet K (.list items) = .ok s) ↔
          ∀ item ∈ items, ∃ k : K, Spells item k) ∧
        ∀ p, readSet K (.list items) = .error p ↔
          ∃ before item after, items = before ++ item :: after ∧
            (∀ v ∈ before, ∃ k : K, Spells v k) ∧ (∀ k : K, ¬ Spells item k) ∧
            readKind K item = .error p := by
  refine ⟨readDefaults_eq_ok, fun _ => ?_, fun K _ => ⟨fun _ _ h => readSet_names_congr h,
    fun _ => ⟨exists_readSet_list_iff, fun _ => readSet_list_eq_error⟩⟩⟩
  have hcanonical := canonical_writeDefaults d
  have hread : readDefaults (writeDefaults d) = .ok d := readDefaults_eq_ok.2 hcanonical.holds
  refine ⟨hcanonical, hread, by rw [hread]; rfl, fun layers hlayers => ?_⟩
  exact Defaults.gathered_canonical hlayers hcanonical

/-- Defaults as a list, with a kind as a table and sets out of order with repetitions. -/
def looseDefaults : Value :=
  .list [.table [("long".toList, .null)],
    .list [.text "type_converter".toList, .table [("newtonsoft_json".toList, .null)],
      .text "type_converter".toList],
    .list []]

theorem readDefaults_looseDefaults :
    readDefaults looseDefaults =
      .ok ⟨.long, .ofList [.newtonsoftJson, .typeConverter], .ofList []⟩ ∧
    Canonical (writeDefaults ⟨.long, .ofList [.newtonsoftJson, .typeConverter], .ofList []⟩)
      ⟨.long, .ofList [.newtonsoftJson, .typeConverter], .ofList []⟩ ∧
    Defaults.gathered (Defaults.contested ++
        [.ofValue (writeDefaults ⟨.long, .ofList [.newtonsoftJson, .typeConverter], .ofList []⟩)]) =
      .ok ⟨.long, .ofList [.newtonsoftJson, .typeConverter], .ofList []⟩ := by
  have hread : readDefaults looseDefaults =
      .ok ⟨.long, .ofList [.newtonsoftJson, .typeConverter], .ofList []⟩ := by decide
  obtain ⟨hcanonical, -, -, hgathered⟩ := (readDefaults_canonical looseDefaults _).2.1 hread
  exact ⟨hread, hcanonical, hgathered Defaults.contested Defaults.readable_contested⟩

end Serial

end TypedId
