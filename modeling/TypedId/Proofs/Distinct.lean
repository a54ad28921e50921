import TypedId.Proofs.HintName
import TypedId.Proofs.Readback

/-!
# Sources tell configurations apart

From the source of a built-in unit all that it was made for can be read: the namespace from the
line after the preamble, the name and all implementations with contracts from the header, the
converters from the classes, and the rest from the body: the backing from the first lines, the
validation from the hook, and the nested converter from what follows the implementations.
-/

namespace TypedId

open Placeholder Text Outline

theorem mem_iff_filter_ne_nil {α : Type} [DecidableEq α] {a : α} {l : List α} :
    a ∈ l ↔ l.filter (· = a) ≠ [] := by
  simp [List.filter_eq_nil_iff]

namespace Builtin

/-! ### From the front -/

/-- A line that opens an attribute or the header. -/
def OpensStruct (s : Text) : Prop := ∃ c ∈ ['[', 'r'], s.head? = some c

theorem frontLines_append_inj {scope scope' : Option Text} {s s' : Text} {rest rest' : List Text}
    (hs : OpensStruct s) (hs' : OpensStruct s')
    (e : frontLines scope ++ s :: rest = frontLines scope' ++ s' :: rest') : scope = scope' := by
  have hspace : ∀ scope : Text, ("namespace ".toList ++ scope ++ [';']).head? = some 'n' :=
    fun _ => by simp
  have hopens : ∀ {s : Text}, OpensStruct s → s.head? ≠ some 'n' := by
    rintro s ⟨c, hc, hhead⟩ hn
    rw [hhead, Option.some.injEq] at hn
    subst hn
    exact absurd hc (by decide)
  cases scope with
  | none =>
    cases scope' with
    | none => rfl
    | some scope' =>
      have hline : s = "namespace ".toList ++ scope' ++ [';'] :=
        Option.some.inj (congrArg (·[3]?) e)
      exact absurd (hline ▸ hspace scope') (hopens hs)
  | some scope =>
    cases scope' with
    | none =>
      have hline : "namespace ".toList ++ scope ++ [';'] = s' :=
        Option.some.inj (congrArg (·[3]?) e)
      exact absurd (hline ▸ hspace scope) (hopens hs')
    | some scope' =>
      have hline : "namespace ".toList ++ scope ++ [';'] =
          "namespace ".toList ++ scope' ++ [';'] := Option.some.inj (congrArg (·[3]?) e)
      rw [List.append_assoc, List.append_assoc] at hline
      rw [List.append_cancel_right (List.append_cancel_left hline)]

/-! ### From the header -/

theorem name_of_header {n n' : Text} (hn : isIdentifier n = true) (hn' : isIdentifier n' = true)
    {entries entries' : List Text} (e : headerOpening ++ n ++ Interfaces.heading entries =
      headerOpening ++ n' ++ Interfaces.heading entries') : n = n' := by
  have hread : ∀ (n : Text) (entries : List Text), isIdentifier n = true →
      (n ++ Interfaces.heading entries).takeWhile isIdentifierPart = n := by
    intro n entries hn
    rw [List.takeWhile_append_of_pos (isIdentifierPart_of_mem hn)]
    cases entries with
    | nil => exact List.append_nil n
    | cons t entries =>
      rw [Interfaces.heading_cons, List.takeWhile_cons_of_neg (by decide), List.append_nil]
  rw [List.append_assoc, List.append_assoc] at e
  rw [← hread n entries hn, List.append_cancel_left e, hread n' entries' hn']

/-- The first contract of an implementation is of no other. -/
theorem eq_of_head_mem {j k : Implementation} {t : String} (h : k.contracts.head? = some t)
    (hj : t ∈ j.contracts) : j = k := by
  cases k <;> cases h <;> cases j <;> simp [Implementation.contracts] at hj ⊢

theorem mem_iff_stem_mem {k : Implementation} {t : String} (h : k.contracts.head? = some t)
    (n : Text) (kinds : List Implementation) :
    k ∈ kinds ↔ Interfaces.stem t.toList ∈ (Interfaces.listed n kinds).map Interfaces.stem := by
  have hk : t ∈ k.contracts := List.mem_of_head? h
  constructor
  · intro hmem
    have hlisted : t ∈ Interfaces.contracts kinds :=
      List.mem_eraseDups.2 (List.mem_flatMap.2 ⟨k, hmem, hk⟩)
    rw [← Interfaces.stem_substitute (Interfaces.stem_contracts k k t hk).1 n]
    exact List.mem_map_of_mem (List.mem_map_of_mem hlisted)
  · intro hmem
    obtain ⟨s, hs, hstem⟩ := List.mem_map.1 hmem
    obtain ⟨t', ht', rfl⟩ := List.mem_map.1 hs
    obtain ⟨j, hj, htj⟩ := List.mem_flatMap.1 (List.mem_eraseDups.1 ht')
    have hcontract := Interfaces.stem_contracts j k t' htj
    rw [Interfaces.stem_substitute hcontract.1] at hstem
    obtain rfl : t' = t := String.toList_inj.1 (hcontract.2 t hk hstem)
    rwa [← eq_of_head_mem h htj]

theorem mem_iff_of_listed {n : Text} {kinds kinds' : List Implementation}
    (e : Interfaces.listed n kinds = Interfaces.listed n kinds') {k : Implementation}
    (hk : k ≠ .validation) : k ∈ kinds ↔ k ∈ kinds' := by
  have hhead : ∃ t, k.contracts.head? = some t := by
    cases k with
    | validation => exact absurd rfl hk
    | _ => exact ⟨_, rfl⟩
  obtain ⟨t, ht⟩ := hhead
  rw [mem_iff_stem_mem ht n, e, ← mem_iff_stem_mem ht n]

/-! ### From the classes -/

theorem converters_of_names {n : Text} {kinds kinds' : List Converter}
    (e : kinds.map (fun k => n ++ k.classSuffix.toList) =
      kinds'.map fun k => n ++ k.classSuffix.toList) : kinds = kinds' := by
  refine List.map_injective_iff.2 (fun j k hjk => ?_) e
  have hsuffix : j.classSuffix = k.classSuffix :=
    String.toList_inj.1 (List.append_cancel_left hjk)
  cases j <;> cases k <;> simp_all [Converter.classSuffix]

/-! ### From the body -/

theorem inner_page (scope : Option Text) (n : Text) (b : Backing) (converters : List Converter)
    (implementations : List Implementation) :
    (page scope n b converters implementations).inner =
      (leadLines b).map (spell b n) ++ "    \x7b".toList ::
        ((hookOf b implementations).map (spell b n) ++ "    \x7d".toList ::
          (memberGroups b converters implementations).flatMap fun g =>
            [] :: g.map (spell b n)) := by
  have hopen : spell b n "    \x7b".toList = "    \x7b".toList := spell_eq_self b n (by decide)
  have hclose : spell b n "    \x7d".toList = "    \x7d".toList := spell_eq_self b n (by decide)
  rw [Page.inner, page, groups, List.map_cons, intercalate_cons_flatMap, bodyLines, List.map_append,
    List.map_cons, List.map_append, List.map_singleton, hopen, hclose, List.flatMap_map]
  simp

/-- The first line of a struct declares the value. -/
theorem leadLines_first (b : Backing) (n : Text) : ((leadLines b).map (spell b n))[0]? =
    some ("    public ".toList ++ b.primitive.toList ++ " Value \x7b get; \x7d".toList) := by
  have hline : (leadLines b)[0]? =
      some ("    public ".toList ++ '¤' :: " Value \x7b get; \x7d".toList) := by
    cases b <;> decide
  have hfront : spell b n "    public ".toList = "    public ".toList :=
    spell_eq_self b n (by decide)
  have hback : spell b n " Value \x7b get; \x7d".toList = " Value \x7b get; \x7d".toList :=
    spell_eq_self b n (by decide)
  rw [List.getElem?_map, hline, Option.map_some, spell_append, spell_cons, hfront, hback,
    if_neg (by decide), List.append_assoc]
  rfl

/-- The stored primitive leaves only the two kinds of GUID apart. -/
theorem eq_or_isGuid {b b' : Backing} (h : b.primitive = b'.primitive) :
    b = b' ∨ b.isGuid = true ∧ b'.isGuid = true := by
  cases b <;> cases b' <;> simp [Backing.primitive, Backing.isGuid] at h ⊢

/-- A GUID is told from a masked one by how it is displayed. -/
theorem leadLines_display {b : Backing} (h : b.isGuid = true) (n : Text) :
    ((leadLines b).map (spell b n))[19]? = some ("    ".toList ++ (display b).toList) := by
  have hline : (leadLines b)[19]? = some ("    ".toList ++ (display b).toList) ∧
      ("    ".toList ++ (display b).toList).any isMark = false := by
    cases b with
    | guid => decide
    | maskedGuid => decide
    | _ => cases h
  rw [List.getElem?_map, hline.1, Option.map_some, spell_eq_self b n hline.2]

theorem display_inj {b b' : Backing} (h : b.isGuid = true) (h' : b'.isGuid = true)
    (e : display b = display b') : b = b' := by
  cases b <;> cases b' <;> simp [Backing.isGuid, display] at h h' e ⊢

theorem length_leadLines (b : Backing) : 19 < (leadLines b).length := by
  cases b <;> decide

theorem backing_of_leadLines {n : Text} {b b' : Backing} {rest rest' : Lines}
    (e : (leadLines b).map (spell b n) ++ rest = (leadLines b').map (spell b' n) ++ rest') :
    b = b' := by
  have hat : ∀ i ≤ 19, ((leadLines b).map (spell b n))[i]? =
      ((leadLines b').map (spell b' n))[i]? := by
    intro i hi
    have hlt : ∀ b, i < ((leadLines b).map (spell b n)).length := fun b => by
      rw [List.length_map]
      exact Nat.lt_of_le_of_lt hi (length_leadLines b)
    rw [← List.getElem?_append_left (hlt b), e, List.getElem?_append_left (hlt b')]
  have hfirst := hat 0 (by omega)
  rw [leadLines_first, leadLines_first, Option.some.injEq, List.append_assoc, List.append_assoc]
    at hfirst
  have hprimitive : b.primitive = b'.primitive :=
    String.toList_inj.1 (List.append_cancel_right (List.append_cancel_left hfirst))
  rcases eq_or_isGuid hprimitive with hb | ⟨hb, hb'⟩
  · exact hb
  · have hdisplay := hat 19 (le_refl 19)
    rw [leadLines_display hb, leadLines_display hb', Option.some.injEq] at hdisplay
    exact display_inj hb hb' (String.toList_inj.1 (List.append_cancel_left hdisplay))

theorem hookLines_first (b : Backing) : ∃ s, (hookLines b).head? = some s ∧
    s.any isMark = false ∧ s ≠ "    \x7d".toList := by
  cases hnumeric : b.isNumeric with
  | true =>
    refine ⟨"        if (value < 0)".toList, ?_, by decide, by decide⟩
    rw [hookLines, hnumeric]
    rfl
  | false =>
    refine ⟨"        if (value is null)".toList, ?_, by decide, by decide⟩
    rw [hookLines, hnumeric]
    rfl

/-- The first line of the validation method closes it exactly when nothing is validated. -/
theorem validation_mem_iff (b : Backing) (n : Text) (kinds : List Implementation) (rest : Lines) :
    .validation ∈ kinds ↔ ((hookOf b kinds).map (spell b n) ++ "    \x7d".toList :: rest).head? ≠
      some "    \x7d".toList := by
  rw [mem_iff_filter_ne_nil, hookOf]
  cases kinds.filter (· = .validation) with
  | nil => exact iff_of_false (fun h => h rfl) fun h => h rfl
  | cons k more =>
    obtain ⟨s, hs, hmark, hne⟩ := hookLines_first b
    obtain ⟨lines, hlines⟩ := List.head?_eq_some_iff.1 hs
    refine iff_of_true (List.cons_ne_nil k more) ?_
    rw [List.flatMap_cons, hlines, List.cons_append, List.map_cons, spell_eq_self b n hmark,
      List.cons_append, List.head?_cons]
    exact fun e => hne (Option.some.inj e)

/-- The groups after the implementations are there exactly for the nested converter. -/
theorem nested_mem_iff (b : Backing) (n : Text) (converters : List Converter) :
    .efCoreValueConverter ∈ converters ↔
      (((converters.filter (· = .efCoreValueConverter)).map fun _ => indent entityFramework).flatMap
        fun g => [] :: g.map (spell b n)) ≠ [] := by
  rw [mem_iff_filter_ne_nil]
  cases converters.filter (· = .efCoreValueConverter) with
  | nil => exact iff_of_false (fun h => h rfl) fun h => h rfl
  | cons k more =>
    refine iff_of_true (List.cons_ne_nil k more) ?_
    rw [List.map_cons, List.flatMap_cons]
    exact List.cons_ne_nil _ _

/-- With the listed contracts, the lines of the struct tell the backing, the implementations and
whether the nested converter is there. -/
theorem inner_page_inj {scope scope' : Option Text} {n : Text} {b b' : Backing}
    {cs cs' : List Converter} {ks ks' : List Implementation}
    (hks : ks.Pairwise fun j k => j.position < k.position)
    (hks' : ks'.Pairwise fun j k => j.position < k.position)
    (hlisted : Interfaces.listed n ks = Interfaces.listed n ks')
    (e : (page scope n b cs ks).inner = (page scope' n b' cs' ks').inner) :
    b = b' ∧ ks = ks' ∧ (.efCoreValueConverter ∈ cs ↔ .efCoreValueConverter ∈ cs') := by
  rw [inner_page, inner_page] at e
  obtain rfl := backing_of_leadLines e
  obtain ⟨-, hhook⟩ := List.cons.inj (List.append_cancel_left e)
  obtain rfl : ks = ks' := by
    refine eq_of_ascending_of_mem hks hks' fun k => ?_
    by_cases hk : k = .validation
    · subst hk
      rw [validation_mem_iff b n ks, hhook, ← validation_mem_iff]
    · exact mem_iff_of_listed hlisted hk
  obtain ⟨-, hgroups⟩ := List.cons.inj (List.append_cancel_left hhook)
  rw [memberGroups, memberGroups, List.flatMap_append, List.flatMap_append] at hgroups
  have hnested := List.append_cancel_left hgroups
  refine ⟨rfl, rfl, ?_⟩
  rw [nested_mem_iff b n cs, hnested, ← nested_mem_iff]

/-! ### The whole source -/

/-- After the front of a page comes the first line of its struct. -/
theorem lines_page {scope : Option Text} {n : Text} {b : Backing} {cs : List Converter}
    {ks : List Implementation} (h : (page scope n b cs ks).Legible) :
    ∃ s rest, OpensStruct s ∧ (page scope n b cs ks).lines = frontLines scope ++ s :: rest := by
  have hfront : (page scope n b cs ks).front = frontLines scope := rfl
  rw [Page.lines, Page.above, hfront]
  cases hattributes : (page scope n b cs ks).attributes with
  | nil =>
    have hopens : OpensStruct (page scope n b cs ks).header := ⟨'r', by decide, h.head?_header⟩
    exact ⟨_, _, hopens, by rw [List.append_nil]⟩
  | cons s more =>
    have hopens := (h.attributes s (hattributes ▸ List.mem_cons_self)).2
    exact ⟨s, _, ⟨'[', by decide, hopens⟩, by rw [List.append_assoc, List.cons_append]⟩

theorem scope_of_source {scope scope' : Option Text} {n n' : Text} {b b' : Backing}
    {cs cs' : List Converter} {ks ks' : List Implementation}
    (h : (page scope n b cs ks).Legible) (h' : (page scope' n' b' cs' ks').Legible)
    (e : (page scope n b cs ks).source = (page scope' n' b' cs' ks').source) :
    scope = scope' := by
  have hlines := ofLines_inj h.line h'.line e
  obtain ⟨s, rest, hs, hsplit⟩ := lines_page h
  obtain ⟨s', rest', hs', hsplit'⟩ := lines_page h'
  rw [hsplit, hsplit'] at hlines
  exact frontLines_append_inj hs hs' hlines

theorem page_inj {scope scope' : Option Text} (hscope : ∀ s ∈ scope, isDotted s = true)
    (hscope' : ∀ s ∈ scope', isDotted s = true) {n n' : Text} (hn : isIdentifier n = true)
    (hn' : isIdentifier n' = true) {b b' : Backing} {cs cs' : List Converter}
    {ks ks' : List Implementation} (hcs : cs.Pairwise fun j k => j.position < k.position)
    (hcs' : cs'.Pairwise fun j k => j.position < k.position)
    (hks : ks.Pairwise fun j k => j.position < k.position)
    (hks' : ks'.Pairwise fun j k => j.position < k.position)
    (e : (page scope n b cs ks).source = (page scope' n' b' cs' ks').source) :
    scope = scope' ∧ n = n' ∧ b = b' ∧ cs = cs' ∧ ks = ks' := by
  have hlegible := legible_page hn hscope b cs ks
  have hlegible' := legible_page hn' hscope' b' cs' ks'
  obtain rfl := scope_of_source hlegible hlegible' e
  -- the name and the contracts
  have hheader := hlegible.structHeader?_source
  have hheader' := hlegible'.structHeader?_source
  obtain rfl : n = n' := by
    rw [e, hheader'] at hheader
    exact name_of_header hn hn' (Option.some.inj hheader).symm
  have hlisted : Interfaces.listed n ks = Interfaces.listed n ks' := by
    have hentries := Interfaces.shape_of_mem_listed hn
    rw [← interfaces_eq hheader hn (hentries ks), e, interfaces_eq hheader' hn (hentries ks')]
  -- the classes
  have hclasses : cs.filter (¬ · = .efCoreValueConverter) =
      cs'.filter (¬ · = .efCoreValueConverter) := by
    have hnames := hlegible.topLevelClasses_source
    rw [e, hlegible'.topLevelClasses_source, page, page, List.map_map, List.map_map] at hnames
    exact (converters_of_names hnames).symm
  -- the body
  have hinner : (page scope n b cs ks).inner = (page scope n b' cs' ks').inner := by
    have hbody := hlegible.structBody?_source
    rw [e, hlegible'.structBody?_source, Option.some.injEq] at hbody
    exact ofLines_inj (fun _ => hlegible.isLine_inner) (fun _ => hlegible'.isLine_inner)
      (List.cons.inj hbody).2.symm
  obtain ⟨rfl, rfl, hnested⟩ := inner_page_inj hks hks' hlisted hinner
  have hconverters : cs = cs' := by
    refine eq_of_ascending_of_mem hcs hcs' fun k => ?_
    by_cases hk : k = .efCoreValueConverter
    · subst hk
      exact hnested
    · have hkept : ∀ cs : List Converter,
          k ∈ cs ↔ k ∈ cs.filter (¬ · = .efCoreValueConverter) := fun cs => by
        simp [hk]
      rw [hkept cs, hclasses, ← hkept cs']
  exact ⟨rfl, rfl, rfl, hconverters, rfl⟩

/-- The keys of a selection are for one backing, and name the kinds that are kept. -/
theorem keys_selection_iff (s s' : Spec) : (selection s).keys = (selection s').keys ↔
    s.backing = s'.backing ∧ (selection s).converters = (selection s').converters ∧
      (selection s).implementations = (selection s').implementations := by
  constructor
  · intro h
    have hbase : (selection s).keys.head? = (selection s').keys.head? := congrArg _ h
    refine ⟨Key.base.inj (Option.some.inj hbase), ?_, ?_⟩
    · rw [Selection.converters, h, ← Selection.converters]
    · rw [Selection.implementations, h, ← Selection.implementations]
  · rintro ⟨hbacking, hconverters, himplementations⟩
    have hkeys := s.keys_by_family catalog
    have hkeys' := s'.keys_by_family catalog
    change (selection s).keys = _ :: (List.map _ (selection s).converters ++
      List.map _ (selection s).implementations) at hkeys
    change (selection s').keys = _ :: (List.map _ (selection s').converters ++
      List.map _ (selection s').implementations) at hkeys'
    rw [hkeys, hkeys', hbacking, hconverters, himplementations]

theorem source_pageOf_iff {s s' : Spec} (hs : s.WellNamed) (hs' : s'.WellNamed) :
    (pageOf s).source = (pageOf s').source ↔
      s.scope = s'.scope ∧ s.name = s'.name ∧ (selection s).keys = (selection s').keys := by
  rw [keys_selection_iff]
  constructor
  · exact page_inj hs.scope hs'.scope hs.name hs'.name (s.converters_ascending catalog)
      (s'.converters_ascending catalog) (s.grounded_chosen catalog).ascending
      (s'.grounded_chosen catalog).ascending
  · rintro ⟨hscope, hname, hbacking, hconverters, himplementations⟩
    rw [pageOf, pageOf, hscope, hname, hbacking, hconverters, himplementations]

end Builtin

theorem Text.encode_inj {s t : Text} (h : encode s = encode t) : s = t := by
  have hdecode := decode?_encode s
  rw [h, decode?_encode t] at hdecode
  exact (Option.some.inj hdecode).symm

/-- Over a file with the source of one unit, the write of another leaves it alone exactly when the
sources are the same. -/
theorem Sink.write_eq_unchanged_iff {k : Sink} {t t' : FileTree} {base : Path} {u : SourceUnit}
    {o : WriteOutcome} {source : Text} (hname : PlainName u.hintName)
    (hbase : k.directory = some base)
    (hfile : t.lookup (base ++ [u.hintName]) = some (.file (encode source)))
    (h : k.write t u = .ok (t', o)) : o = .unchanged ↔ source = u.source := by
  obtain ⟨base', hbase', hwrote⟩ := write_eq_ok hname h
  obtain rfl : base = base' := Option.some.inj (hbase.symm.trans hbase')
  have hsame : t.lookup (base ++ [u.hintName]) = some (.file (encode u.source)) ↔
      source = u.source := by
    rw [hfile, Option.some.injEq, Entry.file.injEq]
    exact ⟨encode_inj, congrArg encode⟩
  cases hwrote with
  | unchanged hfound => exact ⟨fun _ => hsame.1 hfound, fun _ => rfl⟩
  | written hdiffers =>
    refine iff_of_false ?_ fun e => hdiffers (hsame.2 e)
    rintro ⟨⟩

namespace Request

/-- Two built-in sources are the same exactly for the same namespace, name and chosen fragments.
So a write finds the file unchanged only where it was written for that selection. -/
theorem source_eq_iff {r r' : Request} (h : r.WellNamed) (h' : r'.WellNamed) (d d' : Defaults) :
    ∃ s s' sel sel' u u', r.resolve d = .ok s ∧ r'.resolve d' = .ok s' ∧
      s.select Builtin.catalog = .ok sel ∧ s'.select Builtin.catalog = .ok sel' ∧
      r.generate d Builtin.catalog = .ok u ∧ r'.generate d' Builtin.catalog = .ok u' ∧
      (u.source = u'.source ↔ r.scope = r'.scope ∧ r.name = r'.name ∧ sel.keys = sel'.keys) ∧
      (sel.keys = sel'.keys ↔ s.backing = s'.backing ∧ sel.converters = sel'.converters ∧
        sel.implementations = sel'.implementations) ∧
      ∀ (k : Sink) (base : Path) (t t' : FileTree) (o : WriteOutcome), k.directory = some base →
        t.lookup (base ++ [u'.hintName]) = some (.file (encode u.source)) →
        k.write t u' = .ok (t', o) →
        (o = .unchanged ↔ r.scope = r'.scope ∧ r.name = r'.name ∧ sel.keys = sel'.keys) := by
  obtain ⟨a, hgenerate, -, hsource⟩ := generate_pageOf h d
  obtain ⟨a', hgenerate', -, hsource'⟩ := generate_pageOf h' d'
  have hs : (r.filled d).WellNamed := ⟨h.name, h.scope⟩
  have hs' : (r'.filled d').WellNamed := ⟨h'.name, h'.scope⟩
  have hiff := Builtin.source_pageOf_iff hs hs'
  rw [← hsource, ← hsource'] at hiff
  refine ⟨_, _, _, _, _, _, resolve_eq_ok.2 ⟨h, rfl⟩, resolve_eq_ok.2 ⟨h', rfl⟩,
    Builtin.select_eq_ok _, Builtin.select_eq_ok _, hgenerate, hgenerate', hiff,
    Builtin.keys_selection_iff _ _, ?_⟩
  intro k base t t' o hbase hfile hwrite
  rw [Sink.write_eq_unchanged_iff hs'.sourceName.plainName hbase hfile hwrite]
  exact hiff

/-- A request for nothing but the stored value. -/
def bareRequest (b : Backing) : Request where
  name := "SessionId".toList
  backing := .explicit b
  converters := .explicit (.ofList [])
  implementations := .explicit (.ofList [])

/-- The two kinds of GUID store the same and have no capabilities here, and are told apart: over the
file of the one, the other is written. -/
theorem source_ne_bareRequest :
    (bareRequest .guid).WellNamed ∧ (bareRequest .maskedGuid).WellNamed ∧
      ∃ u u', (bareRequest .guid).generate .builtIn Builtin.catalog = .ok u ∧
        (bareRequest .maskedGuid).generate .builtIn Builtin.catalog = .ok u' ∧
        u.source ≠ u'.source ∧
        ∃ (k : Sink) (t t' : FileTree), k.directory = some [] ∧
          t.lookup ([] ++ [u'.hintName]) = some (.file (encode u.source)) ∧
          k.write t u' = .ok (t', .written) := by
  have hname : isIdentifier "SessionId".toList = true := by decide
  have h : ∀ b, (bareRequest b).WellNamed := fun b => ⟨hname, fun _ hs => by cases hs⟩
  obtain ⟨s, s', sel, sel', u, u', hs, hs', -, -, hu, hu', hiff, hkeys, hsink⟩ :=
    source_eq_iff (h .guid) (h .maskedGuid) .builtIn .builtIn
  obtain ⟨-, rfl⟩ := resolve_eq_ok.1 hs
  obtain ⟨-, rfl⟩ := resolve_eq_ok.1 hs'
  have hapart : ¬ ((bareRequest .guid).scope = (bareRequest .maskedGuid).scope ∧
      (bareRequest .guid).name = (bareRequest .maskedGuid).name ∧ sel.keys = sel'.keys) := by
    rintro ⟨-, -, hsel⟩
    have hbacking : Backing.guid = Backing.maskedGuid := (hkeys.1 hsel).1
    cases hbacking
  refine ⟨h _, h _, u, u', hu, hu', fun e => hapart (hiff.1 e), ⟨[], some []⟩,
    FileTree.put ⟨[]⟩ [u'.hintName] (.file (encode u.source)), ?_⟩
  have hfile : (FileTree.put ⟨[]⟩ [u'.hintName] (.file (encode u.source))).lookup
      ([] ++ [u'.hintName]) = some (.file (encode u.source)) := by
    rw [FileTree.lookup_put _ _ _ _ (List.cons_ne_nil _ _), List.nil_append, if_pos rfl]
  have hhint : u'.hintName = "SessionId.g.cs".toList := by
    obtain ⟨s, hs, hhint⟩ := resolve_of_generate hu'
    obtain ⟨-, rfl⟩ := resolve_eq_ok.1 hs
    rw [hhint]
    decide
  have hplain : PlainName u'.hintName := by
    rw [hhint]
    constructor <;> decide
  obtain ⟨t', o, hwrite⟩ := Sink.write_of_file (k := ⟨[], some []⟩) hplain
    (by rw [hhint]; decide) (by rw [hhint]; decide) rfl hfile
  have ho := hsink _ [] _ t' o rfl hfile hwrite
  cases o with
  | unchanged => exact absurd (ho.1 rfl) hapart
  | written => exact ⟨t', rfl, hfile, hwrite⟩

end Request
end TypedId
