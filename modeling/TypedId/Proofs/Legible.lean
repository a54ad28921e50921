import TypedId.Proofs.BuiltinPage

/-!
# Built-in pages are legible

Whatever the type is called, no line of a built-in page can be mistaken for one of another sort: a
name holds neither blanks nor braces, commas or line ends.
-/

namespace TypedId

open Placeholder Text Outline

namespace Text

theorem avoids_substitute {token value s bad : Text} (hvalue : Avoids value bad)
    (h : ∀ p ∈ pieces token s, Avoids p bad) : Avoids (substitute token value s) bad :=
  hvalue.intercalate h

end Text

/-! ### The header -/

namespace Interfaces

theorem shape_of_contract (k : Implementation) : ∀ t ∈ k.contracts, isEntry 0 t.toList = true ∧
    t.toList.head? = some 'S' ∧
    (t.toList.getLast?.any fun c => c ∉ typeToken && !isBlank c) = true ∧
    ∀ p ∈ pieces typeToken t.toList, Avoids p ['\n', '\r', '\x7b', '\x7d'] := by
  cases k
  all_goals
    simp only [Implementation.contracts, List.forall_mem_cons]
    repeat rw [String.toList_ofList]
    decide

theorem isEntry_substitute {n : Text} (hn : isIdentifier n = true) (depth : Nat) (s : Text) :
    isEntry depth (substitute typeToken n s) = isEntry depth s := by
  have hname : Avoids n [',', '<', '>'] := avoids_of_isIdentifier hn (by decide)
  have hne := isPlaceholder_typeToken.ne_nil
  induction s using walk_induction hne generalizing depth with
  | nil => rw [substitute_nil]
  | token_append s ih =>
    rw [substitute_token_append hne, isEntry_append_of_avoids hname,
      isEntry_append_of_avoids (by decide), ih]
  | cons c s hc ih => rw [substitute_cons hc, isEntry, isEntry, ih]

/-- A contract as it stands in a header. -/
structure Entry (e : Text) : Prop where
  entry : isEntry 0 e = true
  first : e.head? = some 'S'
  last : ∃ c, e.getLast? = some c ∧ isBlank c = false
  plain : Avoids e ['\n', '\r', '\x7b', '\x7d']

theorem Entry.trimmed {e : Text} (h : Entry e) : Trimmed e where
  first c hc := by
    rw [h.first] at hc
    cases hc
    decide
  last c hc := by
    obtain ⟨d, hd, hblank⟩ := h.last
    rw [hd] at hc
    cases hc
    exact hblank

theorem entry_of_mem_listed {n : Text} (hn : isIdentifier n = true) {kinds : List Implementation}
    {e : Text} (h : e ∈ listed n kinds) : Entry e := by
  obtain ⟨t, ht, rfl⟩ := List.mem_map.1 h
  obtain ⟨k, -, hk⟩ := List.mem_flatMap.1 (List.mem_eraseDups.1 ht)
  obtain ⟨hentry, hfirst, hlast, hplain⟩ := shape_of_contract k t hk
  have hne := isPlaceholder_typeToken.ne_nil
  -- the first and the last character stay, for no token starts or ends with them
  refine ⟨?_, ?_, ?_, ?_⟩
  · rw [isEntry_substitute hn, hentry]
  · obtain ⟨rest, hrest⟩ := List.head?_eq_some_iff.1 hfirst
    rw [hrest, substitute_cons (typeToken_not_leading (by decide) rest), List.head?_cons]
  · obtain ⟨c, hc, hcheck⟩ := (Option.any_eq_true _ _).1 hlast
    obtain ⟨front, hfront⟩ := List.getLast?_eq_some_iff.1 hc
    have hapart : c ∉ typeToken ∧ isBlank c = false := by simpa using hcheck
    refine ⟨c, ?_, hapart.2⟩
    rw [hfront, substitute_append_cons hne hapart.1, substitute_nil, List.getLast?_concat]
  · exact avoids_substitute (avoids_of_isIdentifier hn (by decide)) hplain

theorem shape_of_mem_listed {n : Text} (hn : isIdentifier n = true) (kinds : List Implementation) :
    ∀ e ∈ listed n kinds, isEntry 0 e = true ∧ Trimmed e := by
  intro e he
  have hentry := entry_of_mem_listed hn he
  exact ⟨hentry.entry, hentry.trimmed⟩

theorem avoids_heading {entries : List Text} {bad : Text} (hcolon : Avoids " : ".toList bad)
    (hcomma : Avoids ", ".toList bad) (h : ∀ e ∈ entries, Avoids e bad) :
    Avoids (heading entries) bad := by
  cases entries with
  | nil => exact fun _ _ => List.not_mem_nil
  | cons e entries => exact hcolon.append (hcomma.intercalate h)

theorem getLast?_heading {entries : List Text} (hne : entries ≠ []) (h : ∀ e ∈ entries, Entry e) :
    ∃ c, (heading entries).getLast? = some c ∧ isBlank c = false := by
  obtain ⟨e, entries, rfl⟩ := List.exists_cons_of_ne_nil hne
  have hheading : heading (e :: entries) =
      " : ".toList ++ ", ".toList.intercalate (e :: entries) := rfl
  have hentries : ∃ c, (", ".toList.intercalate (e :: entries)).getLast? = some c ∧
      isBlank c = false :=
    intercalate_induction (fun a _ => exists_last_append a) hne fun e he => (h e he).last
  rw [hheading]
  exact exists_last_append " : ".toList hentries

end Interfaces

namespace Builtin

variable {n : Text}

theorem trimmed_header (hn : isIdentifier n = true) (implementations : List Implementation) :
    Trimmed (headerOpening ++ n ++
      Interfaces.heading (Interfaces.listed n implementations)) where
  first c hc := by
    rw [headerOpening_eq] at hc
    cases hc
    decide
  last c hc := by
    -- the header ends in the last contract, or in the name if there are none
    rw [List.getLast?_append] at hc
    cases hlisted : Interfaces.listed n implementations with
    | nil =>
      obtain ⟨init, d, hd⟩ := (List.eq_nil_or_concat n).resolve_left (ne_nil_of_isIdentifier hn)
      rw [List.concat_eq_append] at hd
      have hlast : (headerOpening ++ n).getLast? = some d := by
        rw [hd, ← List.append_assoc, List.getLast?_concat]
      rw [hlisted, hlast] at hc
      cases hc
      have hmem : c ∈ n := by simp [hd]
      exact isBlank_of_isIdentifierPart (isIdentifierPart_of_mem hn c hmem)
    | cons e entries =>
      have hentries : ∀ x ∈ e :: entries, Interfaces.Entry x := by
        rw [← hlisted]
        exact fun x hx => Interfaces.entry_of_mem_listed hn hx
      obtain ⟨d, hd, hblank⟩ := Interfaces.getLast?_heading (List.cons_ne_nil e entries) hentries
      rw [hlisted, hd, Option.some_or] at hc
      cases hc
      exact hblank

theorem avoids_header (hn : isIdentifier n = true) (implementations : List Implementation) :
    Avoids (headerOpening ++ n ++ Interfaces.heading (Interfaces.listed n implementations))
      ['\n', '\r', '\x7b', '\x7d'] := by
  have hopening : Avoids headerOpening ['\n', '\r', '\x7b', '\x7d'] := by decide
  have hname : Avoids n ['\n', '\r', '\x7b', '\x7d'] := avoids_of_isIdentifier hn (by decide)
  refine (hopening.append hname).append (Interfaces.avoids_heading (by decide) (by decide) ?_)
  exact fun e he => (Interfaces.entry_of_mem_listed hn he).plain

/-! ### The lines above the header -/

/-- The words that open a header have three blanks. -/
theorem not_infix_of_count {s : Text} (h : s.count ' ' < 3) : ¬ headerOpening <:+: s := by
  intro hi
  have hthree : headerOpening.count ' ' = 3 := by decide
  have := hi.sublist.count_le ' '
  omega

theorem front_legible {scope : Option Text} (hscope : ∀ s ∈ scope, isDotted s = true) :
    ∀ s ∈ frontLines scope, IsLine s ∧ ¬ headerOpening <:+: s ∧ s.head? ≠ some 'c' := by
  have hfixed : ∀ s ∈ ["// <auto-generated/>".toList, "#nullable enable".toList, []],
      IsLine s ∧ s.count ' ' < 3 ∧ s.head? ≠ some 'c' := by
    rw [String.toList_ofList, String.toList_ofList]
    decide
  have hclear : ∀ s ∈ ["// <auto-generated/>".toList, "#nullable enable".toList, []],
      IsLine s ∧ ¬ headerOpening <:+: s ∧ s.head? ≠ some 'c' := fun s hs =>
    ⟨(hfixed s hs).1, not_infix_of_count (hfixed s hs).2.1, (hfixed s hs).2.2⟩
  cases scope with
  | none => exact hclear
  | some scope =>
    have hdotted : ∀ {c : Char}, isIdentifierPart c = false → c ≠ '.' → c ∉ scope :=
      not_mem_of_isDotted (hscope scope rfl)
    have hword : "namespace ".toList = ['n', 'a', 'm', 'e', 's', 'p', 'a', 'c', 'e', ' '] :=
      String.toList_ofList
    have hcount : ("namespace ".toList ++ scope ++ [';']).count ' ' = 1 := by
      rw [List.count_append, List.count_append,
        List.count_eq_zero_of_not_mem (hdotted (by decide) (by decide)), hword]
      rfl
    have hline : IsLine ("namespace ".toList ++ scope ++ [';']) := by
      have hscope : Avoids scope ['\n', '\r'] := by
        refine List.forall_mem_cons.2 ⟨?_, List.forall_mem_singleton.2 ?_⟩ <;>
          exact hdotted (by decide) (by decide)
      rw [hword]
      exact (Avoids.append (by decide) hscope).append (by decide)
    have hsplit : frontLines (some scope) =
        ["// <auto-generated/>".toList, "#nullable enable".toList, []] ++
          ["namespace ".toList ++ scope ++ [';'], []] := rfl
    have hfirst : ("namespace ".toList ++ scope ++ [';']).head? ≠ some 'c' := by
      rw [hword]
      exact fun e => absurd (Option.some.inj e) (by decide)
    rw [hsplit]
    refine List.forall_mem_append.2 ⟨hclear, List.forall_mem_cons.2 ⟨?_, ?_⟩⟩
    · exact ⟨hline, not_infix_of_count (by omega), hfirst⟩
    · exact List.forall_mem_singleton.2 (hclear [] (by simp))

theorem attribute_shape (b : Backing) (k : Converter) {t : Text}
    (h : (converter b k).attributeLine = some t) : ∃ s, t = line b s ∧ isSober s = true ∧
      s.head? = some '[' ∧ Avoids s [' ', '\n', '\r'] := by
  cases k with
  | newtonsoftJson =>
    cases h
    exact ⟨_, rfl, by rw [String.toList_ofList]; decide⟩
  | systemTextJson =>
    cases h
    exact ⟨_, rfl, by rw [String.toList_ofList]; decide⟩
  | typeConverter =>
    cases h
    exact ⟨_, rfl, by rw [String.toList_ofList]; decide⟩
  | efCoreValueConverter => cases h
  | dapperTypeHandler => cases h

theorem attributes_legible (hn : isIdentifier n = true) (b : Backing)
    (converters : List Converter) :
    ∀ s ∈ (converters.filterMap fun k => (converter b k).attributeLine).map
      (substitute typeToken n),
      IsLine s ∧ ¬ headerOpening <:+: s ∧ s.head? = some '[' := by
  refine List.forall_mem_map.2 fun t ht => ?_
  obtain ⟨k, -, hk⟩ := List.mem_filterMap.1 ht
  obtain ⟨s, rfl, hsober, hfirst, hplain⟩ := attribute_shape b k hk
  have hspell : Avoids (spell b n s) [' ', '\n', '\r'] :=
    avoids_spell hplain (avoids_of_isIdentifier hn (by decide)) ((avoids_meanings b).mono (by simp))
  obtain ⟨rest, hrest⟩ := List.head?_eq_some_iff.1 hfirst
  rw [substitute_line b n hsober]
  refine ⟨hspell.mono (by simp), not_infix_of_count ?_, ?_⟩
  · rw [List.count_eq_zero_of_not_mem (hspell ' ' (by simp))]
    decide
  · rw [hrest, spell_cons_of_not_isMark b n (by decide), List.head?_cons]

/-! ### The lines after the header -/

theorem groups_legible (hn : isIdentifier n = true) (b : Backing) (converters : List Converter)
    (implementations : List Implementation) :
    ∀ g ∈ (groups b converters implementations).map (List.map (spell b n)),
      (∀ s ∈ g, IsLine s) ∧ BraceBalanced g.flatten ∧ ∀ s ∈ g, s.head? ≠ some 'c' := by
  refine List.forall_mem_map.2 fun g hg => ?_
  have hfit := fit_groups b converters implementations g hg
  have hneat := hfit.neat.spell (b := b) hn
  refine ⟨hneat.1, hneat.2, List.forall_mem_map.2 fun s hs => ?_⟩
  exact (hfit.inset s hs).spell.head?_ne

theorem isIdentifierPart_adapter (hn : isIdentifier n = true) (b : Backing) (k : Converter) :
    (adapter b n k).name.all isIdentifierPart = true := by
  have hname : n.all isIdentifierPart = true := List.all_eq_true.2 (isIdentifierPart_of_mem hn)
  have hsuffix : k.classSuffix.toList.all isIdentifierPart = true := by
    cases k <;> decide
  rw [adapter, List.all_append, hname, hsuffix, Bool.and_self]

theorem adapters_legible (hn : isIdentifier n = true) (b : Backing) (converters : List Converter) :
    ∀ a ∈ (converters.filter (¬ · = .efCoreValueConverter)).map (adapter b n),
      (∀ s ∈ a.lines, IsLine s) ∧ (a.name ≠ [] ∧ a.name.any isBlank = false) ∧
        ∀ s ∈ a.below, s.head? ≠ some 'c' := by
  refine List.forall_mem_map.2 fun k hk => ?_
  have hne : k ≠ .efCoreValueConverter := by simpa using (List.mem_filter.1 hk).2
  have hneat := (neat_adapterLines b k).spell (b := b) hn
  refine ⟨?_, ⟨?_, ?_⟩, fun s hs => (inset_below b n hne s hs).head?_ne⟩
  · rw [lines_adapter b n hne]
    exact hneat.1
  · exact List.append_ne_nil_of_left_ne_nil (ne_nil_of_isIdentifier hn) _
  · exact any_isBlank_of_all (isIdentifierPart_adapter hn b k)

/-! ### The whole page -/

theorem legible_page (hn : isIdentifier n = true) {scope : Option Text}
    (hscope : ∀ s ∈ scope, isDotted s = true) (b : Backing) (converters : List Converter)
    (implementations : List Implementation) :
    (page scope n b converters implementations).Legible where
  line := by
    have hbrace : IsLine ['\x7b'] ∧ IsLine ['\x7d'] ∧ IsLine [] := by decide
    have hinner : ∀ s ∈ (page scope n b converters implementations).inner, IsLine s := by
      intro s hs
      rcases mem_intercalate hs with hs | ⟨g, hg, hs⟩
      · rw [List.mem_singleton.1 hs]
        exact hbrace.2.2
      · exact (groups_legible hn b converters implementations g hg).1 s hs
    have htail : ∀ s ∈ (page scope n b converters implementations).tail, IsLine s := by
      intro s hs
      obtain ⟨a, ha, hs⟩ := List.mem_flatMap.1 hs
      rcases List.mem_cons.1 hs with rfl | hs
      · exact hbrace.2.2
      · exact (adapters_legible hn b converters a ha).1 s hs
    have hheader : IsLine (page scope n b converters implementations).header :=
      (avoids_header hn implementations).mono (by simp)
    refine List.forall_mem_append.2 ⟨List.forall_mem_append.2 ⟨?_, ?_⟩, ?_⟩
    · exact fun s hs => (front_legible hscope s hs).1
    · exact fun s hs => (attributes_legible hn b converters s hs).1
    · refine List.forall_mem_cons.2 ⟨hheader, List.forall_mem_cons.2 ⟨hbrace.1, ?_⟩⟩
      exact List.forall_mem_append.2 ⟨hinner, List.forall_mem_cons.2 ⟨hbrace.2.1, htail⟩⟩
  front s hs := (front_legible hscope s hs).2
  gap := by cases scope <;> rfl
  attributes s hs := (attributes_legible hn b converters s hs).2
  header := by
    rw [page, List.append_assoc]
    exact List.prefix_append _ _
  openHeader := avoids_header hn implementations '\x7b' (by simp)
  trimmed := trimmed_header hn implementations
  blocks g hg := (groups_legible hn b converters implementations g hg).2
  adapters a ha := (adapters_legible hn b converters a ha).2

end Builtin

end TypedId
