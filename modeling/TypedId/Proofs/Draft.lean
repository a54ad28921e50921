import TypedId.Proofs.NameOnly

/-!
# Drafts

A draft is a unit put together before the type's name is filled in. Where its sections meet at line
ends, filling the name into the sections is filling it into the whole draft; and where the sections
hold only the name's braces, every step of composing succeeds.
-/

namespace TypedId

open Placeholder Text

namespace Assembly

/-! ### Filling the name into a draft -/

/-- The source of a unit that holds what the assembly does. -/
def text (a : Assembly) (scope : Option Text) : Text :=
  SourceUnit.preamble ++ SourceUnit.scopeLine scope ++
    ['\n'].intercalate (structText a.attributeLines a.header a.blocks :: a.siblings)

theorem source_unit (a : Assembly) (s : Spec) (sel : Selection) :
    (a.unit s sel).source = a.text s.scope := by
  have hsiblings : (a.siblings.map (Declaration.ofSibling s.name)).map (·.text) = a.siblings := by
    rw [List.map_map]
    exact List.map_id _
  rw [unit, SourceUnit.assemble, declarations, List.map_cons, hsiblings]
  rfl

/-- An assembly with the name filled into its sections. -/
def named (n : Text) (a : Assembly) : Assembly :=
  { a with
    hooks := a.hooks.map (substitute typeToken n)
    header := substitute typeToken n a.header
    body := substitute typeToken n a.body
    members := a.members.map (substitute typeToken n)
    attributeLines := a.attributeLines.map (substitute typeToken n)
    siblings := a.siblings.map (substitute typeToken n) }

/-- The sections hold no braces but the name's, and those that stand between others are whole
lines. -/
structure Tidy (a : Assembly) : Prop where
  hooks : ∀ t ∈ a.hooks, NameOnly t ∧ EndsLine t
  header : NameOnly a.header
  body : NameOnly a.body ∧ EndsLine a.body
  members : ∀ t ∈ a.members, NameOnly t ∧ EndsLine t
  attributeLines : ∀ t ∈ a.attributeLines, NameOnly t
  siblings : ∀ t ∈ a.siblings, NameOnly t

/-- The closing brace of the struct comes after a line end. -/
theorem structText_eq (attributeLines : List Text) (header : Text) (blocks : List Text) :
    structText attributeLines header blocks = attributeLines.flatMap (· ++ ['\n']) ++
      (header ++ '\n' :: (['\x7b'] ++ '\n' :: (['\n'].intercalate blocks ++ ['\x7d', '\n']))) := by
  simp [structText]

theorem substitute_attributeLines (n : Text) (lines : List Text) (rest : Text) :
    substitute typeToken n (lines.flatMap (· ++ ['\n']) ++ rest) =
      (lines.map (substitute typeToken n)).flatMap (· ++ ['\n']) ++ substitute typeToken n rest := by
  induction lines with
  | nil => rfl
  | cons a lines ih =>
    rw [List.flatMap_cons, List.append_assoc, List.append_assoc, List.singleton_append,
      substitute_append_cons isPlaceholder_typeToken.ne_nil newline_not_mem_typeToken, ih]
    simp

theorem nameOnly_attributeLines {lines : List Text} {rest : Text} (h : ∀ t ∈ lines, NameOnly t)
    (hrest : NameOnly rest) : NameOnly (lines.flatMap (· ++ ['\n']) ++ rest) := by
  induction lines with
  | nil => exact hrest
  | cons a lines ih =>
    obtain ⟨ha, hlines⟩ := List.forall_mem_cons.1 h
    rw [List.flatMap_cons, List.append_assoc, List.append_assoc, List.singleton_append,
      nameOnly_append_cons newline_not_mem_typeToken]
    exact ⟨ha, ih hlines⟩

namespace Tidy

variable {a : Assembly}

theorem blocks (h : a.Tidy) : ∀ t ∈ a.blocks, NameOnly t ∧ EndsLine t :=
  List.forall_mem_cons.2 ⟨h.body, h.members⟩

theorem endsLine_blocks (h : a.Tidy) : EndsLine (['\n'].intercalate a.blocks) :=
  EndsLine.intercalate (List.cons_ne_nil _ _) fun t ht => (h.blocks t ht).2

theorem structText_named (h : a.Tidy) (n : Text) :
    structText (a.named n).attributeLines (a.named n).header (a.named n).blocks =
      substitute typeToken n (structText a.attributeLines a.header a.blocks) := by
  have hne := isPlaceholder_typeToken.ne_nil
  have hline := newline_not_mem_typeToken
  have hopen : substitute typeToken n ['\x7b'] = ['\x7b'] :=
    substitute_of_absent n (by decide)
  have hclose : substitute typeToken n ['\x7d', '\n'] = ['\x7d', '\n'] :=
    substitute_of_absent n (by decide)
  have hblocks : (a.named n).blocks = a.blocks.map (substitute typeToken n) := rfl
  rw [structText_eq, structText_eq, substitute_attributeLines, substitute_append_cons hne hline,
    substitute_append_cons hne hline, hopen, substitute_of_endsLine hne hline n h.endsLine_blocks,
    hclose, substitute_intercalate hne hline, hblocks]
  rfl

/-- Filling the name into the sections is filling it into the whole. -/
theorem text_named (h : a.Tidy) {scope : Option Text} (hs : ∀ s ∈ scope, isDotted s = true)
    (n : Text) : (a.named n).text scope = substitute typeToken n (a.text scope) := by
  have hne := isPlaceholder_typeToken.ne_nil
  have hline := newline_not_mem_typeToken
  obtain ⟨front, hfront, hbrace⟩ := SourceUnit.front_shape hs
  have hnone : ¬ typeToken <:+: front := fun hi => hbrace (hi.subset (by decide))
  rw [text, text, hfront, substitute_of_endsLine hne hline n ⟨front, rfl⟩,
    substitute_append_cons hne hline, substitute_of_absent n hnone, substitute_nil,
    substitute_intercalate hne hline, List.map_cons, ← h.structText_named]
  rfl

theorem nameOnly_structText (h : a.Tidy) :
    NameOnly (structText a.attributeLines a.header a.blocks) := by
  have hline := newline_not_mem_typeToken
  have hblocks : NameOnly (['\n'].intercalate a.blocks) :=
    nameOnly_intercalate (List.cons_ne_nil _ _) (List.forall_mem_singleton.2 hline)
      fun t ht => (h.blocks t ht).1
  rw [structText_eq]
  refine nameOnly_attributeLines h.attributeLines ?_
  rw [nameOnly_append_cons hline, nameOnly_append_cons hline]
  exact ⟨h.header, by decide, hblocks.append (by decide) h.endsLine_blocks⟩

theorem nameOnly_text (h : a.Tidy) {scope : Option Text} (hs : ∀ s ∈ scope, isDotted s = true) :
    NameOnly (a.text scope) := by
  have hline := newline_not_mem_typeToken
  obtain ⟨front, hfront, hbrace⟩ := SourceUnit.front_shape hs
  have hnone : ¬ typeToken <:+: front := fun hi => hbrace (hi.subset (by decide))
  have hclean : NameOnly front := by
    intro n _ hi
    rw [substitute_of_absent n hnone] at hi
    exact hbrace (hi.subset (by simp))
  rw [text, hfront, List.append_assoc, List.singleton_append, nameOnly_append_cons hline]
  refine ⟨hclean, nameOnly_intercalate (List.cons_ne_nil _ _) (List.forall_mem_singleton.2 hline) ?_⟩
  exact List.forall_mem_cons.2 ⟨h.nameOnly_structText, h.siblings⟩

end Tidy
end Assembly

/-! ### Drafts of parts -/

/-- A base cut at its slots. -/
structure Frame where
  /-- The header before the interface clause. -/
  front : Text
  /-- The members up to the line with the validation slot. -/
  opening : Text
  /-- What is left of the members after the slot and a blank. -/
  closing : Text

namespace Frame

def header (fr : Frame) : Text := fr.front ++ interfacesToken

/-- The members with a hook in their slot. -/
def body (fr : Frame) (hook : Text) : Text := fr.opening ++ '\n' :: (hook ++ ' ' :: fr.closing)

def members (fr : Frame) : Text := fr.body validateToken

structure Tidy (fr : Frame) : Prop where
  front : NameOnly fr.front
  opening : NameOnly fr.opening
  closing : NameOnly fr.closing ∧ EndsLine fr.closing

/-- The parts put together with the name left open. -/
def draft (fr : Frame) (base : Part) (parts : List Part) (kinds : List Implementation) :
    Assembly where
  parts := parts
  base := base
  headerText := fr.header
  bodyText := fr.members
  hooks := Part.sections (·.hook) parts
  header := fr.front ++ Interfaces.clause kinds
  body := fr.body (Part.sections (·.hook) parts).flatten
  members := Part.sections (·.members)
    (parts.filter Part.isImplementation ++ parts.filter Part.isConverter)
  attributeLines := Part.sections (·.attributeLine) parts.tail
  siblings := Part.sections (·.sibling) parts.tail

theorem substitute_header {fr : Frame} (h : fr.Tidy) (clause : Text) :
    substitute interfacesToken clause fr.header = fr.front ++ clause := by
  have hne : interfacesToken ≠ [] := by decide
  have hseam : ¬ Straddles interfacesToken fr.front interfacesToken :=
    not_straddles_of_drop (by decide)
  rw [header, substitute_append hne clause hseam, substitute_self hne,
    substitute_of_absent clause h.front.not_interfacesToken]

theorem substitute_members {fr : Frame} (h : fr.Tidy) (hook : Text) :
    substitute validateToken hook fr.members = fr.body hook := by
  have hne : validateToken ≠ [] := by decide
  have hrest : NameOnly (' ' :: fr.closing) :=
    (nameOnly_append_cons (a := []) (by decide)).2 ⟨nameOnly_nil, h.closing.1⟩
  rw [members, body, substitute_append_cons hne (by decide),
    substitute_of_absent hook h.opening.not_validateToken, substitute_token_append hne,
    substitute_of_absent hook hrest.not_validateToken, body]

/-- Hooks that bring the name along make the same body. -/
theorem substitute_body (fr : Frame) {hook n : Text} (h : NameOnly hook)
    (hn : isIdentifier n = true) :
    substitute typeToken n (fr.body (substitute typeToken n hook)) =
      substitute typeToken n (fr.body hook) := by
  have hne := isPlaceholder_typeToken.ne_nil
  have hline := newline_not_mem_typeToken
  have hcut : ∀ hook, substitute typeToken n (fr.body hook) = substitute typeToken n fr.opening ++
      '\n' :: (substitute typeToken n hook ++ ' ' :: substitute typeToken n fr.closing) := by
    intro hook
    rw [body, substitute_append_cons hne hline, substitute_append_cons hne (by decide)]
  rw [hcut, hcut, h.substitute_twice hn]

/-- The draft of a gathered selection with the name filled in is what the steps of composing
give. -/
theorem steps {fr : Frame} (hfr : fr.Tidy) {s : Spec} (hname : isIdentifier s.name = true)
    {sel : Selection} {c : Catalog} {base : Part} {parts : List Part}
    (hparts : Part.gather s.name c sel.keys = .ok parts)
    (hbase : Part.leadingBase s parts = .ok base)
    (hheader : base.fragment.header = some fr.header)
    (hmembers : base.fragment.members = some fr.members)
    (h : (fr.draft base parts sel.implementations).Tidy) :
    Assembly.Steps s sel c ((fr.draft base parts sel.implementations).named s.name) := by
  have hne := isPlaceholder_typeToken.ne_nil
  have hline := newline_not_mem_typeToken
  have renderAll_ok : ∀ {pick : Fragment → Option Text} {of : List Part},
      (∀ t ∈ Part.sections pick of, NameOnly t) → Part.renderAll s.name pick of =
        .ok ((Part.sections pick of).map (substitute typeToken s.name)) := by
    intro pick of ht
    refine Part.renderAll_eq_ok.2 ⟨rfl, List.forall_mem_map.2 fun t hm => ?_⟩
    exact (ht t hm).not_leftover hname
  refine ⟨hparts, hbase, ?_, ?_, ?_, ?_, ?_, ?_, ?_, ?_⟩
  · exact Part.slotted_eq_ok.2 ⟨hheader, (List.suffix_append _ _).isInfix⟩
  · refine Part.slotted_eq_ok.2 ⟨hmembers, ?_⟩
    exact List.infix_append_of_infix_right (List.infix_cons (List.prefix_append _ _).isInfix)
  · exact renderAll_ok fun t ht => (h.hooks t ht).1
  · change render s.name base.key (substitute interfacesToken _ fr.header) = _
    rw [substitute_header hfr]
    exact h.header.render hname base.key
  · -- the hooks are rendered before they enter the body, and again with it
    have hhooks : NameOnly (Part.sections (·.hook) parts).flatten := nameOnly_flatten h.hooks
    have hflat : substitute typeToken s.name (Part.sections (·.hook) parts).flatten =
        ((Part.sections (·.hook) parts).map (substitute typeToken s.name)).flatten :=
      substitute_flatten hne hline s.name fun t ht => (h.hooks t ht).2
    change render s.name base.key (substitute validateToken
      ((Part.sections (·.hook) parts).map (substitute typeToken s.name)).flatten fr.members) = _
    rw [← hflat, substitute_members hfr]
    exact render_eq_ok.2
      ⟨(substitute_body fr hhooks hname).symm, h.body.1.not_leftover hname⟩
  · exact renderAll_ok fun t ht => (h.members t ht).1
  · exact renderAll_ok h.attributeLines
  · exact renderAll_ok h.siblings

end Frame

/-! ### Tidy fragments -/

/-- The contracts in a header hold no braces but the name's. -/
theorem Interfaces.nameOnly_clause (kinds : List Implementation) : NameOnly (clause kinds) := by
  have hkind : ∀ k : Implementation, ∀ c ∈ k.contracts, NameOnly c.toList := by
    intro k
    cases k
    all_goals
      simp only [Implementation.contracts, List.forall_mem_cons]
      repeat rw [String.toList_ofList]
      decide
  have hlisted : ∀ t ∈ (contracts kinds).map String.toList, NameOnly t := by
    refine List.forall_mem_map.2 fun c hc => ?_
    obtain ⟨k, -, hk⟩ := List.mem_flatMap.1 (List.mem_eraseDups.1 hc)
    exact hkind k c hk
  unfold clause
  split
  · exact nameOnly_nil
  · have hcolon : " : ".toList = [] ++ [' ', ':', ' '] := String.toList_ofList
    have hcomma : ", ".toList = [',', ' '] := String.toList_ofList
    have hapart : ',' ∉ typeToken ∧ ':' ∉ typeToken ∧ ' ' ∉ typeToken := by decide
    have hjoined := nameOnly_intercalate (List.cons_ne_nil ',' [' ']) (by simp [hapart]) hlisted
    rw [hcolon, hcomma]
    exact nameOnly_nil.append_append (List.cons_ne_nil _ _) (by simp [hapart]) hjoined

/-- The sections hold no braces but the name's, and what stands in the struct is whole lines. -/
structure Fragment.Tidy (f : Fragment) : Prop where
  sections : ∀ t ∈ f.sections, NameOnly t
  members : ∀ t ∈ f.members, EndsLine t
  hook : ∀ t ∈ f.hook, EndsLine t

namespace Fragment.Tidy

variable {f : Fragment} {t : Text}

theorem nameOnly_attributeLine (h : f.Tidy) (ht : f.attributeLine = some t) : NameOnly t :=
  h.sections t (by simp [Fragment.sections, ht])

theorem nameOnly_sibling (h : f.Tidy) (ht : f.sibling = some t) : NameOnly t :=
  h.sections t (by simp [Fragment.sections, ht])

theorem of_members (h : f.Tidy) (ht : f.members = some t) : NameOnly t ∧ EndsLine t :=
  ⟨h.sections t (by simp [Fragment.sections, ht]), h.members t ht⟩

theorem of_hook (h : f.Tidy) (ht : f.hook = some t) : NameOnly t ∧ EndsLine t :=
  ⟨h.sections t (by simp [Fragment.sections, ht]), h.hook t ht⟩

end Fragment.Tidy

/-- A tidy frame and tidy fragments make a tidy draft. -/
theorem Frame.tidy_draft {fr : Frame} (hfr : fr.Tidy) {b : Backing} {f : Fragment}
    (hf : f.hook = none) {rest : List Part} (hrest : ∀ p ∈ rest, p.fragment.Tidy)
    (kinds : List Implementation) :
    (fr.draft ⟨.base b, f⟩ (⟨.base b, f⟩ :: rest) kinds).Tidy := by
  have hhooks : ∀ t ∈ Part.sections (·.hook) (⟨.base b, f⟩ :: rest), NameOnly t ∧ EndsLine t := by
    intro t ht
    obtain ⟨p, hp, he⟩ := Part.mem_sections.1 ht
    rcases List.mem_cons.1 hp with rfl | hp
    · rw [hf] at he
      cases he
    · exact (hrest p hp).of_hook he
  refine ⟨hhooks, ?_, ⟨?_, ?_⟩, ?_, ?_, ?_⟩
  · -- the clause is empty or opens with a blank
    change NameOnly (fr.front ++ Interfaces.clause kinds)
    have hclause := Interfaces.nameOnly_clause kinds
    revert hclause
    unfold Interfaces.clause
    split
    · intro _
      rw [List.append_nil]
      exact hfr.front
    · intro hclause
      exact (nameOnly_append_cons (by decide)).2
        ⟨hfr.front, ((nameOnly_append_cons (a := []) (by decide)).1 hclause).2⟩
  · refine (nameOnly_append_cons newline_not_mem_typeToken).2 ⟨hfr.opening, ?_⟩
    exact (nameOnly_append_cons (by decide)).2 ⟨nameOnly_flatten hhooks, hfr.closing.1⟩
  · exact EndsLine.append (EndsLine.cons (EndsLine.append (EndsLine.cons hfr.closing.2)))
  · intro t ht
    obtain ⟨p, hp, he⟩ := Part.mem_sections.1 ht
    have hmem : p ∈ rest := by
      simp only [List.mem_append, List.mem_filter, List.mem_cons] at hp
      rcases hp with ⟨rfl | hp, hk⟩ | ⟨rfl | hp, hk⟩
      · cases hk
      · exact hp
      · cases hk
      · exact hp
    exact (hrest p hmem).of_members he
  · intro t ht
    obtain ⟨p, hp, he⟩ := Part.mem_sections.1 ht
    exact (hrest p hp).nameOnly_attributeLine he
  · intro t ht
    obtain ⟨p, hp, he⟩ := Part.mem_sections.1 ht
    exact (hrest p hp).nameOnly_sibling he

end TypedId
