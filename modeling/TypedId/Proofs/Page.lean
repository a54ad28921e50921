import TypedId.Proofs.Brackets
import TypedId.Proofs.Contracts
import TypedId.Proofs.Draft

/-!
# Pages

A page is a generated file by its lines. Where its lines cannot be mistaken for one another, the
outline of its source is what the page was made of.
-/

namespace TypedId

open Text

namespace Outline

/-- A class beside the struct. -/
structure Adapter where
  name : Text
  /-- What follows the name on its line. -/
  heir : Text
  below : List Text

namespace Adapter

def opening : Text := "class ".toList

def head (a : Adapter) : Text := opening ++ (a.name ++ ' ' :: a.heir)

def lines (a : Adapter) : List Text := a.head :: a.below

end Adapter

/-- A generated file. -/
structure Page where
  front : List Text
  attributes : List Text
  header : Text
  /-- The groups of lines inside the struct. -/
  blocks : List (List Text)
  adapters : List Adapter

namespace Page

/-- The lines before the struct header. -/
def above (p : Page) : List Text := p.front ++ p.attributes

/-- The lines inside the struct. -/
def inner (p : Page) : List Text := [[]].intercalate p.blocks

/-- The lines after the brace that closes the struct. -/
def tail (p : Page) : List Text := p.adapters.flatMap fun a => [] :: a.lines

def lines (p : Page) : List Text :=
  p.above ++ p.header :: ['\x7b'] :: (p.inner ++ ['\x7d'] :: p.tail)

def source (p : Page) : Text := ofLines p.lines

def body (p : Page) : Text := '\n' :: ofLines p.inner

/-- The source as it is composed: the struct, and the classes after empty lines. -/
theorem source_eq_intercalate (p : Page) : p.source = ofLines p.front ++ ['\n'].intercalate
    (structText p.attributes p.header (p.blocks.map ofLines) ::
      p.adapters.map fun a => ofLines a.lines) := by
  have htail : ofLines p.tail = (p.adapters.map fun a => ofLines a.lines).flatMap ('\n' :: ·) := by
    rw [tail, ofLines, List.flatMap_assoc, List.flatMap_map]
    rfl
  rw [Text.intercalate_cons_flatMap, ← htail, Assembly.structText_eq, intercalate_map_ofLines,
    source, lines, above, inner, ← ofLines, ofLines_append, ofLines_append, ofLines_cons,
    ofLines_cons, ofLines_append, ofLines_cons]
  simp

/-- The assembly has what stands on the page. -/
structure Shows (p : Page) (a : Assembly) : Prop where
  attributeLines : a.attributeLines = p.attributes
  header : a.header = p.header
  blocks : a.blocks = p.blocks.map ofLines
  siblings : a.siblings = p.adapters.map fun x => ofLines x.lines

theorem Shows.text_eq {p : Page} {a : Assembly} (h : p.Shows a) {scope : Option Text}
    (hfront : ofLines p.front = SourceUnit.preamble ++ SourceUnit.scopeLine scope) :
    a.text scope = p.source := by
  rw [source_eq_intercalate, Assembly.text, h.attributeLines, h.header, h.blocks, h.siblings,
    hfront]

theorem Shows.structText_eq {p : Page} {a : Assembly} (h : p.Shows a) :
    structText a.attributeLines a.header a.blocks =
      ofLines p.attributes ++ p.header ++ "\n\x7b".toList ++ p.body ++ "\x7d\n".toList := by
  have hopen : "\n\x7b".toList = ['\n', '\x7b'] := by decide
  have hclose : "\x7d\n".toList = ['\x7d', '\n'] := by decide
  rw [Assembly.structText_eq, h.attributeLines, h.header, h.blocks, intercalate_map_ofLines,
    ← ofLines, body, inner, hopen, hclose]
  simp

/-- No line of the page looks like one of another sort. -/
structure Legible (p : Page) : Prop where
  line : ∀ s ∈ p.lines, IsLine s
  front : ∀ s ∈ p.front, ¬ headerOpening <:+: s ∧ s.head? ≠ some 'c'
  gap : p.front.getLast? = some []
  attributes : ∀ s ∈ p.attributes, ¬ headerOpening <:+: s ∧ s.head? = some '['
  header : headerOpening <+: p.header
  openHeader : '\x7b' ∉ p.header
  trimmed : Trimmed p.header
  blocks : ∀ g ∈ p.blocks, BraceBalanced g.flatten ∧ ∀ s ∈ g, s.head? ≠ some 'c'
  adapters : ∀ a ∈ p.adapters, (a.name ≠ [] ∧ a.name.any isBlank = false) ∧
    ∀ s ∈ a.below, s.head? ≠ some 'c'

end Page

theorem headerOpening_eq : headerOpening = 'r' :: "eadonly partial struct ".toList := by decide

theorem newline_not_mem_headerOpening : '\n' ∉ headerOpening := by decide

theorem not_straddles_ofLines {token : Text} (h : '\n' ∉ token) (lines : List Text) (b : Text) :
    ¬ Straddles token (ofLines lines) b := by
  rcases List.eq_nil_or_concat lines with rfl | ⟨init, last, rfl⟩
  · rintro ⟨l, r, hl, -, -, hs, -⟩
    exact hl (List.suffix_nil.1 hs)
  · rw [List.concat_eq_append, ofLines_append, ofLines_singleton, ← List.append_assoc]
    exact not_straddles_concat h _ b

/-- The line of a header is found behind lines that are none, with what ends it cut off. -/
theorem structHeader?_of_line {front : List Text} {header after : Text}
    (hfront : ∀ l ∈ front, '\n' ∉ l ∧ ¬ headerOpening <+: trim l) (hafter : AtLineEnd after)
    (hline : '\n' ∉ header) (htrim : Trimmed header) (hopening : headerOpening <+: header) :
    structHeader? (ofLines front ++ (header ++ after)) = some header := by
  have hne : header ≠ [] := by
    intro hnil
    rw [hnil] at hopening
    exact headerOpening_ne_nil (List.prefix_nil.1 hopening)
  obtain ⟨first, rest, hlines, hfirst⟩ := hafter.exists_lines hline hne
  rw [structHeader?, lines_ofLines_append (fun l hl => (hfront l hl).1), hlines,
    List.find?_eq_some_iff_append]
  refine ⟨List.isPrefixOf_iff_prefix.2 hopening, (front.map dropReturn).map trim, rest.map trim,
    ?_, ?_⟩
  · rw [List.map_append, List.map_cons, hfirst, htrim.trim_eq]
  · intro s hs
    rw [List.map_map] at hs
    obtain ⟨l, hl, hsl⟩ := List.mem_map.1 hs
    rw [Bool.not_eq_true', Bool.eq_false_iff, ne_eq, List.isPrefixOf_iff_prefix, ← hsl,
      Function.comp_apply, trim_dropReturn]
    exact (hfront l hl).2

namespace Page.Legible

variable {p : Page}

theorem lines_source (h : p.Legible) : Text.lines p.source = p.lines := lines_ofLines h.line

/-- Nothing before the header has the words that it opens with. -/
theorem above (h : p.Legible) {s : Text} (hs : s ∈ p.above) : ¬ headerOpening <:+: s := by
  rcases List.mem_append.1 hs with hs | hs
  · exact (h.front s hs).1
  · exact (h.attributes s hs).1

theorem isLine_inner (h : p.Legible) {s : Text} (hs : s ∈ p.inner) : IsLine s := by
  refine h.line s (List.mem_append_right _ (List.mem_cons_of_mem _ (List.mem_cons_of_mem _ ?_)))
  exact List.mem_append_left _ hs

/-! ### The header -/

theorem head?_header (h : p.Legible) : p.header.head? = some 'r' := by
  obtain ⟨rest, hrest⟩ := h.header
  rw [← hrest, headerOpening_eq, List.cons_append, List.head?_cons]

theorem structHeader?_source (h : p.Legible) : structHeader? p.source = some p.header := by
  have hmem : ∀ l ∈ p.above, l ∈ p.lines := fun l hl => List.mem_append_left _ hl
  have hheader : p.header ∈ p.lines := List.mem_append_right _ List.mem_cons_self
  have hsource : p.source = ofLines p.above ++ (p.header ++
      '\n' :: ofLines (['\x7b'] :: (p.inner ++ ['\x7d'] :: p.tail))) := by
    rw [source, Page.lines, ofLines_append, ofLines_cons]
  rw [hsource]
  refine structHeader?_of_line (fun l hl => ⟨h.line l (hmem l hl) '\n' (by simp), fun hp => ?_⟩)
    (Or.inr (Or.inl ⟨_, rfl⟩)) (h.line _ hheader '\n' (by simp)) h.trimmed h.header
  exact h.above hl (hp.isInfix.trans (isInfix_trim l))

/-! ### The body -/

/-- The source, cut where the body of the struct is looked for. -/
theorem source_eq {rest : Text} (hrest : headerOpening ++ rest = p.header) : p.source =
    ofLines p.above ++ (headerOpening ++ (rest ++ '\n' :: '\x7b' ::
      (p.body ++ '\x7d' :: '\n' :: ofLines p.tail))) := by
  rw [source, Page.lines, ofLines_append, ofLines_cons, ofLines_cons, ofLines_append, ofLines_cons,
    ← hrest, body]
  simp

theorem splitFirst?_above (h : p.Legible) (b : Text) :
    splitFirst? headerOpening (ofLines p.above ++ (headerOpening ++ b)) =
      some (ofLines p.above, b) := by
  have habsent : ¬ headerOpening <:+: ofLines p.above := by
    rw [ofLines_eq_intercalate, infix_intercalate_iff (List.cons_ne_nil '\n' [])
      (List.forall_mem_singleton.2 newline_not_mem_headerOpening) (by decide)]
    rintro ⟨s, hs, hi⟩
    rcases List.mem_append.1 hs with hs | hs
    · exact h.above hs hi
    · rw [List.mem_singleton.1 hs] at hi
      exact absurd (List.infix_nil.1 hi) (by decide)
  exact splitFirst?_append headerOpening_ne_nil habsent
    (not_straddles_ofLines newline_not_mem_headerOpening p.above _)

theorem braceBalanced_body (h : p.Legible) : BraceBalanced p.body := by
  have hinner : BraceBalanced (ofLines p.inner) := by
    rw [inner, ← intercalate_map_ofLines]
    refine BraceBalanced.intercalate (by decide) (List.forall_mem_map.2 fun g hg => ?_)
    exact braceBalanced_ofLines_iff.2 (h.blocks g hg).1
  exact (by decide : BraceBalanced ['\n']).append hinner

/-- The brace on the line after the header is the first, since the header has none. -/
theorem encloses_body (h : p.Legible) : Encloses p.source p.body := by
  obtain ⟨rest, hrest⟩ := h.header
  have hgap : '\x7b' ∉ rest ++ ['\n'] := by
    simp only [List.mem_append, not_or]
    exact ⟨fun hmem => h.openHeader (hrest ▸ List.mem_append_right _ hmem), by decide⟩
  refine ⟨'\n' :: ofLines p.tail, ?_, nested_braces_iff.2 h.braceBalanced_body⟩
  rw [source_eq hrest, opened_iff]
  exact ⟨_, _, h.splitFirst?_above _, dropWhile_ne_eq_cons_iff.2 ⟨_, hgap, List.append_cons ..⟩⟩

theorem structBody?_source (h : p.Legible) : structBody? p.source = some p.body :=
  structBody?_eq_some_iff.2 h.encloses_body

/-! ### The attribute lines -/

theorem structAttributes_source (h : p.Legible) : structAttributes p.source = p.attributes := by
  have habove : p.lines.takeWhile (!headerOpening.isPrefixOf ·) = p.above := by
    rw [Page.lines, List.takeWhile_append_of_pos, List.takeWhile_cons_of_neg, List.append_nil]
    · rw [Bool.not_eq_true', Bool.not_eq_false, List.isPrefixOf_iff_prefix]
      exact h.header
    · intro s hs
      rw [Bool.not_eq_true', Bool.eq_false_iff, ne_eq, List.isPrefixOf_iff_prefix]
      exact fun hp => h.above hs hp.isInfix
  have hlength : ¬ p.above.length = p.lines.length := by
    rw [Page.lines, List.length_append, List.length_cons]
    omega
  obtain ⟨front, hfront⟩ := List.getLast?_eq_some_iff.1 h.gap
  -- going up from the header, the attribute lines end at the empty line of the front
  have hkept : (p.above.reverse.takeWhile fun s => s.head? = some '[') = p.attributes.reverse := by
    rw [Page.above, hfront, List.append_assoc, List.reverse_append, List.reverse_append,
      List.append_assoc, List.takeWhile_append_of_pos]
    · rw [List.reverse_singleton, List.singleton_append, List.takeWhile_cons_of_neg (by simp),
        List.append_nil]
    · intro s hs
      rw [decide_eq_true_iff]
      exact (h.attributes s (List.mem_reverse.1 hs)).2
  rw [structAttributes, h.lines_source, habove, if_neg hlength, hkept, List.reverse_reverse]

/-! ### The classes -/

/-- The name of the class that a line opens. -/
def className? (line : Text) : Option Text :=
  (Adapter.opening.isPrefixOf? line).bind fun rest => (words rest).head?

theorem className?_of_head? {s : Text} (h : s.head? ≠ some 'c') : className? s = none := by
  have hp : Adapter.opening.isPrefixOf? s = none := by
    rw [Option.eq_none_iff_forall_ne_some]
    intro rest hrest
    rw [List.isPrefixOf?_eq_some_iff_append_eq] at hrest
    rw [← hrest] at h
    exact h rfl
  rw [className?, hp, Option.bind_none]

theorem className?_head {a : Adapter} (hne : a.name ≠ [])
    (hname : a.name.any isBlank = false) : className? a.head = some a.name := by
  have hp : Adapter.opening.isPrefixOf? a.head = some (a.name ++ ' ' :: a.heir) :=
    List.isPrefixOf?_eq_some_iff_append_eq.2 rfl
  rw [className?, hp, Option.bind_some, words_append_cons hne hname (by decide), List.head?_cons]

theorem filterMap_className?_of_head? {lines : List Text} (h : ∀ s ∈ lines, s.head? ≠ some 'c') :
    lines.filterMap className? = [] :=
  List.filterMap_eq_nil_iff.2 fun s hs => className?_of_head? (h s hs)

theorem filterMap_className?_tail {adapters : List Adapter}
    (h : ∀ a ∈ adapters, (a.name ≠ [] ∧ a.name.any isBlank = false) ∧
      ∀ s ∈ a.below, s.head? ≠ some 'c') :
    (adapters.flatMap fun a => [] :: a.lines).filterMap className? = adapters.map (·.name) := by
  induction adapters with
  | nil => rfl
  | cons a adapters ih =>
    obtain ⟨⟨hname, hbelow⟩, hrest⟩ := List.forall_mem_cons.1 h
    rw [List.flatMap_cons, List.filterMap_append, ih hrest, Adapter.lines,
      List.filterMap_cons_none (className?_of_head? (by simp)),
      List.filterMap_cons_some (className?_head hname.1 hname.2),
      filterMap_className?_of_head? hbelow]
    rfl

theorem topLevelClasses_source (h : p.Legible) :
    topLevelClasses p.source = p.adapters.map (·.name) := by
  have habove : ∀ s ∈ p.above, s.head? ≠ some 'c' := by
    intro s hs
    rcases List.mem_append.1 hs with hs | hs
    · exact (h.front s hs).2
    · rw [(h.attributes s hs).2]
      decide
  have hheader : p.header.head? ≠ some 'c' := by
    rw [h.head?_header]
    decide
  have hinner : ∀ s ∈ p.inner, s.head? ≠ some 'c' := by
    intro s hs
    rcases mem_intercalate hs with hs | ⟨g, hg, hs⟩
    · rw [List.mem_singleton.1 hs]
      decide
    · exact (h.blocks g hg).2 s hs
  -- only the lines after the struct are left to open a class
  have hclasses : topLevelClasses p.source = p.lines.filterMap className? := by
    rw [topLevelClasses, h.lines_source]
    rfl
  rw [hclasses, Page.lines, List.filterMap_append, filterMap_className?_of_head? habove,
    List.filterMap_cons_none (className?_of_head? hheader),
    List.filterMap_cons_none (className?_of_head? (by decide)), List.filterMap_append,
    filterMap_className?_of_head? hinner,
    List.filterMap_cons_none (className?_of_head? (by decide))]
  exact filterMap_className?_tail h.adapters

end Page.Legible

/-! ### The contracts -/

theorem interfaces_eq {source name : Text} {list : List Text}
    (h : structHeader? source = some (headerOpening ++ name ++ Interfaces.heading list))
    (hname : isIdentifier name = true) (hlist : ∀ e ∈ list, isEntry 0 e = true ∧ Trimmed e) :
    interfaces source = list := by
  have hcolon : ':' ∉ headerOpening ++ name := by
    rw [List.mem_append, not_or]
    exact ⟨by decide, not_mem_of_isIdentifier hname (by decide)⟩
  have habsent : ¬ " : ".toList <:+: headerOpening ++ name := fun hi =>
    hcolon (hi.subset (by decide))
  -- the name ends in a character that the needle lacks
  have hseam : ∀ b, ¬ Straddles " : ".toList (headerOpening ++ name) b := by
    obtain ⟨init, c, hc⟩ := (List.eq_nil_or_concat name).resolve_left (ne_nil_of_isIdentifier hname)
    rw [List.concat_eq_append] at hc
    intro b
    rw [hc, ← List.append_assoc]
    refine not_straddles_concat (fun hmem => ?_) _ b
    exact avoids_of_isIdentifier hname (by decide) c hmem (by simp [hc])
  cases list with
  | nil =>
    rw [Interfaces.heading, List.append_nil] at h
    rw [interfaces, h, Option.bind_some, splitFirst?_of_absent habsent]
  | cons e list =>
    have hheading : Interfaces.heading (e :: list) =
        " : ".toList ++ ", ".toList.intercalate (e :: list) := rfl
    rw [interfaces, h, Option.bind_some, hheading,
      splitFirst?_append (by decide) habsent (hseam _)]
    exact map_trim_entries (List.cons_ne_nil e list) hlist

end Outline
end TypedId
