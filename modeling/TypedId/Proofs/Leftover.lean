import TypedId.Catalog.Edit
import TypedId.Proofs.Generation

/-!
# Placeholders left in a unit

Each section is scanned on its own, and all seams of a unit but one are line ends. The exception is
the brace that closes the struct: it follows the last member block directly and can complete a
placeholder there.
-/

namespace TypedId

open Placeholder

namespace Placeholder

/-- What ends a text after a line end ends its last line. -/
theorem openAtEnd_append_newline {a b : Text} : OpenAtEnd (a ++ '\n' :: b) ↔ OpenAtEnd b := by
  constructor
  · rintro ⟨name, hn, u, e⟩
    have hnl : '\n' ∉ ['\x7b', '\x7b'] ++ name ++ ['\x7d'] := by
      have h := IsPlaceholder.newline_not_mem ⟨name, hn, rfl⟩
      simpa using h
    rcases List.append_eq_append_iff.1 e with ⟨as, -, ht⟩ | ⟨bs, -, hb⟩
    · exact absurd (ht ▸ List.mem_append_right as List.mem_cons_self) hnl
    · cases bs with
      | nil => exact absurd (hb ▸ List.mem_cons_self) hnl
      | cons x bs => exact ⟨name, hn, bs, (List.cons.inj hb).2.symm⟩
  · rintro ⟨name, hn, h⟩
    exact ⟨name, hn, (h.trans (List.suffix_cons _ _)).trans (List.suffix_append _ _)⟩

theorem openAtEnd_lines {lines : List Text} :
    OpenAtEnd (['\n'].intercalate lines) ↔ OpenAtEnd (lines.getLastD []) := by
  induction lines with
  | nil => simp [List.intercalate_nil]
  | cons a lines ih =>
    cases lines with
    | nil => simp
    | cons b lines =>
      rw [List.intercalate_cons_cons, List.append_assoc, List.singleton_append,
        openAtEnd_append_newline, ih]
      simp

theorem leftover_attributeLines {lines : List Text} {rest : Text} :
    Leftover (lines.flatMap (· ++ ['\n']) ++ rest) ↔
      (∃ line ∈ lines, Leftover line) ∨ Leftover rest := by
  induction lines with
  | nil => simp
  | cons a lines ih =>
    rw [List.flatMap_cons, List.append_assoc, List.append_assoc, List.singleton_append,
      leftover_append_newline, ih]
    simp [or_assoc]

/-- A struct made of clean sections is clean but for its closing brace. -/
theorem leftover_structText {attributeLines blocks : List Text} {header : Text} :
    Leftover (structText attributeLines header blocks) ↔
      (∃ line ∈ attributeLines, Leftover line) ∨ Leftover header ∨
        (∃ block ∈ blocks, Leftover block) ∨ OpenAtEnd (blocks.getLastD []) := by
  have e : structText attributeLines header blocks =
      attributeLines.flatMap (· ++ ['\n']) ++ (header ++ '\n' :: (['\x7b'] ++ '\n' ::
        (['\n'].intercalate blocks ++ ['\x7d'] ++ '\n' :: []))) := by
    simp [structText]
  have hbrace : ¬ Leftover ['\x7b'] := not_leftover_of_absent (by decide)
  have hnil : ¬ Leftover [] := not_leftover_of_not_mem List.not_mem_nil
  rw [e, leftover_attributeLines, leftover_append_newline, leftover_append_newline,
    leftover_append_newline, leftover_append_brace, leftover_lines, openAtEnd_lines]
  simp [hbrace, hnil]

end Placeholder

namespace SourceUnit

/-- In a file a placeholder stands within one declaration. -/
theorem leftover_assemble {scope : Option Text} (h : ∀ s ∈ scope, Text.isDotted s = true)
    {declarations : List Declaration} :
    Leftover (assemble scope declarations) ↔ ∃ d ∈ declarations, Leftover d.text := by
  obtain ⟨front, hfront, hopen⟩ := front_shape h
  have hclean := not_leftover_of_not_mem hopen
  rw [assemble, hfront, List.append_assoc, List.singleton_append, leftover_append_newline,
    leftover_lines, or_iff_right hclean]
  simp

end SourceUnit

/-- Of a unit's declarations only the struct can hold a placeholder, where its closing brace
completes one. -/
theorem Assembly.Steps.leftover_declaration {s : Spec} {sel : Selection} {c : Catalog}
    {a : Assembly} (h : Assembly.Steps s sel c a) {e : Declaration}
    (he : e ∈ (a.unit s sel).declarations) :
    Leftover e.text ↔ e.role = .primary ∧ OpenAtEnd (a.blocks.getLastD []) := by
  have hlines := (Part.renderAll_eq_ok.1 h.attributeLines).2
  have hmembers := (Part.renderAll_eq_ok.1 h.members).2
  have hsiblings := (Part.renderAll_eq_ok.1 h.siblings).2
  have hheader := (render_eq_ok.1 h.header).2
  have hbody := (render_eq_ok.1 h.body).2
  rcases List.mem_cons.1 he with rfl | he
  · have hblocks : ¬ ∃ block ∈ a.blocks, Leftover block := by
      rintro ⟨block, hb, hl⟩
      rcases List.mem_cons.1 hb with rfl | hb
      · exact hbody hl
      · exact hmembers block hb hl
    have hattr : ¬ ∃ line ∈ a.attributeLines, Leftover line := by
      rintro ⟨line, hm, hl⟩
      exact hlines line hm hl
    simp [leftover_structText, hattr, hheader, hblocks]
  · obtain ⟨t, ht, rfl⟩ := List.mem_map.1 he
    refine iff_of_false (hsiblings t ht) ?_
    rintro ⟨hrole, -⟩
    cases hrole

namespace Request

/-- The last member block of the struct that a request gets ends in a placeholder but for its last
brace. -/
def EndsOpen (r : Request) (d : Defaults) (c : Catalog) : Prop :=
  ∃ sel a, (r.filled d).select c = .ok sel ∧ Assembly.Steps (r.filled d) sel c a ∧
    OpenAtEnd (a.blocks.getLastD [])

theorem endsOpen_iff {r : Request} {d : Defaults} {c : Catalog} {sel : Selection} {a : Assembly}
    (hsel : (r.filled d).select c = .ok sel) (ha : Assembly.Steps (r.filled d) sel c a) :
    r.EndsOpen d c ↔ OpenAtEnd (a.blocks.getLastD []) := by
  constructor
  · rintro ⟨sel', b, hsel', hb, hopen⟩
    obtain rfl : sel = sel' := Except.ok.inj (hsel.symm.trans hsel')
    rwa [ha.unique hb]
  · intro hopen
    exact ⟨sel, a, hsel, ha, hopen⟩

/-- A unit holds a placeholder exactly when its last member block ends open, and then it is the
struct that holds it. -/
theorem leftover_iff_endsOpen {r : Request} {d : Defaults} {c : Catalog} {u : SourceUnit}
    (h : r.generate d c = .ok u) :
    (Leftover u.source ↔ r.EndsOpen d c) ∧
      ∀ e ∈ u.declarations, Leftover e.text ↔ e.role = .primary ∧ r.EndsOpen d c := by
  have hsource := source_of_generate h
  obtain ⟨sel, a, hr, hsel, ha, rfl⟩ := generate_eq_ok.1 h
  have hdecl : ∀ e ∈ (a.unit (r.filled d) sel).declarations,
      Leftover e.text ↔ e.role = .primary ∧ r.EndsOpen d c := by
    intro e he
    rw [ha.leftover_declaration he, endsOpen_iff hsel ha]
  refine ⟨?_, hdecl⟩
  rw [hsource, SourceUnit.leftover_assemble hr.scope]
  constructor
  · rintro ⟨e, he, hl⟩
    exact ((hdecl e he).1 hl).2
  · intro hopen
    exact ⟨_, List.mem_cons_self, (hdecl _ List.mem_cons_self).2 ⟨rfl, hopen⟩⟩

/-! ### A unit with a placeholder -/

/-- The base members of this catalog end in a placeholder that lacks a brace. -/
def openCatalog : Catalog := Catalog.build [.put (.base .int)
  { header := "struct \x7b\x7bTYPE\x7d\x7d\x7b\x7bINTERFACES\x7d\x7d".toList
    members := "\x7b\x7bVALIDATE\x7d\x7d\x7b\x7bLEFT\x7d".toList }]

def openRequest : Request where
  name := "A".toList
  backing := .explicit .int
  converters := .explicit ∅
  implementations := .explicit ∅

def openUnit : SourceUnit where
  hintName := "A.g.cs".toList
  typeName := "A".toList
  declarations := [⟨.primary, "A".toList, "struct A\n\x7b\n\x7b\x7bLEFT\x7d\x7d\n".toList⟩]
  diagnostics := []
  source := "// <auto-generated/>\n#nullable enable\n\n".toList ++
    "struct A\n\x7b\n\x7b\x7bLEFT\x7d\x7d\n".toList

theorem generate_openRequest : openRequest.generate .builtIn openCatalog = .ok openUnit := by
  decide +kernel

/-- Scanning each section does not keep placeholders out of a unit. -/
theorem exists_leftover : ¬ ∀ (r : Request) (d : Defaults) (c : Catalog) (u : SourceUnit),
    r.generate d c = .ok u →
      ¬ Leftover u.source ∧ ∀ e ∈ u.declarations, ¬ Leftover e.text := by
  intro h
  exact (h openRequest .builtIn openCatalog openUnit generate_openRequest).1 (by decide +kernel)

theorem endsOpen_openRequest : openRequest.generate .builtIn openCatalog = .ok openUnit ∧
    openRequest.EndsOpen .builtIn openCatalog := by
  refine ⟨generate_openRequest, ?_⟩
  exact (leftover_iff_endsOpen generate_openRequest).1.1 (by decide +kernel)

end Request
end TypedId
