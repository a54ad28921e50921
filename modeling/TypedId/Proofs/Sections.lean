import TypedId.Proofs.Spelling
import TypedId.Proofs.Page

/-!
# Sections of the built-in fragments

The sections of the built-in fragments as lists of lines. All of them are neat; what stands in the
struct is moved to the right, and what stands beside it is one class, named after the type.
-/

namespace TypedId.Builtin

open Placeholder Text Outline

/-! ### The lines of every section -/

/-- What an implementation adds to the struct; validation has only its hook. -/
def memberLines (b : Backing) : Implementation → Lines
  | .equatable => indent (equatable b.storage)
  | .comparable => indent (comparable b.storage)
  | .parsable => indent (parsable b.storage)
  | .formattable => indent formattable
  | .comparisonOperators => indent comparisonOperators
  | .validation => []

def hookLines (b : Backing) : Lines :=
  indent (indent (if b.isNumeric then notNegative else notNull))

/-- The class of a converter; that of Entity Framework is inside the struct. -/
def adapterLines (b : Backing) : Converter → Lines
  | .newtonsoftJson => newtonsoft b.storage
  | .systemTextJson => systemText b
  | .typeConverter => componentModel b.storage
  | .efCoreValueConverter => []
  | .dapperTypeHandler => dapper b.storage

/-- What follows the name of a converter's class. -/
def heir : Converter → String
  | .newtonsoftJson => ": Newtonsoft.Json.JsonConverter"
  | .systemTextJson => ": System.Text.Json.Serialization.JsonConverter<§>"
  | .typeConverter => ": System.ComponentModel.TypeConverter"
  | .efCoreValueConverter => ""
  | .dapperTypeHandler => ": Dapper.SqlMapper.TypeHandler<§>"

theorem converter_members (b : Backing) (k : Converter) : (converter b k).members =
    if k = .efCoreValueConverter then some (written b (indent entityFramework)) else none := by
  cases k <;> rfl

theorem converter_hook (b : Backing) (k : Converter) : (converter b k).hook = none := by
  cases k <;> rfl

theorem converter_sibling (b : Backing) (k : Converter) : (converter b k).sibling =
    if k = .efCoreValueConverter then none else some (written b (adapterLines b k)) := by
  cases k <;> rfl

theorem implementation_sections {b : Backing} {k : Implementation} {f : Fragment}
    (h : implementation b k = some f) :
    f = if k = .validation then { hook := written b (hookLines b) }
      else { members := written b (memberLines b k) } := by
  cases k with
  | equatable =>
    cases h
    rfl
  | comparable =>
    rw [implementation] at h
    split at h
    · cases h
    · cases h
      rfl
  | parsable =>
    cases h
    rfl
  | formattable =>
    rw [implementation] at h
    split at h
    · cases h
      rfl
    · cases h
  | comparisonOperators =>
    rw [implementation] at h
    split at h
    · cases h
      rfl
    · cases h
  | validation =>
    rw [implementation] at h
    split at h
    · next hnumeric =>
      cases h
      rw [if_pos rfl, hookLines, if_pos hnumeric]
    · next hnumeric =>
      split at h
      · cases h
        rw [if_pos rfl, hookLines, if_neg hnumeric]
      · cases h

/-! ### They are neat -/

theorem Neat.append {lines lines' : Lines} (h : Neat lines) (h' : Neat lines') :
    Neat (lines ++ lines') := by
  refine ⟨List.forall_mem_append.2 ⟨h.1, h'.1⟩, ?_⟩
  rw [List.flatten_append]
  exact h.2.append h'.2

theorem depthAfter_indent (depth : Nat) (lines : Lines) :
    depthAfter depth (indent lines).flatten = depthAfter depth lines.flatten := by
  induction lines generalizing depth with
  | nil => rfl
  | cons s lines ih =>
    have hline : ∀ depth, depthAfter depth (if s.isEmpty then [] else [' ', ' ', ' ', ' '] ++ s) =
        depthAfter depth s := by
      intro depth
      cases s with
      | nil => rfl
      | cons c s => exact depthAfter_append_of_avoids (by decide) depth (c :: s)
    rw [indent, List.map_cons, List.flatten_cons, List.flatten_cons, depthAfter_append,
      depthAfter_append, hline]
    exact congrArg _ (funext ih)

theorem neat_indent {lines : Lines} (h : Neat lines) : Neat (indent lines) := by
  refine ⟨fun s hs => ?_, ?_⟩
  · obtain ⟨t, ht, rfl⟩ := List.mem_map.1 hs
    have hline := h.1 t ht
    split
    · exact fun _ _ => List.not_mem_nil
    · exact Avoids.append (by decide) hline
  · rw [BraceBalanced, depthAfter_indent]
    exact h.2

/-- Neat lines between a line that opens a brace and one that closes it. -/
theorem neat_braces {opening closing : Text} (hopen : IsLine opening)
    (hin : depthAfter 0 opening = some 1) (hclose : IsLine closing)
    (hout : depthAfter 1 closing = some 0) {lines : Lines} (h : Neat lines) :
    Neat (opening :: (lines ++ [closing])) := by
  constructor
  · rw [List.forall_mem_cons, List.forall_mem_append, List.forall_mem_singleton]
    exact ⟨hopen, h.1, hclose⟩
  · rw [BraceBalanced, List.flatten_cons, List.flatten_append, List.flatten_singleton,
      depthAfter_append, hin, Option.bind_some, depthAfter_append, h.2.depthAfter_eq 1]
    exact hout

theorem neat_implementations (s : Storage) :
    Neat (equatable s) ∧ Neat (comparable s) ∧ Neat (parsable s) ∧ Neat formattable ∧
      Neat comparisonOperators ∧ Neat notNegative ∧ Neat notNull := by
  cases s
  all_goals
    simp only [equatable, equalsMember, hashMember, comparable, parsable, providerParse,
      providerTryParse, providerTryParseBody, formattable, comparisonOperators, notNegative,
      notNull]
    repeat rw [String.toList_ofList]
    decide

set_option maxRecDepth 1024 in
theorem neat_converters (s : Storage) :
    Neat (newtonsoft s) ∧ Neat (componentModel s) ∧ Neat entityFramework ∧ Neat (dapper s) := by
  cases s
  all_goals
    simp only [newtonsoft, newtonsoftRead, componentModel, canConvertFrom, convertFromArms,
      canConvertTo, convertToCases, entityFramework, dapper, dapperSet, dapperArms]
    repeat rw [String.toList_ofList]
    decide

theorem neat_systemText (b : Backing) : Neat (systemText b) := by
  cases b
  all_goals
    simp only [systemText, nullHandling, jsonRead, jsonWrite, Backing.storage]
    repeat rw [String.toList_ofList]
    decide

theorem neat_baseGroups (b : Backing) : Neat (paragraphs (baseGroups b)) := by
  cases b
  all_goals
    simp only [baseGroups, constructors, assignment, freshMember, emptyMember, presenceMember,
      display, revealMember, parseMember, tryParseBody, parseCondition, Backing.storage,
      Backing.isGuid]
    repeat rw [String.toList_ofList]
    decide

/-! ### Lines inside the struct -/

/-- Lines that can stand in the struct: neat ones, none of which starts at the margin. -/
structure Fit (lines : Lines) : Prop where
  sober : lines.all isSober = true
  neat : Neat lines
  inset : ∀ s ∈ lines, Inset s

theorem inset_indent (lines : Lines) : ∀ s ∈ indent lines, Inset s := by
  intro s hs
  obtain ⟨t, -, rfl⟩ := List.mem_map.1 hs
  cases t with
  | nil => trivial
  | cons c t => exact List.mem_cons_self

theorem fit_indent {lines : Lines} (hs : lines.all isSober = true) (hn : Neat lines) :
    Fit (indent lines) where
  sober := by rwa [all_isSober_indent]
  neat := neat_indent hn
  inset := inset_indent lines

theorem fit_nil : Fit [] := ⟨rfl, by decide, List.forall_mem_nil _⟩

theorem Fit.append {a c : Lines} (ha : Fit a) (hc : Fit c) : Fit (a ++ c) where
  sober := by rw [List.all_append, ha.sober, hc.sober, Bool.and_self]
  neat := ha.neat.append hc.neat
  inset := List.forall_mem_append.2 ⟨ha.inset, hc.inset⟩

theorem fit_memberLines (b : Backing) (k : Implementation) : Fit (memberLines b k) := by
  obtain ⟨hequatable, hcomparable, hparsable, hformattable, hoperators, -, -⟩ :=
    all_isSober_implementations b.storage
  obtain ⟨nequatable, ncomparable, nparsable, nformattable, noperators, -, -⟩ :=
    neat_implementations b.storage
  cases k with
  | equatable => exact fit_indent hequatable nequatable
  | comparable => exact fit_indent hcomparable ncomparable
  | parsable => exact fit_indent hparsable nparsable
  | formattable => exact fit_indent hformattable nformattable
  | comparisonOperators => exact fit_indent hoperators noperators
  | validation => exact fit_nil

theorem fit_hookLines (b : Backing) : Fit (hookLines b) := by
  obtain ⟨-, -, -, -, -, hnegative, hnull⟩ := all_isSober_implementations b.storage
  obtain ⟨-, -, -, -, -, nnegative, nnull⟩ := neat_implementations b.storage
  refine fit_indent ?_ (neat_indent ?_)
  · rw [all_isSober_indent]
    split
    · exact hnegative
    · exact hnull
  · split
    · exact nnegative
    · exact nnull

theorem fit_entityFramework : Fit (indent entityFramework) :=
  fit_indent (all_isSober_converters .value).2.2.1 (neat_converters .value).2.2.1

/-! ### The body of the base -/

/-- The lines of a base with a hook in its slot. -/
def bodyLines (b : Backing) (hook : Lines) : Lines :=
  leadLines b ++ "    \x7b".toList :: (hook ++ ["    \x7d".toList])

theorem written_append (b : Backing) (l l' : Lines) :
    written b (l ++ l') = written b l ++ written b l' := List.flatMap_append

theorem written_cons (b : Backing) (s : Text) (l : Lines) :
    written b (s :: l) = line b s ++ '\n' :: written b l := by
  simp [written]

theorem frame_body (b : Backing) (hook : Lines) :
    (frame b).body (written b hook) = written b (bodyLines b hook) := by
  have hopen : line b "    \x7b".toList = "    \x7b".toList := line_eq_self b (by decide)
  have hclose : written b ["    \x7d".toList] = ' ' :: (frame b).closing := by
    rw [written_cons, line_eq_self b (by decide)]
    rfl
  have hopening : (frame b).opening = written b (leadLines b) ++ "    \x7b".toList := rfl
  rw [Frame.body, bodyLines, written_append, written_cons, written_append, hopen, hclose, hopening]
  simp

theorem fit_leadLines (b : Backing) : Fit (leadLines b) := by
  refine (fit_indent (all_isSober_baseGroups b) (neat_baseGroups b)).append ?_
  rw [String.toList_ofList]
  exact ⟨by decide, by decide, by decide⟩

theorem fit_bodyLines (b : Backing) {hook : Lines} (h : Fit hook) : Fit (bodyLines b hook) where
  sober := by
    have hopen : isSober "    \x7b".toList = true := by decide
    have hclose : isSober "    \x7d".toList = true := by decide
    rw [bodyLines, List.all_append, List.all_cons, List.all_append, (fit_leadLines b).sober,
      h.sober, hopen, List.all_cons, hclose]
    rfl
  neat := (fit_leadLines b).neat.append
    (neat_braces (by decide) (by decide) (by decide) (by decide) h.neat)
  inset := by
    have hopen : Inset "    \x7b".toList := by decide
    have hclose : Inset "    \x7d".toList := by decide
    rw [bodyLines, List.forall_mem_append, List.forall_mem_cons, List.forall_mem_append,
      List.forall_mem_singleton]
    exact ⟨(fit_leadLines b).inset, hopen, h.inset, hclose⟩

/-! ### The classes beside the struct -/

/-- A converter's class opens with the type's name and the converter's suffix. -/
theorem adapterLines_eq (b : Backing) {k : Converter} (hk : k ≠ .efCoreValueConverter) :
    ∃ body, adapterLines b k =
      block (Adapter.opening ++ ('§' :: k.classSuffix.toList ++ ' ' :: (heir k).toList)) body := by
  have hopening : Adapter.opening = "class ".toList := rfl
  rw [hopening]
  cases k
  case efCoreValueConverter => exact absurd rfl hk
  all_goals
    simp only [adapterLines, newtonsoft, systemText, componentModel, dapper, Converter.classSuffix,
      heir]
    repeat rw [String.toList_ofList]
    exact ⟨_, rfl⟩

theorem all_isSober_adapterLines (b : Backing) (k : Converter) :
    (adapterLines b k).all isSober = true := by
  obtain ⟨hnewtonsoft, hmodel, -, hdapper⟩ := all_isSober_converters b.storage
  cases k with
  | newtonsoftJson => exact hnewtonsoft
  | systemTextJson => exact all_isSober_systemText b
  | typeConverter => exact hmodel
  | efCoreValueConverter => rfl
  | dapperTypeHandler => exact hdapper

theorem neat_adapterLines (b : Backing) (k : Converter) : Neat (adapterLines b k) := by
  obtain ⟨hnewtonsoft, hmodel, -, hdapper⟩ := neat_converters b.storage
  cases k with
  | newtonsoftJson => exact hnewtonsoft
  | systemTextJson => exact neat_systemText b
  | typeConverter => exact hmodel
  | efCoreValueConverter => exact fit_nil.neat
  | dapperTypeHandler => exact hdapper

/-- A converter's class under a type's name. -/
def adapter (b : Backing) (n : Text) (k : Converter) : Adapter where
  name := n ++ k.classSuffix.toList
  heir := spell b n (heir k).toList
  below := (adapterLines b k).tail.map (spell b n)

theorem lines_adapter (b : Backing) (n : Text) {k : Converter} (hk : k ≠ .efCoreValueConverter) :
    (adapter b n k).lines = (adapterLines b k).map (spell b n) := by
  have hopening : spell b n Adapter.opening = Adapter.opening := spell_eq_self b n (by decide)
  have hsuffix : spell b n k.classSuffix.toList = k.classSuffix.toList :=
    spell_eq_self b n (by cases k <;> decide)
  obtain ⟨body, hlines⟩ := adapterLines_eq b hk
  have hhead : spell b n
      (Adapter.opening ++ ('§' :: k.classSuffix.toList ++ ' ' :: (heir k).toList)) =
        (adapter b n k).head := by
    rw [spell_append, hopening, List.cons_append, spell_cons, if_pos rfl, spell_append, hsuffix,
      spell_cons_of_not_isMark b n (by decide), Adapter.head, adapter, List.append_assoc]
  rw [Adapter.lines, ← hhead, adapter, hlines]
  rfl

theorem inset_below (b : Backing) (n : Text) {k : Converter} (hk : k ≠ .efCoreValueConverter) :
    ∀ s ∈ (adapter b n k).below, Inset s := by
  obtain ⟨body, hlines⟩ := adapterLines_eq b hk
  refine List.forall_mem_map.2 fun s hs => Inset.spell ?_
  rw [hlines, block, List.cons_append, List.cons_append, List.tail_cons, List.cons_append,
    List.nil_append] at hs
  rcases List.mem_cons.1 hs with rfl | hs
  · decide
  · rcases List.mem_append.1 hs with hs | hs
    · exact inset_indent body s hs
    · rw [List.mem_singleton.1 hs]
      decide

end TypedId.Builtin
