import Handoff.Component.File
import Handoff.Integration.Splice
import Handoff.Proofs.Integration.Anchor
import Handoff.Proofs.Text.Words
/-!
# Every fragment finds its place

A component file has rows that stand for its anchors: the one that opens its body, and those around
the place for utilities. The first two insertions come before the last, and what they put in may
itself look like an anchor; the invariant is that the rows around the place for utilities stand in
the text, in order. `stand_file` says it of a file, `insertMarkup_stand` and `insertImports_stand`
that the insertions keep it, and `insertUtilities_ok` that it is enough.

Result: `intoMarkup_ok`.
-/
namespace Handoff

open Text (Stand EndsRow)
open scoped List

namespace Text

theorem isWord_of_isAlphanum {c : Char} (h : c.isAlphanum = true) : isWord c = true := by
  have ascii : c.toNat < 128 := by
    simp only [Char.isAlphanum, Char.isAlpha, Char.isUpper, Char.isLower, Char.isDigit,
      Bool.or_eq_true, Bool.and_eq_true, decide_eq_true_eq, UInt32.le_iff_toNat_le, ge_iff_le] at h
    change (65 ≤ c.toNat ∧ c.toNat ≤ 90 ∨ 97 ≤ c.toNat ∧ c.toNat ≤ 122) ∨
      48 ≤ c.toNat ∧ c.toNat ≤ 57 at h
    omega
  unfold isWord
  rw [if_pos ascii, h, Bool.true_or]

/-! ## Finding a text -/

theorem exists_splitFirst {needle text : List Char} (h : needle <:+: text) :
    ∃ split, splitFirst needle text = some split := by
  induction text with
  | nil => simp [splitFirst, List.infix_nil.mp h]
  | cons c text ih =>
    unfold splitFirst
    split
    · exact ⟨_, rfl⟩
    · next not =>
      rw [List.isPrefixOf_iff_prefix] at not
      obtain ⟨split, found⟩ := ih ((List.infix_cons_iff.mp h).resolve_left not)
      exact ⟨_, by rw [found]; rfl⟩

theorem exists_splitLast {needle text : List Char} (h : needle <:+: text) :
    ∃ split, splitLast needle text = some split := by
  induction text with
  | nil => simp [splitLast, List.infix_nil.mp h]
  | cons c text ih =>
    unfold splitLast
    split
    · exact ⟨_, rfl⟩
    · next not =>
      rcases List.infix_cons_iff.mp h with first | later
      · rw [if_pos (List.isPrefixOf_iff_prefix.mpr first)]
        exact ⟨_, rfl⟩
      · obtain ⟨split, found⟩ := ih later
        rw [found] at not
        cases not

theorem Stand.occurs {line : String} {text : List Char} (h : Stand [line] text) :
    line.toList <:+: text := by
  obtain ⟨before, rest, rfl, -⟩ := h.place
  exact ⟨before, rest, by simp⟩

end Text

/-! ## The rows of a component file -/

namespace ComponentParts

def parameters (p : ComponentParts) : String :=
  if p.typescript then "props: " ++ p.propsType else "props"

/-- The row of a file behind which markup is put. -/
def openingRow (p : ComponentParts) : MarkupDialect → String
  | .componentized => "export default function " ++ p.name ++ "(" ++ p.parameters ++ ") \x7b"
  | .templated => "<template>"
  | .static => "<body>"

/-- The row of a template file that opens its script. -/
def scriptRow (p : ComponentParts) : String :=
  "<script setup" ++ (if p.typescript then " lang=\"ts\"" else "") ++ ">"

/-- The rows of a file around the place for utilities. -/
def utilityRows (p : ComponentParts) : MarkupDialect → List String
  | .componentized => []
  | .templated => [p.scriptRow, "</script>"]
  | .static => ["</body>"]

/-- The name of a component is not empty and is made of letters and digits. -/
structure Named (p : ComponentParts) : Prop where
  some : p.name.toList ≠ []
  chars : Consists Char.isAlphanum p.name.toList

theorem Named.parameters_chars {p : ComponentParts} (named : p.Named) :
    Consists (fun c => c.isAlphanum || c == ':' || c == ' ') p.parameters.toList := by
  have fixed : Consists (fun c => c.isAlphanum || c == ':' || c == ' ') "props: Props".toList := by
    rw [consists_iff_all]
    decide +kernel
  intro c hc
  have parts : c ∈ p.name.toList ∨ c ∈ "props: Props".toList := by
    unfold parameters propsType at hc
    split at hc
    · simp only [String.toList_append, List.mem_append] at hc
      rcases hc with hc | hc | hc
      · exact .inr (List.mem_append_left "Props".toList hc)
      · exact .inl hc
      · exact .inr (List.mem_append_right "props: ".toList hc)
    · exact .inr (List.mem_append_left ": Props".toList hc)
  rcases parts with hc | hc
  · simp [named.chars c hc]
  · exact fixed c hc

/-- The rows for the anchors stand in every component file. -/
theorem Named.stand_file {p : ComponentParts} (named : p.Named) (dialect : MarkupDialect) :
    Stand (p.openingRow dialect :: p.utilityRows dialect) (p.file dialect).toList := by
  cases dialect with
  | componentized =>
    have name : '\n' ∉ p.name.toList := fun mem => by simpa using named.chars _ mem
    have parameters : '\n' ∉ p.parameters.toList := fun mem => by
      simpa using named.parameters_chars _ mem
    dsimp only [file, functionFile, joined, utilityRows, openingRow]
    refine Stand.joined (List.singleton_sublist.mpr ?_) ?_
    · exact List.mem_cons_of_mem _ (List.mem_cons_of_mem _ (List.mem_cons_self ..))
    · simp [name, parameters]
  | templated =>
    have script : '\n' ∉ p.scriptRow.toList := by
      unfold scriptRow
      split <;> decide
    dsimp only [file, templateFile, joined, utilityRows, openingRow]
    refine Stand.joined ?_ ?_
    · have front : ["<template>"] <+ ["<template>", Text.indent 2 p.body, "</template>", ""] :=
        List.singleton_sublist.mpr (List.mem_cons_self ..)
      exact front.append (((List.nil_sublist _).cons_cons _).cons _ |>.cons_cons _)
    · simp [script]
  | static =>
    dsimp only [file, documentFile, joined, utilityRows, openingRow]
    refine Stand.joined (.trans ?_ (List.drop_sublist 8 _)) ?_
    · exact (((List.nil_sublist _).cons_cons _).cons _).cons_cons _
    · decide

theorem opens_scriptRow (p : ComponentParts) : Anchor.Opens Anchor.scriptStart p.scriptRow := by
  have inner : p.scriptRow =
      "<script" ++ (" setup" ++ if p.typescript then " lang=\"ts\"" else "") ++ ">" := by
    unfold scriptRow
    split <;> rfl
  rw [inner]
  apply Anchor.opens_scriptStart
  split <;> decide

end ComponentParts

namespace Splice

variable {p : ComponentParts} {dialect : MarkupDialect} {markup : String}

theorem toList_insertAt (split : Anchor.Split) (piece : String) :
    (insertAt split piece).toList = split.1 ++ piece.toList ++ split.2 := by
  simp [insertAt]

/-- Where the row that opens the body stands, markup finds its place behind it. -/
theorem insertMarkup_stand (named : p.Named) (fragment : String)
    (h : Stand (p.openingRow dialect :: p.utilityRows dialect) markup.toList) :
    ∃ spliced, insertMarkup dialect fragment markup = .ok spliced ∧
      Stand (p.utilityRows dialect) spliced.toList := by
  have opening : ∃ before after,
      Anchor.search (Anchor.openingStart dialect) markup.toList = some (before, after) ∧
        ∀ tail, after <:+ tail → Stand (p.utilityRows dialect) tail := by
    cases dialect with
    | componentized =>
      -- Utilities go behind a function, so no row has to stand behind its opening.
      have parameters : ')' ∉ p.parameters.toList := fun mem => by
        simpa using named.parameters_chars _ mem
      have knows := Anchor.knows_functionStart named.some
        (fun c hc => Text.isWord_of_isAlphanum (named.chars c hc)) parameters
      obtain ⟨⟨before, after⟩, found⟩ := knows.search h
      exact ⟨before, after, found, fun tail _ => .nil tail⟩
    | templated => exact Anchor.opens_templateStart.search h
    | static => exact Anchor.opens_bodyStart.search h
  obtain ⟨before, after, found, behind⟩ := opening
  refine ⟨insertAt (before, after) ("\n" ++ Text.indent 2 fragment), ?_, behind _ ?_⟩
  · unfold insertMarkup
    rw [found]
  · rw [toList_insertAt]
    exact List.suffix_append _ _

theorem importAnchor?_ends {split : Anchor.Split}
    (h : importAnchor? dialect markup.toList = some split) :
    markup.toList = split.1 ++ split.2 ∧ EndsRow split.2 := by
  unfold importAnchor? at h
  split at h
  · next first found =>
    cases h
    exact Anchor.endsRows_importStart.search found
  · split at h
    · exact Anchor.endsRows_scriptStart.search h
    · cases h

/-- Imports leave every row where it stands. -/
theorem insertImports_stand {rows : List String} (dialect : MarkupDialect) (fragment : String)
    (h : Stand rows markup.toList) : Stand rows (insertImports dialect fragment markup).toList := by
  unfold insertImports
  split
  · next split anchor =>
    obtain ⟨whole, ends⟩ := importAnchor?_ends anchor
    rw [whole] at h
    rw [toList_insertAt]
    simpa using h.insert ends fragment.toList
  · simpa using h.prepend fragment.toList

/-- Where the rows around their place stand, utilities find it. -/
theorem insertUtilities_ok (fragment : String) (h : Stand (p.utilityRows dialect) markup.toList) :
    ∃ spliced, insertUtilities dialect fragment markup = .ok spliced := by
  cases dialect with
  | componentized => exact ⟨_, rfl⟩
  | templated =>
    obtain ⟨before, after, opened, behind⟩ := p.opens_scriptRow.search h
    obtain ⟨split, closed⟩ := Text.exists_splitFirst (behind after (List.suffix_refl _)).occurs
    have place : scriptClose? markup.toList = some (before ++ split.1, split.2) := by
      unfold scriptClose? Anchor.andThen
      rw [opened]
      dsimp only
      rw [closed]
      rfl
    unfold insertUtilities
    dsimp only
    rw [place]
    exact ⟨_, rfl⟩
  | static =>
    obtain ⟨split, closed⟩ := Text.exists_splitLast h.occurs
    unfold insertUtilities bodyClose?
    dsimp only
    rw [closed]
    exact ⟨_, rfl⟩

def withImports (dialect : MarkupDialect) (custom : CustomCode) (text : String) : String :=
  (CustomCode.fragment? custom.imports).elim text fun f => insertImports dialect f text

/-- Markup is put in first, then imports, then utilities. -/
theorem intoMarkup_eq (dialect : MarkupDialect) (custom : CustomCode) (markup : String) :
    intoMarkup dialect custom markup =
      ((CustomCode.fragment? custom.markup).elim (.ok markup) fun f =>
        insertMarkup dialect f markup).bind fun marked =>
      (CustomCode.fragment? custom.utilities).elim (.ok (withImports dialect custom marked)) fun f =>
        insertUtilities dialect f (withImports dialect custom marked) := by
  unfold intoMarkup withImports
  cases CustomCode.fragment? custom.markup <;> cases CustomCode.fragment? custom.imports <;>
    cases CustomCode.fragment? custom.utilities <;> rfl

/-- Custom code finds its places in every component file, whatever it is. -/
theorem intoMarkup_ok (named : p.Named) (dialect : MarkupDialect) (custom : CustomCode) :
    ∃ spliced, intoMarkup dialect custom (p.file dialect) = .ok spliced := by
  have file := named.stand_file dialect
  have behindMarkup (marked : String) (h : Stand (p.utilityRows dialect) marked.toList) :
      ∃ spliced, ((CustomCode.fragment? custom.utilities).elim
        (.ok (withImports dialect custom marked)) fun f =>
        insertUtilities dialect f (withImports dialect custom marked)) = .ok spliced := by
    have stand : Stand (p.utilityRows dialect) (withImports dialect custom marked).toList := by
      unfold withImports
      cases CustomCode.fragment? custom.imports with
      | none => exact h
      | some fragment => exact insertImports_stand dialect _ h
    cases CustomCode.fragment? custom.utilities with
    | none => exact ⟨_, rfl⟩
    | some fragment => exact insertUtilities_ok _ stand
  rw [intoMarkup_eq]
  cases CustomCode.fragment? custom.markup with
  | none => exact behindMarkup (p.file dialect) file.of_cons
  | some fragment =>
    obtain ⟨marked, found, stand⟩ := insertMarkup_stand named fragment file
    rw [Option.elim_some, found]
    exact behindMarkup marked stand

end Splice
end Handoff
