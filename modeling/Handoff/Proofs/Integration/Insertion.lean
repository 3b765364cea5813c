import Handoff.Proofs.Integration.Warnings
import Mathlib.Data.List.Forall2
/-!
# Custom code is put in or left out as a whole

What was generated is never cut or changed by custom code. Every fragment of markup becomes one
piece that is put into the text at one place, the next fragment into the text that this gives, and
styles go behind the stylesheet, each block under its banner. A fragment without a place stops
everything, and then neither text is touched, whatever has found its place before.

`Inserted` says what one insertion does, `Spliced` what a run of them does. The pieces are framed by
fixed texts (`Frames`), so nothing but the fragments and this wording gets in.

Results:
* `Splice.intoMarkup_spliced`, `Splice.intoStylesheet_appended`: all fragments that are there, each
  once.
* `Integration.integrate_insertsOnly`: custom code is put in, or both texts stay as they were.
-/
namespace Handoff

open scoped List

/-! ## Insertions -/

/-- One piece is put into a text at one place. -/
def Inserted (piece before after : String) : Prop :=
  ∃ front back, before = front ++ back ∧ after = front ++ piece ++ back

/-- What may stand around a fragment in its piece. -/
abbrev Frames := List (String × String)

/-- Fragments are put in one after the other, each framed, as one piece at one place of the text
that there is by then. -/
inductive Spliced : List (Frames × String) → String → String → Prop
  | done (text : String) : Spliced [] text text
  | put {frames : Frames} {fragment lead trail text next result : String}
      {rest : List (Frames × String)} (framed : (lead, trail) ∈ frames)
      (inserted : Inserted (lead ++ fragment ++ trail) text next)
      (more : Spliced rest next result) :
      Spliced ((frames, fragment) :: rest) text result

theorem Inserted.sublist {piece before after : String} (h : Inserted piece before after) :
    before.toList <+ after.toList := by
  obtain ⟨front, back, rfl, rfl⟩ := h
  rw [String.toList_append, String.toList_append, String.toList_append]
  exact (List.sublist_append_left _ _).append (List.Sublist.refl _)

theorem Spliced.sublist {fragments : List (Frames × String)} {text result : String}
    (h : Spliced fragments text result) : text.toList <+ result.toList := by
  induction h with
  | done => exact List.Sublist.refl _
  | put _ inserted _ later => exact inserted.sublist.trans later

theorem Spliced.append {first second : List (Frames × String)} {text next result : String}
    (h : Spliced first text next) (later : Spliced second next result) :
    Spliced (first ++ second) text result := by
  induction h with
  | done => exact later
  | put framed inserted _ ih => exact .put framed inserted (ih later)

theorem Spliced.one {frames : Frames} {fragment lead trail text result : String}
    (framed : (lead, trail) ∈ frames)
    (inserted : Inserted (lead ++ fragment ++ trail) text result) :
    Spliced [(frames, fragment)] text result :=
  .put framed inserted (.done result)

namespace CustomCode

def markupFrames : Frames := [("\n", "")]

def importFrames : Frames := [("\n", ""), ("", "\n")]

/-- What may stand around utilities: a script of their own, or what keeps their banner apart from
the code in front of it. -/
def utilityFrames : Frames := [
  ("<script>\n// Custom utilities\n", "\n</script>\n"), ("// Custom utilities\n", "\n"),
  ("\n// Custom utilities\n", "\n"), ("\n\n// Custom utilities\n", "\n")]

/-- The fragments that go into markup, in their order, those that are blank left out. -/
def pieces (c : CustomCode) : List (Frames × String) :=
  ((fragment? c.markup).map fun f => (markupFrames, Text.indent 2 f)).toList ++
    ((fragment? c.imports).map fun f => (importFrames, f)).toList ++
    ((fragment? c.utilities).map fun f => (utilityFrames, f)).toList

/-- The fragments that go behind a stylesheet with their banners, in their order, those that are
blank left out. -/
def blocks (c : CustomCode) : List (String × String) :=
  ((fragment? c.styles).map fun f => ("/* Custom styles */", f)).toList ++
    ((fragment? c.advancedStyles).map fun f => ("/* Advanced styles */", f)).toList

theorem isEmpty_iff {c : CustomCode} : c.isEmpty = true ↔
    fragment? c.markup = none ∧ fragment? c.styles = none ∧ fragment? c.advancedStyles = none ∧
      fragment? c.imports = none ∧ fragment? c.utilities = none := by
  simp only [isEmpty, List.all_cons, List.all_nil, Bool.and_true, Bool.and_eq_true,
    Option.isNone_iff_eq_none]

end CustomCode

/-- A block is its fragment under its banner, with line feeds in front of it. -/
def IsBlock (banner fragment block : String) : Prop :=
  ∃ gap ∈ ["", "\n", "\n\n"], block = gap ++ banner ++ "\n" ++ fragment ++ "\n"

/-- A text is followed by blocks, one for each banner with its fragment, and by nothing else. -/
def Appended (blocks : List (String × String)) (text result : String) : Prop :=
  ∃ written, List.Forall₂ (fun b block => IsBlock b.1 b.2 block) blocks written ∧
    result = text ++ String.join written

namespace Splice

/-! ## Into markup -/

theorem inserted_insertAt {split : Anchor.Split} {text : String}
    (whole : text.toList = split.1 ++ split.2) (piece : String) :
    Inserted piece text (insertAt split piece) := by
  refine ⟨String.ofList split.1, String.ofList split.2, ?_, rfl⟩
  rw [← String.toList_inj, whole, String.toList_append, String.toList_ofList, String.toList_ofList]

theorem insertMarkup_spliced {dialect : MarkupDialect} {fragment markup result : String}
    (h : insertMarkup dialect fragment markup = .ok result) :
    Spliced [(CustomCode.markupFrames, Text.indent 2 fragment)] markup result := by
  unfold insertMarkup at h
  split at h
  · next split found =>
    cases h
    have whole := Anchor.search_eq (Anchor.sound_openingStart dialect) found
    have framed : ("\n", "") ∈ CustomCode.markupFrames := by decide
    refine .one framed ?_
    rw [String.append_empty]
    exact inserted_insertAt whole _
  · cases h

theorem insertImports_spliced (dialect : MarkupDialect) (fragment markup : String) :
    Spliced [(CustomCode.importFrames, fragment)] markup
      (insertImports dialect fragment markup) := by
  have behind : ("\n", "") ∈ CustomCode.importFrames := by decide
  have inFront : ("", "\n") ∈ CustomCode.importFrames := by decide
  unfold insertImports
  split
  · next split found =>
    refine .one behind ?_
    rw [String.append_empty]
    exact inserted_insertAt (importAnchor?_ends found).1 _
  · refine .one inFront ⟨"", markup, (String.empty_append).symm, ?_⟩
    rw [String.empty_append, String.empty_append]

theorem whole_scriptClose? {text : List Char} {split : Anchor.Split}
    (h : scriptClose? text = some split) : text = split.1 ++ split.2 := by
  unfold scriptClose? at h
  refine Anchor.andThen_eq ?_ ?_ h
  · exact fun _ _ => Anchor.search_eq Anchor.endsRows_scriptStart.sound
  · exact fun _ _ _ found => (Text.splitFirst_eq found).1

theorem gapAfter_mem (text : String) : gapAfter text ∈ ["", "\n", "\n\n"] := by
  unfold gapAfter
  split_ifs <;> decide

/-- Away from a document, the banner only differs in the line feeds in front of it. -/
theorem spliced_banner {fragment markup result gap front back : String}
    (mem : gap ∈ ["", "\n", "\n\n"]) (whole : markup = front ++ back)
    (put : result = front ++ (gap ++ bannered utilitiesBanner fragment) ++ back) :
    Spliced [(CustomCode.utilityFrames, fragment)] markup result := by
  have framed : (gap ++ "// Custom utilities\n", "\n") ∈ CustomCode.utilityFrames := by
    simp only [List.mem_cons, List.not_mem_nil, or_false] at mem
    rcases mem with rfl | rfl | rfl <;> decide
  refine .one framed ⟨front, back, whole, ?_⟩
  rw [put]
  simp only [bannered, utilitiesBanner, String.append_assoc]
  rfl

/-- In a document it stands in a script of its own. -/
theorem spliced_script {fragment markup : String} {split : Anchor.Split}
    (whole : markup.toList = split.1 ++ split.2) :
    Spliced [(CustomCode.utilityFrames, fragment)] markup
      (insertAt split ("<script>\n" ++ bannered utilitiesBanner fragment ++ "</script>\n")) := by
  have framed : ("<script>\n// Custom utilities\n", "\n</script>\n") ∈ CustomCode.utilityFrames := by
    decide
  have piece : "<script>\n" ++ bannered utilitiesBanner fragment ++ "</script>\n" =
      "<script>\n// Custom utilities\n" ++ fragment ++ "\n</script>\n" := by
    rw [← String.toList_inj]
    simp [bannered, utilitiesBanner]
  refine .one framed ?_
  rw [← piece]
  exact inserted_insertAt whole _

theorem insertUtilities_spliced {dialect : MarkupDialect} {fragment markup result : String}
    (h : insertUtilities dialect fragment markup = .ok result) :
    Spliced [(CustomCode.utilityFrames, fragment)] markup result := by
  unfold insertUtilities at h
  cases dialect with
  | componentized =>
    cases h
    refine spliced_banner (gapAfter_mem markup) (String.append_empty (s := markup)).symm ?_
    rw [appendBlock, String.append_empty]
  | templated =>
    dsimp only at h
    split at h
    · next split found =>
      cases h
      obtain ⟨front, back, whole, put⟩ := inserted_insertAt (whole_scriptClose? found)
        ((if split.1.getLast? = some '\n' then "\n" else "\n\n") ++
          bannered utilitiesBanner fragment)
      refine spliced_banner ?_ whole put
      split_ifs <;> decide
    · cases h
  | static =>
    dsimp only at h
    split at h
    · next split found =>
      cases h
      exact spliced_script (Text.splitLast_eq found).1
    · cases h

/-- All fragments of markup that are there are put in, one after the other. -/
theorem intoMarkup_spliced {dialect : MarkupDialect} {custom : CustomCode} {markup result : String}
    (h : intoMarkup dialect custom markup = .ok result) :
    Spliced custom.pieces markup result := by
  have imported (text : String) :
      Spliced ((CustomCode.fragment? custom.imports).map fun f =>
        (CustomCode.importFrames, f)).toList text (withImports dialect custom text) := by
    unfold withImports
    cases CustomCode.fragment? custom.imports with
    | none => exact .done text
    | some fragment => exact insertImports_spliced dialect fragment text
  have utilized {text : String}
      (h : ((CustomCode.fragment? custom.utilities).elim (.ok text) fun fragment =>
        insertUtilities dialect fragment text) = .ok result) :
      Spliced ((CustomCode.fragment? custom.utilities).map fun f =>
        (CustomCode.utilityFrames, f)).toList text result := by
    cases hf : CustomCode.fragment? custom.utilities with
    | none => rw [hf] at h; cases h; exact .done result
    | some fragment => rw [hf] at h; exact insertUtilities_spliced h
  rw [intoMarkup_eq] at h
  unfold CustomCode.pieces
  rw [List.append_assoc]
  cases hm : CustomCode.fragment? custom.markup with
  | none =>
    rw [hm] at h
    exact (imported markup).append (utilized h)
  | some fragment =>
    rw [hm, Option.elim_some] at h
    cases placed : insertMarkup dialect fragment markup with
    | error e => rw [placed] at h; cases h
    | ok marked =>
      rw [placed] at h
      exact (insertMarkup_spliced placed).append ((imported marked).append (utilized h))

theorem intoMarkup_isEmpty (dialect : MarkupDialect) {custom : CustomCode} (markup : String)
    (h : custom.isEmpty = true) : intoMarkup dialect custom markup = .ok markup := by
  obtain ⟨noMarkup, -, -, noImports, noUtilities⟩ := CustomCode.isEmpty_iff.mp h
  unfold intoMarkup
  rw [noMarkup, noImports, noUtilities]
  rfl

/-! ## Behind a stylesheet -/

theorem isBlock_bannered (banner fragment text : String) :
    IsBlock banner fragment (gapAfter text ++ bannered banner fragment) := by
  refine ⟨gapAfter text, gapAfter_mem text, ?_⟩
  simp only [bannered, String.append_assoc]

theorem appended_append {blocks : List (String × String)} {text next : String}
    (h : Appended blocks text next) (banner fragment : String) :
    Appended (blocks ++ [(banner, fragment)]) text (appendBlock banner fragment next) := by
  obtain ⟨written, areBlocks, rfl⟩ := h
  have last := isBlock_bannered banner fragment (text ++ String.join written)
  refine ⟨written ++ [_], List.rel_append areBlocks (.cons last .nil), ?_⟩
  rw [appendBlock, String.append_assoc, String.join_append]
  simp

/-- All styles that are there are put behind the stylesheet, each under its banner. -/
theorem intoStylesheet_appended (custom : CustomCode) (stylesheet : String) :
    Appended custom.blocks stylesheet (intoStylesheet custom stylesheet) := by
  have start : Appended [] stylesheet stylesheet := ⟨[], .nil, by simp⟩
  unfold intoStylesheet CustomCode.blocks
  cases CustomCode.fragment? custom.styles with
  | none =>
    cases CustomCode.fragment? custom.advancedStyles with
    | none => exact start
    | some advanced => exact appended_append start _ _
  | some styles =>
    have styled := appended_append start "/* Custom styles */" styles
    cases CustomCode.fragment? custom.advancedStyles with
    | none => exact styled
    | some advanced => exact appended_append styled _ _

theorem intoStylesheet_isEmpty {custom : CustomCode} (stylesheet : String)
    (h : custom.isEmpty = true) : intoStylesheet custom stylesheet = stylesheet := by
  obtain ⟨-, noStyles, noAdvancedStyles, -, -⟩ := CustomCode.isEmpty_iff.mp h
  unfold intoStylesheet
  rw [noStyles, noAdvancedStyles]

end Splice

theorem Appended.isPrefix {blocks : List (String × String)} {text result : String}
    (h : Appended blocks text result) : text.toList <+: result.toList := by
  obtain ⟨written, -, rfl⟩ := h
  rw [String.toList_append]
  exact List.prefix_append _ _

namespace Integration

/-- What custom code has come to: it is put in as a whole, or nothing has changed and, unless there
was nothing to put in, the last warning says why. -/
def InsertsOnly (dialect : MarkupDialect) (custom : CustomCode) (markup stylesheet : String)
    (result : Integration) : Prop :=
  (custom.isEmpty = true ∧ result = ⟨markup, stylesheet, []⟩) ∨
  (∃ error, Splice.intoMarkup dialect custom markup = .error error ∧
    result.markup = markup ∧ result.stylesheet = stylesheet ∧
    result.warnings.getLast? = some (.notIntegrated error)) ∨
  (custom.isEmpty = false ∧ Spliced custom.pieces markup result.markup ∧
    Appended custom.blocks stylesheet result.stylesheet ∧
    ∀ error, .notIntegrated error ∉ result.warnings)

theorem hasOrphanStyles_isEmpty {custom : CustomCode} (h : custom.isEmpty = true) :
    hasOrphanStyles custom = false := by
  obtain ⟨-, noStyles, noAdvancedStyles, -, -⟩ := CustomCode.isEmpty_iff.mp h
  unfold hasOrphanStyles
  rw [noStyles, noAdvancedStyles]
  rfl

/-- Custom code is put in with all its fragments, each once and verbatim, or not at all. No
character of what was generated is dropped or changed. -/
theorem integrate_insertsOnly (dialect : MarkupDialect) (custom : CustomCode)
    (markup stylesheet : String) :
    let result := integrate dialect custom markup stylesheet
    InsertsOnly dialect custom markup stylesheet result ∧
      markup.toList <+ result.markup.toList ∧ stylesheet.toList <+: result.stylesheet.toList := by
  intro result
  cases spliced : Splice.intoMarkup dialect custom markup with
  | error error =>
    have failed : result = ⟨markup, stylesheet,
        (if hasOrphanStyles custom then [.orphanStyles] else []) ++ [.notIntegrated error]⟩ := by
      simp only [result, integrate, spliced]
    rw [failed]
    refine ⟨.inr (.inl ⟨error, spliced, rfl, rfl, ?_⟩), List.Sublist.refl _, List.prefix_refl _⟩
    exact List.getLast?_concat
  | ok text =>
    have put : result = ⟨text, Splice.intoStylesheet custom stylesheet,
        if hasOrphanStyles custom then [.orphanStyles] else []⟩ := by
      simp only [result, integrate, spliced]
    have pieces := Splice.intoMarkup_spliced spliced
    have blocks := Splice.intoStylesheet_appended custom stylesheet
    rw [put]
    refine ⟨?_, pieces.sublist, blocks.isPrefix⟩
    cases empty : custom.isEmpty with
    | true =>
      have same : text = markup :=
        Except.ok.inj (spliced.symm.trans (Splice.intoMarkup_isEmpty dialect markup empty))
      left
      rw [same, Splice.intoStylesheet_isEmpty stylesheet empty, hasOrphanStyles_isEmpty empty]
      exact ⟨empty, rfl⟩
    | false =>
      right; right
      refine ⟨empty, pieces, blocks, fun error => ?_⟩
      dsimp only
      split_ifs <;> simp

end Integration
end Handoff
