import CodeHighlight.Proofs.Html.BlockLines
import CodeHighlight.Proofs.Html.Entities
import CodeHighlight.Proofs.Html.Overlap

/-!
# Blocks without line options

A line that is neither marked nor numbered is just the markup of its pieces.  Escaped text can be cut
at its line feeds and joined again, and a token without line feeds is a piece as a whole.  So a block
of such lines is the fragment of its spans between the tags of the block
(`Style.block_eq_fragment`), unless plain text is wrapped: then a line feed would stand inside an
element in the fragment and between two elements in the block.
-/

namespace CodeHighlight

namespace Html

/-- Spans without overlaps that do not end before they start stand one behind the other. -/
theorem exists_within_of_firstOverlap? {previousStop : Int} {spans : List Span}
    (h : firstOverlap? previousStop spans = none)
    (hforward : ∀ span ∈ spans, span.start ≤ span.stop) :
    ∃ last, Within previousStop last spans := by
  induction spans generalizing previousStop with
  | nil => exact ⟨previousStop, Int.le_refl previousStop⟩
  | cons span rest ih =>
      obtain ⟨hspan, hothers⟩ := List.forall_mem_cons.1 hforward
      rw [firstOverlap?] at h
      split at h
      · contradiction
      · next hstart =>
          obtain ⟨last, hrest⟩ := ih h hothers
          exact ⟨last, Int.not_lt.1 hstart, hspan, hrest⟩

end Html

namespace Style

open Html

variable {style : Style}

theorem spans_append (style : Style) (list more : List Span) :
    style.spans (list ++ more) = style.spans list ++ style.spans more := by
  simp [spans]

theorem line_none (style : Style) (number : Nat) (pieces : List Span) :
    style.line .none number pieces = style.spans pieces := by
  simp [line, LineOptions.none]

/-- Without options the lines are the markup of their pieces, the line that does not count as
well. -/
theorem linesFrom_none (style : Style) (lines : List (List Span)) :
    style.linesFrom .none (countedLines lines) 1 lines = lines.map style.spans := by
  refine List.ext_getElem? fun index => ?_
  rw [getElem?_linesFrom, List.getElem?_map]
  cases hpieces : lines[index]? with
  | none => rfl
  | some pieces =>
      simp only [Option.map_some, line_none, Option.some_inj]
      split
      · rfl
      · rw [eq_nil_of_countedLines_le hpieces (by omega)]
        rfl

theorem map_spans_piecesFrom (hplain : style.wrapPlain = false) (offset : Int)
    (parts : List Text) :
    (Span.piecesFrom .plain offset parts).map style.spans = parts.map escape := by
  induction parts generalizing offset with
  | nil => rfl
  | cons part rest ih =>
      by_cases hempty : part = []
      · simp [Span.piecesFrom, hempty, ih, spans, escape]
      · simp [Span.piecesFrom, hempty, ih, spans, span, hplain]

/-- The lines of a span are written like the span: plain text because it is bare, a token because it
lies on one line. -/
theorem intercalate_lines (hplain : style.wrapPlain = false) {s : Span}
    (htoken : s.category ≠ .plain → s.text ≠ [] ∧ '\n' ∉ s.text) :
    ['\n'].intercalate (s.lines.map style.spans) = style.spans [s] := by
  by_cases hcategory : s.category = .plain
  · rw [Span.lines, hcategory, map_spans_piecesFrom hplain, ← escape_intercalate,
      List.intercalate_splitOn]
    simp [spans, span, hcategory, hplain]
  · obtain ⟨hne, hfeed⟩ := htoken hcategory
    rw [Span.lines, List.splitOn_eq_singleton hfeed]
    simp [Span.piecesFrom, hne, spans, span, hcategory]

/-- The block of spans whose lines have no overlaps is the markup of the spans between its tags. -/
theorem block_none (hplain : style.wrapPlain = false) {list : List Span}
    (htokens : ∀ span ∈ list, span.category ≠ .plain → span.text ≠ [] ∧ '\n' ∉ span.text)
    (hlines : ∀ line ∈ splitLines list, overlap? line = none) (language : Option Text) :
    style.block list language .none =
      .ok (openBlock language ++ style.spans list ++ closeBlock) := by
  rw [style.block_eq hlines, body, linesFrom_none, intercalate_map_splitLines rfl style.spans_append
    fun span hspan => intercalate_lines hplain (htokens span hspan)]

/-- If plain text is bare and no token is empty or goes over a line feed, the block of spans without
line options is their fragment between the tags of the block.  Spans that have a fragment have such a
block. -/
theorem block_eq_fragment (style : Style) (hplain : style.wrapPlain = false) {list : List Span}
    (hlength : ∀ span ∈ list, span.stop - span.start = span.text.length)
    (htokens : ∀ span ∈ list, span.category ≠ .plain → span.text ≠ [] ∧ '\n' ∉ span.text)
    {html : Text} (hfragment : style.fragment list = .ok html) (language : Option Text) :
    style.block list language .none = .ok (openBlock language ++ html ++ closeBlock) := by
  have hnone : overlap? list = none ∧ style.spans list = html := by
    unfold fragment at hfragment
    split at hfragment
    · contradiction
    · next hnone => exact ⟨hnone, Except.ok.inj hfragment⟩
  have hforward : ∀ span ∈ list, span.start ≤ span.stop := by
    intro span hspan
    have hspan := hlength span hspan
    omega
  -- The fragment was checked over all spans, which leaves nothing to refuse on any line.
  obtain ⟨last, hwithin⟩ := exists_within_of_firstOverlap? hnone.1 hforward
  have hlines : ∀ line ∈ splitLines list, overlap? line = none := by
    intro line hline
    exact (within_splitLines hwithin hlength line hline).firstOverlap?_eq_none (Int.le_refl _)
  rw [block_none hplain htokens hlines, hnone.2]

/-- The first span starts before the source, and there are line feeds at both ends of plain spans. -/
theorem block_eq_fragment_line_feeds :
    let style : Style := ⟨"a<".toList, false⟩
    let list : List Span := [⟨.plain, "\n&\n".toList, -1, 2⟩, ⟨.string, "'x'".toList, 2, 5⟩,
      ⟨.plain, [], 5, 5⟩, ⟨.plain, "\n\n".toList, 7, 9⟩]
    let html := "\n&amp;\n<span class=\"a<string\">&#x27;x&#x27;</span>\n\n".toList
    style.wrapPlain = false ∧
      (∀ span ∈ list, span.stop - span.start = span.text.length) ∧
      (∀ span ∈ list, span.category ≠ .plain → span.text ≠ [] ∧ '\n' ∉ span.text) ∧
      style.fragment list = .ok html ∧
      style.block list (some "c\"".toList) .none =
        .ok (openBlock (some "c\"".toList) ++ html ++ closeBlock) := by
  intro style list html
  have hlength : ∀ span ∈ list, span.stop - span.start = span.text.length := by
    simp [list]
  have htokens : ∀ span ∈ list, span.category ≠ .plain → span.text ≠ [] ∧ '\n' ∉ span.text := by
    simp [list]
  have hfragment : style.fragment list = .ok html := by decide
  exact ⟨rfl, hlength, htokens, hfragment,
    block_eq_fragment style rfl hlength htokens hfragment (some "c\"".toList)⟩

end Style

end CodeHighlight
