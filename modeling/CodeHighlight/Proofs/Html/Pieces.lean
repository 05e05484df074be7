import CodeHighlight.Proofs.Html.BlockLines
import CodeHighlight.Proofs.Html.Overlap

/-!
# The pieces that spans are cut into

The pieces on all lines, one line after the other, are those of the first span, then those of the
second, and so on (`flatten_splitLines`).  Each piece stands at the offset at which its text stands
in the text of its span, so the pieces of a span that carries the text of a source carry the text of
the source as well (`Span.Excerpt.cutInto`).
-/

namespace CodeHighlight

/-- The span is a stretch of the source and carries the text of it. -/
structure Span.Excerpt (source : Source) (span : Span) : Prop where
  start_nonneg : 0 ≤ span.start
  start_le : span.start ≤ span.stop
  stop_le : span.stop ≤ source.length
  text_eq : span.text = source.slice span.start span.stop

/-- The pieces are excerpts of the source, one behind the other, inside a span and of its category.
They have all of its text but the line feeds, of which there is at least one between any two. -/
structure Span.CutInto (source : Source) (span : Span) (pieces : List Span) : Prop where
  excerpt : ∀ piece ∈ pieces, piece.Excerpt source
  bounds : ∀ piece ∈ pieces, span.start ≤ piece.start ∧ piece.stop ≤ span.stop
  category : ∀ piece ∈ pieces, piece.category = span.category
  text : ∀ piece ∈ pieces, piece.text ≠ [] ∧ '\n' ∉ piece.text
  apart : pieces.Pairwise fun piece later => piece.stop < later.start
  texts : Span.texts pieces = span.text.filter (· ≠ '\n')

/-- The pieces of a span, on whatever line they are. -/
def Span.pieces (span : Span) : List Span := span.lines.flatten

/-! ## The pieces in their order -/

@[simp]
theorem flatten_joinLines (earlier later : List (List Span)) :
    (joinLines earlier later).flatten = earlier.flatten ++ later.flatten := by
  fun_induction joinLines earlier later with
  | case1 later => simp
  | case2 last next later => simp
  | case3 line rest later _ ih => simp [ih]

/-- The pieces of all lines are those of the spans, in the order of the spans. -/
theorem flatten_splitLines (spans : List Span) :
    (splitLines spans).flatten = spans.flatMap Span.pieces := by
  induction spans with
  | nil => simp [splitLines]
  | cons span rest ih => simp [splitLines, Span.pieces, ih]

namespace Span

theorem texts_flatten (lines : List (List Span)) :
    texts lines.flatten = (lines.map texts).flatten := by
  induction lines with
  | nil => rfl
  | cons line rest ih => simp [texts_append, ih]

/-- A part has no other piece than itself. -/
theorem mem_flatten_piecesFrom_cons {category : Category} {offset : Int} {part : Text}
    {rest : List Text} {piece : Span} :
    piece ∈ (piecesFrom category offset (part :: rest)).flatten ↔
      (part ≠ [] ∧ piece = ofLexeme category part offset) ∨
        piece ∈ (piecesFrom category (offset + part.length + 1) rest).flatten := by
  by_cases hempty : part = []
  · simp [piecesFrom, hempty]
  · simp [piecesFrom, hempty, ofLexeme]

/-- A piece stands at the place in the text that its offset names. -/
theorem exists_ofLexeme_of_mem_piecesFrom (category : Category) (offset : Int) (parts : List Text) :
    ∀ piece ∈ (piecesFrom category offset parts).flatten, ∃ front back,
      ['\n'].intercalate parts = front ++ piece.text ++ back ∧
        piece = ofLexeme category piece.text (offset + front.length) := by
  induction parts generalizing offset with
  | nil => simp [piecesFrom]
  | cons part rest ih =>
      intro piece hpiece
      rcases mem_flatten_piecesFrom_cons.1 hpiece with ⟨-, rfl⟩ | hpiece
      · cases rest with
        | nil => exact ⟨[], [], by simp [ofLexeme], by simp [ofLexeme]⟩
        | cons second rest =>
            refine ⟨[], '\n' :: ['\n'].intercalate (second :: rest), ?_, by simp [ofLexeme]⟩
            simp [ofLexeme, List.intercalate_cons_cons]
      · -- A piece of a later part has the first part and a line feed in front of it.
        obtain ⟨front, back, hsplit, hplace⟩ := ih (offset + part.length + 1) piece hpiece
        have hrest : rest ≠ [] := by
          rintro rfl
          simp [piecesFrom] at hpiece
        refine ⟨part ++ '\n' :: front, back, ?_, ?_⟩
        · simp [List.intercalate_cons_of_ne_nil hrest, hsplit]
        · rw [hplace]
          simp [ofLexeme]
          omega

theorem apart_piecesFrom (category : Category) (offset : Int) (parts : List Text) :
    (piecesFrom category offset parts).flatten.Pairwise
      fun piece later => piece.stop < later.start := by
  induction parts generalizing offset with
  | nil => simp [piecesFrom]
  | cons part rest ih =>
      have hrest := ih (offset + part.length + 1)
      by_cases hempty : part = []
      · simpa [piecesFrom, hempty] using hrest
      · simp only [piecesFrom, if_neg hempty, List.flatten_cons, List.singleton_append]
        refine List.pairwise_cons.2 ⟨fun later hlater => ?_, hrest⟩
        obtain ⟨line, hline, hlater⟩ := List.mem_flatten.1 hlater
        have hle := le_start_of_mem_piecesFrom category rest line hline later hlater
        show offset + part.length < later.start
        omega

end Span

theorem Text.flatten_splitOn (t : Text) : (t.splitOn '\n').flatten = t.filter (· ≠ '\n') := by
  induction t with
  | nil => simp
  | cons c t ih =>
      rw [List.splitOn_cons_eq_if_modifyHead]
      by_cases hc : c = '\n'
      · simp [hc, ih]
      · cases hparts : t.splitOn '\n' with
        | nil => exact absurd hparts (List.splitOn_ne_nil _ _)
        | cons first rest =>
            rw [hparts, List.flatten_cons] at ih
            simp [hc, ih]

/-! ## The pieces of an excerpt -/

namespace Span.Excerpt

variable {source : Source} {span : Span}

/-- A text inside an excerpt is an excerpt itself. -/
theorem ofLexeme (h : span.Excerpt source) (category : Category) {front t back : Text}
    (hsplit : span.text = front ++ t ++ back) :
    (Span.ofLexeme category t (span.start + front.length)).Excerpt source ∧
      span.start + front.length + t.length ≤ span.stop := by
  obtain ⟨hnonneg, hle, hstop, htext⟩ := h
  rw [htext] at hsplit
  have hlength := congrArg List.length hsplit
  rw [source.length_slice hnonneg hle hstop, List.length_append, List.length_append] at hlength
  have hslice := source.slice_middle hnonneg (by omega) hsplit
  refine ⟨⟨?_, ?_, ?_, hslice.symm⟩, by omega⟩
  · show 0 ≤ span.start + (front.length : Int)
    omega
  · show span.start + (front.length : Int) ≤ span.start + front.length + t.length
    omega
  · show span.start + (front.length : Int) + t.length ≤ source.length
    omega

/-- An excerpt is cut into excerpts. -/
theorem cutInto (h : span.Excerpt source) : span.CutInto source span.pieces := by
  have hplace : ∀ piece ∈ span.pieces, ∃ front back, span.text = front ++ piece.text ++ back ∧
      piece = Span.ofLexeme span.category piece.text (span.start + front.length) := by
    have hpieces :=
      exists_ofLexeme_of_mem_piecesFrom span.category span.start (span.text.splitOn '\n')
    rwa [List.intercalate_splitOn] at hpieces
  constructor
  case excerpt =>
    intro piece hpiece
    obtain ⟨front, back, hsplit, hlexeme⟩ := hplace piece hpiece
    rw [hlexeme]
    exact (h.ofLexeme span.category hsplit).1
  case bounds =>
    intro piece hpiece
    obtain ⟨front, back, hsplit, hlexeme⟩ := hplace piece hpiece
    have hstop := (h.ofLexeme span.category hsplit).2
    rw [hlexeme]
    refine ⟨?_, hstop⟩
    show span.start ≤ span.start + (front.length : Int)
    omega
  case category =>
    intro piece hpiece
    obtain ⟨front, back, -, hlexeme⟩ := hplace piece hpiece
    rw [hlexeme]
    rfl
  case text =>
    intro piece hpiece
    obtain ⟨line, hline, hpiece⟩ := List.mem_flatten.1 hpiece
    obtain ⟨hmem, hne⟩ := text_of_mem_piecesFrom _ _ _ line hline piece hpiece
    exact ⟨hne, Text.not_mem_of_mem_splitOn hmem⟩
  case apart => exact apart_piecesFrom span.category span.start _
  case texts => rw [pieces, texts_flatten, lines, texts_piecesFrom, Text.flatten_splitOn]

end Span.Excerpt

/-! ## The pieces of all spans -/

/-- Cutting spans at their line feeds gives one more line than there are line feeds, and the lines
joined by line feeds have the text of the spans.  Excerpts of a source are cut into excerpts, the
pieces of each behind those of the one before, so excerpts in order are cut into pieces in order,
whatever lines they are on. -/
theorem splitLines_cutInto (spans : List Span) :
    (splitLines spans).length = (Span.texts spans).count '\n' + 1 ∧
    ['\n'].intercalate ((splitLines spans).map Span.texts) = Span.texts spans ∧
    ∀ source, (∀ span ∈ spans, span.Excerpt source) →
      (∃ parts, List.Forall₂ (Span.CutInto source) spans parts ∧
        (splitLines spans).flatten = parts.flatten) ∧
      (spans.Pairwise Span.Precedes → (splitLines spans).flatten.Pairwise Span.Precedes) := by
  refine ⟨?_, intercalate_splitLines spans, fun source hexcerpt => ?_⟩
  · rw [← Text.length_splitOn, ← texts_splitLines, List.length_map]
  have hcut := fun span hspan => (hexcerpt span hspan).cutInto
  rw [flatten_splitLines]
  refine ⟨⟨spans.map Span.pieces, ?_, List.flatMap_def⟩, fun hordered => ?_⟩
  · rw [List.forall₂_map_right_iff, List.forall₂_same]
    exact hcut
  · rw [List.pairwise_flatMap]
    refine ⟨fun span hspan => ?_, ?_⟩
    · refine (hcut span hspan).apart.imp fun hlt => ?_
      exact Int.le_of_lt hlt
    · refine hordered.imp_of_mem fun hspan hother hle piece hpiece later hlater => ?_
      have hbefore := ((hcut _ hspan).bounds piece hpiece).2
      have hbehind := ((hcut _ hother).bounds later hlater).1
      show piece.stop ≤ later.start
      exact hbefore.trans (Int.le_trans hle hbehind)

/-- Line feeds on both sides of a junction, with an empty span between them. -/
theorem splitLines_cutInto_junction :
    let source : Source := .ofText "a\n\nbc\n\n".toList
    let spans : List Span := [⟨.plain, "a\n".toList, 0, 2⟩, ⟨.keyword, [], 2, 2⟩,
      ⟨.string, "\nbc\n".toList, 2, 6⟩, ⟨.plain, ['\n'], 6, 7⟩]
    (∀ span ∈ spans, span.Excerpt source) ∧ spans.Pairwise Span.Precedes ∧
      (splitLines spans).length = (Span.texts spans).count '\n' + 1 ∧
      ['\n'].intercalate ((splitLines spans).map Span.texts) = Span.texts spans ∧
      (∃ parts, List.Forall₂ (Span.CutInto source) spans parts ∧
        (splitLines spans).flatten = parts.flatten) ∧
      (splitLines spans).flatten.Pairwise Span.Precedes := by
  intro source spans
  have hexcerpt : ∀ span ∈ spans, span.Excerpt source := by
    simp only [spans, List.forall_mem_cons]
    refine ⟨?_, ?_, ?_, ?_, nofun⟩ <;>
      exact ⟨by decide, by decide, by decide, by decide⟩
  have hordered : spans.Pairwise Span.Precedes := by
    simp [spans, Span.Precedes]
  obtain ⟨hlength, htexts, hcut⟩ := splitLines_cutInto spans
  exact ⟨hexcerpt, hordered, hlength, htexts, (hcut source hexcerpt).1,
    (hcut source hexcerpt).2 hordered⟩

end CodeHighlight
