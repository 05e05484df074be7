import CodeHighlight.Html.Markup
import CodeHighlight.Proofs.Scan.Coverage

/-!
# Spans cut into lines

Cutting spans at their line feeds loses nothing: the texts of the lines, joined by line feeds, are
the text of the spans (`intercalate_splitLines`).  The pieces on a line of a tiling stand one behind
the other (`Tiles.within_splitLines`), so no line is refused for an overlap.
-/

namespace CodeHighlight

/-! ## The text of the lines -/

theorem Span.piecesFrom_ne_nil {category : Category} {offset : Int} {parts : List Text}
    (h : parts ≠ []) : Span.piecesFrom category offset parts ≠ [] := by
  cases parts with
  | nil => contradiction
  | cons part rest => exact List.cons_ne_nil _ _

/-- Each line of pieces has the text of its part. -/
theorem Span.texts_piecesFrom (category : Category) (offset : Int) (parts : List Text) :
    (Span.piecesFrom category offset parts).map Span.texts = parts := by
  induction parts generalizing offset with
  | nil => rfl
  | cons part rest ih =>
      have hpart : Span.texts (if part = [] then [] else
          [⟨category, part, offset, offset + part.length⟩]) = part := by
        by_cases hempty : part = []
        · rw [if_pos hempty, hempty]
          rfl
        · rw [if_neg hempty]
          exact List.append_nil part
      rw [Span.piecesFrom, List.map_cons, hpart, ih]

theorem Span.lines_ne_nil (span : Span) : span.lines ≠ [] :=
  Span.piecesFrom_ne_nil (List.splitOn_ne_nil _ _)

theorem Span.intercalate_lines (span : Span) :
    ['\n'].intercalate (span.lines.map Span.texts) = span.text := by
  rw [Span.lines, Span.texts_piecesFrom, List.intercalate_splitOn]

theorem Span.texts_append (spans more : List Span) :
    Span.texts (spans ++ more) = Span.texts spans ++ Span.texts more := by
  rw [Span.texts, List.map_append, List.flatten_append]
  rfl

theorem joinLines_cons_cons (line second : List Span) (rest later : List (List Span)) :
    joinLines (line :: second :: rest) later = line :: joinLines (second :: rest) later := by
  cases later <;> rfl

theorem joinLines_ne_nil {earlier : List (List Span)} (later : List (List Span))
    (h : earlier ≠ []) : joinLines earlier later ≠ [] := by
  cases earlier with
  | nil => contradiction
  | cons line rest =>
      cases rest with
      | nil => cases later <;> exact List.cons_ne_nil _ _
      | cons second rest =>
          rw [joinLines_cons_cons]
          exact List.cons_ne_nil _ _

private theorem intercalate_append_cons (t u : Text) (rest : List Text) :
    ['\n'].intercalate ((t ++ u) :: rest) = t ++ ['\n'].intercalate (u :: rest) := by
  cases rest with
  | nil => rw [List.intercalate_singleton, List.intercalate_singleton]
  | cons second rest =>
      rw [List.intercalate_cons_cons, List.intercalate_cons_cons]
      simp only [List.append_assoc]

/-- Lines that are put together are written as both parts in turn, without a line feed between, by
whatever writes pieces one after the other. -/
theorem intercalate_joinLines {write : List Span → Text}
    (hwrite : ∀ pieces more, write (pieces ++ more) = write pieces ++ write more)
    {earlier later : List (List Span)} (hearlier : earlier ≠ []) (hlater : later ≠ []) :
    ['\n'].intercalate ((joinLines earlier later).map write) =
      ['\n'].intercalate (earlier.map write) ++ ['\n'].intercalate (later.map write) := by
  induction earlier with
  | nil => contradiction
  | cons line rest ih =>
      cases rest with
      | nil =>
          cases later with
          | nil => contradiction
          | cons next later => simp [joinLines, hwrite, intercalate_append_cons]
      | cons second rest =>
          have hne : (joinLines (second :: rest) later).map write ≠ [] := by
            simpa using joinLines_ne_nil later (List.cons_ne_nil second rest)
          have hrest : (second :: rest).map write ≠ [] := List.cons_ne_nil _ _
          rw [joinLines_cons_cons, List.map_cons, List.map_cons,
            List.intercalate_cons_of_ne_nil hne, List.intercalate_cons_of_ne_nil hrest,
            ih (List.cons_ne_nil second rest), ← List.append_assoc]

theorem splitLines_ne_nil (spans : List Span) : splitLines spans ≠ [] := by
  cases spans with
  | nil => exact List.cons_ne_nil _ _
  | cons span rest => exact joinLines_ne_nil (splitLines rest) span.lines_ne_nil

theorem exists_splitLines_eq_cons (spans : List Span) :
    ∃ first rest, splitLines spans = first :: rest :=
  List.exists_cons_of_ne_nil (splitLines_ne_nil spans)

theorem joinLines_append_cons (front : List (List Span)) (last next : List Span)
    (later : List (List Span)) :
    joinLines (front ++ [last]) (next :: later) = front ++ (last ++ next) :: later := by
  induction front with
  | nil => rfl
  | cons line front ih =>
      cases front with
      | nil => rfl
      | cons second front =>
          rw [List.cons_append, List.cons_append, joinLines_cons_cons]
          exact congrArg (line :: ·) ih

/-- To write the lines of spans, joined by line feeds, is to write the spans, if that holds of each
span on its own. -/
theorem intercalate_map_splitLines {write : List Span → Text} (hnil : write [] = [])
    (hwrite : ∀ pieces more, write (pieces ++ more) = write pieces ++ write more)
    {spans : List Span}
    (hspan : ∀ span ∈ spans, ['\n'].intercalate (span.lines.map write) = write [span]) :
    ['\n'].intercalate ((splitLines spans).map write) = write spans := by
  induction spans with
  | nil => simp [splitLines, hnil]
  | cons span rest ih =>
      obtain ⟨hfirst, hrest⟩ := List.forall_mem_cons.1 hspan
      rw [splitLines, intercalate_joinLines hwrite span.lines_ne_nil (splitLines_ne_nil rest),
        hfirst, ih hrest, ← hwrite, List.singleton_append]

/-- Nothing but the line feeds between the lines is lost, and those only until they are joined. -/
theorem intercalate_splitLines (spans : List Span) :
    ['\n'].intercalate ((splitLines spans).map Span.texts) = Span.texts spans :=
  intercalate_map_splitLines rfl Span.texts_append fun span _ => by
    simp [span.intercalate_lines, Span.texts]

/-! ## The pieces of the lines -/

/-- What holds of the pieces of each span holds of the pieces on each line. -/
theorem forall_mem_splitLines {p : Span → Prop} {spans : List Span}
    (h : ∀ span ∈ spans, ∀ line ∈ span.lines, ∀ piece ∈ line, p piece) :
    ∀ line ∈ splitLines spans, ∀ piece ∈ line, p piece := by
  induction spans with
  | nil =>
      intro line hline
      obtain rfl := List.mem_singleton.1 hline
      exact nofun
  | cons span rest ih =>
      have hspan := h span List.mem_cons_self
      have hrest := ih fun other hother => h other (List.mem_cons_of_mem span hother)
      obtain ⟨first, later, hlater⟩ := exists_splitLines_eq_cons rest
      obtain ⟨front, last, hlines⟩ : ∃ front last, span.lines = front ++ [last] :=
        ⟨_, _, (List.dropLast_append_getLast span.lines_ne_nil).symm⟩
      rw [splitLines, hlater, hlines, joinLines_append_cons]
      rw [hlater] at hrest
      rw [hlines] at hspan
      intro line hline piece hpiece
      rcases List.mem_append.1 hline with hline | hline
      · exact hspan line (List.mem_append_left _ hline) piece hpiece
      rcases List.mem_cons.1 hline with rfl | hline
      · rcases List.mem_append.1 hpiece with hpiece | hpiece
        · exact hspan last (List.mem_append_right _ List.mem_cons_self) piece hpiece
        · exact hrest first List.mem_cons_self piece hpiece
      · exact hrest line (List.mem_cons_of_mem first hline) piece hpiece

theorem Span.text_of_mem_piecesFrom (category : Category) (offset : Int) (parts : List Text) :
    ∀ line ∈ piecesFrom category offset parts, ∀ piece ∈ line,
      piece.text ∈ parts ∧ piece.text ≠ [] := by
  induction parts generalizing offset with
  | nil => exact nofun
  | cons part rest ih =>
      intro line hline piece hpiece
      rcases List.mem_cons.1 hline with rfl | hline
      · by_cases hempty : part = []
        · rw [if_pos hempty] at hpiece
          contradiction
        · rw [if_neg hempty] at hpiece
          rw [List.mem_singleton.1 hpiece]
          exact ⟨List.mem_cons_self, hempty⟩
      · obtain ⟨hmem, hne⟩ := ih _ line hline piece hpiece
        exact ⟨List.mem_cons_of_mem part hmem, hne⟩

theorem Text.not_mem_of_mem_splitOn {t part : Text} (h : part ∈ t.splitOn '\n') : '\n' ∉ part := by
  induction t generalizing part with
  | nil =>
      obtain rfl := List.mem_singleton.1 h
      exact List.not_mem_nil
  | cons c t ih =>
      rw [List.splitOn_cons_eq_if_modifyHead] at h
      by_cases hfeed : c = '\n'
      · rw [if_pos (beq_iff_eq.2 hfeed)] at h
        rcases List.mem_cons.1 h with rfl | h
        · exact List.not_mem_nil
        · exact ih h
      · rw [if_neg (by simpa using hfeed)] at h
        cases hparts : t.splitOn '\n' with
        | nil => exact absurd hparts (List.splitOn_ne_nil _ _)
        | cons first rest =>
            rw [hparts] at h ih
            rcases List.mem_cons.1 h with rfl | h
            · intro hmem
              rcases List.mem_cons.1 hmem with hmem | hmem
              · exact hfeed hmem.symm
              · exact ih List.mem_cons_self hmem
            · exact ih (List.mem_cons_of_mem first h)

/-- Each piece has text, and all of it on one line. -/
theorem text_of_mem_splitLines (spans : List Span) :
    ∀ line ∈ splitLines spans, ∀ piece ∈ line, '\n' ∉ piece.text ∧ piece.text ≠ [] := by
  refine forall_mem_splitLines fun span _ line hline piece hpiece => ?_
  obtain ⟨hmem, hne⟩ := Span.text_of_mem_piecesFrom _ _ _ line hline piece hpiece
  exact ⟨Text.not_mem_of_mem_splitOn hmem, hne⟩

/-- The lines have the texts between the line feeds. -/
theorem texts_splitLines (spans : List Span) :
    (splitLines spans).map Span.texts = (Span.texts spans).splitOn '\n' := by
  rw [← intercalate_splitLines spans, List.splitOn_intercalate]
  · intro t ht hmem
    obtain ⟨line, hline, rfl⟩ := List.mem_map.1 ht
    obtain ⟨part, hpart, hfeed⟩ := List.mem_flatten.1 hmem
    obtain ⟨piece, hpiece, rfl⟩ := List.mem_map.1 hpart
    exact (text_of_mem_splitLines spans line hline piece hpiece).1 hfeed
  · exact fun h => splitLines_ne_nil spans (List.map_eq_nil_iff.1 h)

/-! ## The places of the pieces -/

/-- The spans stand between two offsets, one behind the other. -/
def Within : Int → Int → List Span → Prop
  | first, last, [] => first ≤ last
  | first, last, span :: rest =>
      first ≤ span.start ∧ span.start ≤ span.stop ∧ Within span.stop last rest

namespace Within

variable {first middle last : Int} {spans : List Span}

theorem mono {earlier later : Int} (h : Within first last spans) (hfirst : earlier ≤ first)
    (hlast : last ≤ later) : Within earlier later spans := by
  induction spans generalizing earlier first with
  | nil =>
      have hle : first ≤ last := h
      show earlier ≤ later
      omega
  | cons span rest ih =>
      obtain ⟨hstart, hstop, hrest⟩ := h
      exact ⟨by omega, hstop, ih hrest (Int.le_refl _)⟩

theorem append {more : List Span} (h : Within first middle spans)
    (hmore : Within middle last more) : Within first last (spans ++ more) := by
  induction spans generalizing first with
  | nil => exact hmore.mono h (Int.le_refl _)
  | cons span rest ih =>
      obtain ⟨hstart, hstop, hrest⟩ := h
      exact ⟨hstart, hstop, ih hrest⟩

theorem le (h : Within first last spans) : first ≤ last := by
  induction spans generalizing first with
  | nil => exact h
  | cons span rest ih =>
      obtain ⟨hstart, hstop, hrest⟩ := h
      have hle := ih hrest
      omega

/-- Spans that stand one behind the other do not overlap. -/
theorem firstOverlap?_eq_none {previous : Int} (h : Within first last spans)
    (hprevious : previous ≤ first) : Html.firstOverlap? previous spans = none := by
  induction spans generalizing first previous with
  | nil => rfl
  | cons span rest ih =>
      obtain ⟨hstart, hstop, hrest⟩ := h
      rw [Html.firstOverlap?, if_neg (by omega)]
      exact ih hrest (Int.le_refl _)

end Within

namespace Tiles

variable {source : Source} {start stop : Int} {spans : List Span}

theorem within (h : Tiles source start stop spans) : Within start stop spans := by
  induction h with
  | nil position => exact Int.le_refl position
  | cons span rest stop hlt _ _ ih => exact ⟨Int.le_refl span.start, Int.le_of_lt hlt, ih⟩

/-- Inside the source a tile is as long as its text. -/
theorem length_eq (h : Tiles source start stop spans) (hstart : 0 ≤ start)
    (hstop : stop ≤ source.length) :
    ∀ span ∈ spans, span.stop - span.start = span.text.length := by
  induction h with
  | nil => exact nofun
  | cons span rest stop hlt htext hrest ih =>
      have hle := hrest.le
      refine List.forall_mem_cons.2 ⟨?_, ih (by omega) hstop⟩
      rw [htext, source.length_slice hstart (Int.le_of_lt hlt) (by omega)]
      omega

end Tiles

/-- The pieces of a text that starts at an offset stand between the ends of the text. -/
theorem within_piecesFrom (category : Category) {offset last : Int} (parts : List Text)
    (hlast : offset + (['\n'].intercalate parts).length ≤ last) :
    ∀ line ∈ Span.piecesFrom category offset parts, Within offset last line := by
  induction parts generalizing offset with
  | nil => exact nofun
  | cons part rest ih =>
      -- The first part ends before the line feed, if there is one, and that before the rest.
      have hpart : offset + part.length ≤ last ∧ (rest ≠ [] →
          offset + part.length + 1 + (['\n'].intercalate rest).length ≤ last) := by
        cases rest with
        | nil =>
            rw [List.intercalate_singleton] at hlast
            exact ⟨hlast, fun h => absurd rfl h⟩
        | cons second rest =>
            rw [List.intercalate_cons_cons, List.length_append, List.length_append] at hlast
            simp only [List.length_cons, List.length_nil] at hlast
            exact ⟨by omega, fun _ => by omega⟩
      intro line hline
      rcases List.mem_cons.1 hline with rfl | hline
      · by_cases hempty : part = []
        · rw [if_pos hempty]
          show offset ≤ last
          omega
        · rw [if_neg hempty]
          refine ⟨Int.le_refl _, ?_, hpart.1⟩
          show offset ≤ offset + part.length
          omega
      · have hrest : rest ≠ [] := by
          rintro rfl
          contradiction
        exact (ih (hpart.2 hrest) line hline).mono (by omega) (Int.le_refl _)

theorem within_joinLines {first middle last : Int} {earlier later : List (List Span)}
    (hfirst : first ≤ middle) (hlast : middle ≤ last)
    (hearlier : ∀ line ∈ earlier, Within first middle line)
    (hlater : ∀ line ∈ later, Within middle last line) :
    ∀ line ∈ joinLines earlier later, Within first last line := by
  induction earlier with
  | nil =>
      intro line hline
      exact (hlater line hline).mono hfirst (Int.le_refl _)
  | cons line rest ih =>
      -- Only the line that both parts share has pieces on both sides of the middle.
      have hline := hearlier line List.mem_cons_self
      have hrest := ih fun other hother => hearlier other (List.mem_cons_of_mem line hother)
      cases rest with
      | nil =>
          cases later with
          | nil =>
              intro other hother
              obtain rfl := List.mem_singleton.1 hother
              exact hline.mono (Int.le_refl _) hlast
          | cons next later =>
              intro other hother
              rcases List.mem_cons.1 hother with rfl | hother
              · exact hline.append (hlater next List.mem_cons_self)
              · exact hrest other (List.mem_cons_of_mem next hother)
      | cons second rest =>
          rw [joinLines_cons_cons]
          intro other hother
          rcases List.mem_cons.1 hother with rfl | hother
          · exact hline.mono (Int.le_refl _) hlast
          · exact hrest other hother

/-- Of spans that stand one behind the other, the pieces on every line do so as well. -/
theorem within_splitLines {first last : Int} {spans : List Span} (h : Within first last spans)
    (hlength : ∀ span ∈ spans, span.stop - span.start = span.text.length) :
    ∀ line ∈ splitLines spans, Within first last line := by
  induction spans generalizing first with
  | nil => simpa [splitLines] using h
  | cons span rest ih =>
      obtain ⟨hstart, hstop, hrest⟩ := h
      obtain ⟨hspan, hothers⟩ := List.forall_mem_cons.1 hlength
      have hpieces : ∀ line ∈ span.lines, Within span.start span.stop line := by
        refine within_piecesFrom span.category _ ?_
        rw [List.intercalate_splitOn]
        omega
      intro line hline
      have hline := within_joinLines hstop hrest.le hpieces (ih hrest hothers) line hline
      exact hline.mono hstart (Int.le_refl last)

/-- On every line of a tiling the pieces stand one behind the other. -/
theorem Tiles.within_splitLines {source : Source} {start stop : Int} {spans : List Span}
    (h : Tiles source start stop spans) (hstart : 0 ≤ start) (hstop : stop ≤ source.length) :
    ∀ line ∈ splitLines spans, Within start stop line :=
  CodeHighlight.within_splitLines h.within (h.length_eq hstart hstop)

/-- No line of a whole source is refused for an overlap. -/
theorem Tiles.overlap?_splitLines {source : Source} {spans : List Span}
    (h : Tiles source 0 source.length spans) :
    ∀ line ∈ splitLines spans, Html.overlap? line = none := by
  intro line hline
  have hwithin := h.within_splitLines (Int.le_refl 0) (Int.le_refl _) line hline
  exact hwithin.firstOverlap?_eq_none (by decide)

end CodeHighlight
