import CodeHighlight.Proofs.Html.Block
import CodeHighlight.Proofs.Html.Nesting
import CodeHighlight.Proofs.Scan.Locality

/-!
# The lines of a block

A block has the lines of its code, and each of them is well-nested on its own, since the pieces that
are written on it have no line feed.  Which classes a line carries is read off its tags: those of
the pieces are none of line numbers or marks, so a number and a mark stand on a line exactly where
they were asked for (`Style.lineNumbers_line`, `Style.wrapped_line_iff`).
-/

namespace CodeHighlight

/-! ## The lines of a text -/

/-- The number of lines of a text that count.  A line feed at the end only ends the last of them. -/
def Text.lineCount (t : Text) : Nat :=
  if t.getLast? = some '\n' then t.count '\n' else t.count '\n' + 1

namespace Text

theorem length_splitOn (t : Text) : (t.splitOn '\n').length = t.count '\n' + 1 := by
  induction t with
  | nil => rfl
  | cons c t ih =>
      rw [List.splitOn_cons_eq_if_modifyHead]
      by_cases hc : c = '\n'
      · rw [if_pos (beq_iff_eq.2 hc), hc, List.length_cons, ih, List.count_cons_self]
      · rw [if_neg (by simpa using hc), List.length_modifyHead, ih, List.count_cons_of_ne hc]

/-- Nothing stands behind the last line feed exactly if the text ends with it. -/
theorem getLast?_splitOn_iff (t : Text) :
    (1 < (t.splitOn '\n').length ∧ (t.splitOn '\n').getLast? = some []) ↔
      t.getLast? = some '\n' := by
  by_cases hmem : '\n' ∈ t
  · -- The last line feed is the first one from behind.
    obtain ⟨back, front, hreverse, hback⟩ := List.eq_append_cons_of_mem (List.mem_reverse.2 hmem)
    obtain rfl : t = front.reverse ++ '\n' :: back.reverse := by
      rw [← List.reverse_reverse t, hreverse]
      simp
    have hsingle : back.reverse.splitOn '\n' = [back.reverse] :=
      List.splitOn_eq_singleton fun h => hback (List.mem_reverse.1 h)
    have hpositive := List.length_pos_of_ne_nil (List.splitOn_ne_nil '\n' front.reverse)
    rw [List.splitOn_append_cons_self, hsingle, List.getLast?_concat, List.length_append,
      List.length_singleton]
    cases back with
    | nil => exact iff_of_true ⟨by omega, rfl⟩ (List.getLast?_concat)
    | cons c back =>
        have hc : c ≠ '\n' := fun h => hback (h ▸ List.mem_cons_self)
        refine iff_of_false (fun h => ?_) fun h => hc ?_
        · simpa using h.2
        · rw [List.reverse_cons, ← List.cons_append, ← List.append_assoc, List.getLast?_concat] at h
          exact Option.some.inj h
  · rw [List.splitOn_eq_singleton hmem, List.length_singleton]
    exact iff_of_false (fun h => absurd h.1 (by decide)) fun h => hmem (List.mem_of_getLast? h)

end Text

theorem Span.texts_eq_nil_iff {line : List Span} (h : ∀ piece ∈ line, piece.text ≠ []) :
    Span.texts line = [] ↔ line = [] := by
  cases line with
  | nil => exact iff_of_true rfl rfl
  | cons piece rest =>
      refine iff_of_false (fun htexts => ?_) (List.cons_ne_nil piece rest)
      exact h piece List.mem_cons_self (List.append_eq_nil_iff.1 htexts).1

/-- The lines of a block that count are those of the text. -/
theorem countedLines_splitLines (spans : List Span) :
    Html.countedLines (splitLines spans) = (Span.texts spans).lineCount := by
  have hlength : (splitLines spans).length = (Span.texts spans).count '\n' + 1 := by
    rw [← Text.length_splitOn, ← texts_splitLines, List.length_map]
  have hlast : (splitLines spans).getLast? = some [] ↔
      ((Span.texts spans).splitOn '\n').getLast? = some [] := by
    rw [← texts_splitLines, List.getLast?_map]
    cases hline : (splitLines spans).getLast? with
    | none => exact iff_of_false nofun nofun
    | some line =>
        have hpieces := fun piece hpiece =>
          (text_of_mem_splitLines spans line (List.mem_of_getLast? hline) piece hpiece).2
        rw [Option.map_some, Option.some_inj, Option.some_inj, Span.texts_eq_nil_iff hpieces]
  have hends : (1 < (splitLines spans).length ∧ (splitLines spans).getLast? = some []) ↔
      (Span.texts spans).getLast? = some '\n' := by
    rw [hlast, hlength, ← Text.length_splitOn, Text.getLast?_splitOn_iff]
  unfold Html.countedLines Text.lineCount
  by_cases hfeed : (Span.texts spans).getLast? = some '\n'
  · rw [if_pos (hends.2 hfeed), if_pos hfeed, hlength, Nat.add_sub_cancel]
  · rw [if_neg (mt hends.1 hfeed), if_neg hfeed, hlength]

namespace Style

open Html

variable {style : Style} (hclass : IsClassName style.classPrefix)

/-! ## The markup of a line -/

/-- The markup of a line inside its mark, if it has one. -/
def lineInner (style : Style) (options : LineOptions) (number : Nat) (pieces : List Span) : Text :=
  (if options.numbered then
    openTag (style.classPrefix ++ "lineno".toList) ++ Text.ofNat number ++ closeTag
  else []) ++ style.spans pieces

theorem line_eq (style : Style) (options : LineOptions) (number : Nat) (pieces : List Span) :
    style.line options number pieces =
      if (number : Int) ∈ options.marked then
        openTag (style.classPrefix ++ "hll".toList) ++ style.lineInner options number pieces ++
          closeTag
      else style.lineInner options number pieces := by
  unfold line lineInner
  dsimp only
  split
  · simp only [List.append_assoc]
  · rfl

theorem isClassName_label (category : Category) : IsClassName category.label := by
  cases category <;> decide

theorem isClassName_lineno : IsClassName "lineno".toList := by decide

theorem isClassName_hll : IsClassName "hll".toList := by decide

theorem label_ne_hll (category : Category) : category.label ≠ "hll".toList := by
  cases category <;> decide

theorem not_mem_of_mem_ofNat {n : Nat} {c : Char} (hc : c ∈ Text.ofNat n) :
    c ∉ ['<', '>', '&', '\n'] := by
  have hdigit : c.isDigit = true := Nat.isDigit_of_mem_toDigits (by decide) (by decide) hc
  have hnone : (['<', '>', '&', '\n'].all fun d => !d.isDigit) = true := by decide
  intro hmem
  have hother := List.all_eq_true.1 hnone c hmem
  rw [hdigit] at hother
  contradiction

section Lines

variable {pieces : List Span} (hpieces : ∀ piece ∈ pieces, '\n' ∉ piece.text)
variable (options : LineOptions) (number : Nat)

include hclass

theorem wellNested_span {s : Span} (hs : '\n' ∉ s.text) : WellNested (style.span s) := by
  unfold span
  split
  · exact .escape hs
  · exact WellNested.wrap (.escape hs) (hclass.append (isClassName_label s.category))

/-- The tags of a span are those of its category. -/
theorem tag_not_mem_span {label : Text} (hlabel : ∀ category : Category, category.label ≠ label)
    {s : Span} (hs : '\n' ∉ s.text) :
    .tag (spanTag (style.classPrefix ++ label)) ∉ lexemesFrom none (style.span s) := by
  have hchars : .tag (spanTag (style.classPrefix ++ label)) ∉ lexemesFrom none (escape s.text) := by
    rw [lexemesFrom_escape]
    simp
  unfold span
  split
  · exact hchars
  · rw [WellNested.lexemesFrom_wrap (.escape hs) (hclass.append (isClassName_label s.category)),
      List.mem_cons, List.mem_append, List.mem_singleton]
    rintro (hopen | hinner | hclose)
    · have hsame := spanTag_injective (Lexeme.tag.inj hopen)
      exact hlabel s.category (List.append_cancel_left hsame).symm
    · exact hchars hinner
    · exact spanTag_ne_closing _ (Lexeme.tag.inj hclose)

theorem wellNested_number :
    WellNested (openTag (style.classPrefix ++ "lineno".toList) ++ Text.ofNat number ++ closeTag) :=
  WellNested.wrap (.text fun _ => not_mem_of_mem_ofNat) (hclass.append isClassName_lineno)

theorem lexemesFrom_lineInner :
    lexemesFrom none (style.lineInner options number pieces) =
      (if options.numbered then
        .tag (spanTag (style.classPrefix ++ "lineno".toList)) ::
          ((Text.ofNat number).map .char ++ [.tag "/span".toList])
      else []) ++ lexemesFrom none (style.spans pieces) := by
  have hdigits : lexemesFrom none (Text.ofNat number) = (Text.ofNat number).map .char := by
    have h := lexemesFrom_text
      (fun hmem : '<' ∈ Text.ofNat number => not_mem_of_mem_ofNat hmem (by decide)) []
    rwa [List.append_nil, lexemesFrom, List.append_nil] at h
  unfold lineInner
  split
  · rw [(wellNested_number hclass number).lexemesFrom_append, ← hdigits,
      WellNested.lexemesFrom_wrap (.text fun _ => not_mem_of_mem_ofNat)
        (hclass.append isClassName_lineno)]
  · rfl

include hpieces

theorem wellNested_spans : WellNested (style.spans pieces) :=
  .flatMap pieces fun piece hpiece => wellNested_span hclass (hpieces piece hpiece)

theorem tag_not_mem_spans {label : Text} (hlabel : ∀ category : Category, category.label ≠ label) :
    .tag (spanTag (style.classPrefix ++ label)) ∉ lexemesFrom none (style.spans pieces) := by
  unfold spans
  rw [WellNested.lexemesFrom_flatMap pieces
    fun piece hpiece => wellNested_span hclass (hpieces piece hpiece)]
  intro hmem
  obtain ⟨piece, hpiece, htag⟩ := List.mem_flatMap.1 hmem
  exact tag_not_mem_span hclass hlabel (hpieces piece hpiece) htag

theorem wellNested_lineInner : WellNested (style.lineInner options number pieces) := by
  unfold lineInner
  refine .append ?_ (wellNested_spans hclass hpieces)
  split
  · exact wellNested_number hclass number
  · exact .nil

/-- Every line is closed in itself, whatever is asked of it. -/
theorem wellNested_line : WellNested (style.line options number pieces) := by
  have hinner := wellNested_lineInner hclass hpieces options number
  rw [line_eq]
  split
  · exact hinner.wrap (hclass.append isClassName_hll)
  · exact hinner

/-- A line carries its number, and nothing else that looks like one, if numbers are asked for. -/
theorem lineNumbers_line :
    lineNumbers style.classPrefix (style.line options number pieces) =
      if options.numbered then [some (Text.ofNat number)] else [] := by
  have hspans := tag_not_mem_spans hclass hpieces label_ne_lineno
  have hclosing := spanTag_ne_closing (style.classPrefix ++ "lineno".toList)
  have hinner : ∀ rest, .tag (spanTag (style.classPrefix ++ "lineno".toList)) ∉ rest →
      elementTexts (spanTag (style.classPrefix ++ "lineno".toList)) "/span".toList
        (lexemesFrom none (style.lineInner options number pieces) ++ rest) =
          if options.numbered then [some (Text.ofNat number)] else [] := by
    intro rest hrest
    have hbehind : .tag (spanTag (style.classPrefix ++ "lineno".toList)) ∉
        lexemesFrom none (style.spans pieces) ++ rest := by
      rw [List.mem_append, not_or]
      exact ⟨hspans, hrest⟩
    rw [lexemesFrom_lineInner hclass, List.append_assoc]
    split
    · rw [List.cons_append, List.append_assoc, List.singleton_append]
      exact elementTexts_singleton hclosing hbehind
    · exact elementTexts_eq_nil hbehind
  unfold lineNumbers
  rw [line_eq]
  split
  · rw [(wellNested_lineInner hclass hpieces options number).lexemesFrom_wrap
      (hclass.append isClassName_hll), elementTexts_cons_of_ne, hinner]
    · rw [List.mem_singleton]
      exact fun h => hclosing (Lexeme.tag.inj h)
    · intro h
      have hsame := List.append_cancel_left (spanTag_injective (Lexeme.tag.inj h))
      exact absurd hsame (by decide)
  · rw [← List.append_nil (lexemesFrom none (style.lineInner options number pieces))]
    exact hinner [] List.not_mem_nil

/-- A line is marked as a whole exactly if that is asked for. -/
theorem wrapped_line_iff :
    Wrapped (style.classPrefix ++ "hll".toList) (style.line options number pieces) ↔
      (number : Int) ∈ options.marked := by
  have hinner := wellNested_lineInner hclass hpieces options number
  rw [line_eq]
  constructor
  · rintro ⟨inner, hnested, hline⟩
    by_contra hunmarked
    rw [if_neg hunmarked] at hline
    -- The tag of the mark would be among those of the number and of the pieces.
    have hmem : .tag (spanTag (style.classPrefix ++ "hll".toList)) ∈
        lexemesFrom none (style.lineInner options number pieces) := by
      rw [hline, hnested.lexemesFrom_wrap (hclass.append isClassName_hll)]
      exact List.mem_cons_self
    rw [lexemesFrom_lineInner hclass, List.mem_append] at hmem
    rcases hmem with hmem | hmem
    · split at hmem
      · rw [List.mem_cons, List.mem_append, List.mem_singleton] at hmem
        rcases hmem with hopen | hdigit | hclose
        · have hsame := List.append_cancel_left (spanTag_injective (Lexeme.tag.inj hopen))
          exact absurd hsame (by decide)
        · simp at hdigit
        · exact spanTag_ne_closing _ (Lexeme.tag.inj hclose)
      · contradiction
    · exact tag_not_mem_spans hclass hpieces label_ne_hll hmem
  · intro hmarked
    rw [if_pos hmarked]
    exact ⟨_, hinner, rfl⟩

end Lines

/-! ## The markup of all lines -/

theorem getElem?_linesFrom (style : Style) (options : LineOptions) (last number : Nat)
    (lines : List (List Span)) (index : Nat) :
    (style.linesFrom options last number lines)[index]? = lines[index]?.map fun pieces =>
      if number + index ≤ last then style.line options (number + index) pieces else [] := by
  induction lines generalizing number index with
  | nil => rfl
  | cons pieces rest ih =>
      cases index with
      | zero => rfl
      | succ index =>
          rw [linesFrom, List.getElem?_cons_succ, List.getElem?_cons_succ, ih,
            show number + 1 + index = number + (index + 1) by omega]

theorem length_linesFrom (style : Style) (options : LineOptions) (last number : Nat)
    (lines : List (List Span)) :
    (style.linesFrom options last number lines).length = lines.length := by
  induction lines generalizing number with
  | nil => rfl
  | cons pieces rest ih => rw [linesFrom, List.length_cons, List.length_cons, ih]

/-- Only marks of lines that count matter. -/
theorem linesFrom_congr (style : Style) {options other : LineOptions} {last number : Nat}
    (hnumbered : options.numbered = other.numbered) (lines : List (List Span))
    (hmarked : ∀ n : Nat, number ≤ n → n ≤ last →
      ((n : Int) ∈ options.marked ↔ (n : Int) ∈ other.marked)) :
    style.linesFrom options last number lines = style.linesFrom other last number lines := by
  induction lines generalizing number with
  | nil => rfl
  | cons pieces rest ih =>
      rw [linesFrom, linesFrom, ih fun n hle => hmarked n (by omega)]
      by_cases hle : number ≤ last
      · rw [if_pos hle, if_pos hle, line_eq, line_eq, lineInner, lineInner, hnumbered]
        simp only [hmarked number (Nat.le_refl number) hle]
      · rw [if_neg hle, if_neg hle]

/-- The lines of a block read as the lines of the text of its spans. -/
theorem content_lines (hname : '>' ∉ style.classPrefix) (options : LineOptions)
    (spans : List Span) :
    (style.linesFrom options (countedLines (splitLines spans)) 1 (splitLines spans)).map
        (content style.classPrefix) = (Span.texts spans).splitOn '\n' := by
  have hcontent : ∀ {fragment t : Text}, Reads style.classPrefix fragment t →
      content style.classPrefix fragment = t := by
    intro fragment t hreads
    have h := hreads []
    rw [List.append_nil] at h
    exact h.trans (List.append_nil t)
  rw [← texts_splitLines, ← List.forall₂_eq_eq_eq, List.forall₂_map_left_iff]
  exact (reads_lines hname options (splitLines spans)).imp fun _ _ => hcontent

/-- A line of a block is the markup of some pieces without line feeds, or is left empty if it does
not count. -/
theorem exists_pieces (style : Style) (options : LineOptions) (spans : List Span) {index : Nat}
    {line : Text}
    (hline : (style.linesFrom options (Span.texts spans).lineCount 1 (splitLines spans))[index]? =
      some line) :
    ∃ pieces, (∀ piece ∈ pieces, '\n' ∉ piece.text) ∧ line =
      if index + 1 ≤ (Span.texts spans).lineCount then style.line options (index + 1) pieces
      else [] := by
  rw [getElem?_linesFrom, Option.map_eq_some_iff, Nat.add_comm] at hline
  obtain ⟨pieces, hmem, rfl⟩ := hline
  exact ⟨pieces, fun piece hpiece =>
    (text_of_mem_splitLines spans pieces (List.mem_of_getElem? hmem) piece hpiece).1, rfl⟩

/-- A line of a block is well-nested.  It carries its number and its mark exactly if it counts and
they are asked for. -/
theorem line_of_block {style : Style} (hclass : IsClassName style.classPrefix)
    (options : LineOptions) (spans : List Span) {index : Nat} {line : Text}
    (hline : (style.linesFrom options (Span.texts spans).lineCount 1 (splitLines spans))[index]? =
      some line) :
    WellNested line ∧
      lineNumbers style.classPrefix line =
        (if options.numbered ∧ index + 1 ≤ (Span.texts spans).lineCount then
          [some (Text.ofNat (index + 1))] else []) ∧
      (Wrapped (style.classPrefix ++ "hll".toList) line ↔
        index + 1 ≤ (Span.texts spans).lineCount ∧
          ((index + 1 : Nat) : Int) ∈ options.marked) := by
  obtain ⟨pieces, hpieces, rfl⟩ := style.exists_pieces options spans hline
  by_cases hle : index + 1 ≤ (Span.texts spans).lineCount
  · rw [if_pos hle, lineNumbers_line hclass hpieces, wrapped_line_iff hclass hpieces]
    simp only [hle, and_true, true_and]
    exact wellNested_line hclass hpieces options (index + 1)
  · rw [if_neg hle]
    simp only [hle, and_false, false_and, if_false, iff_false]
    exact ⟨.nil, rfl, not_wrapped_nil _⟩

/-- A block has the lines of the code, each of them well-nested markup of its own.  They carry the
numbers from one up to the number of lines that count, if numbers are asked for, and the marks that
are asked for among those; what else is to be marked makes no difference. -/
theorem block_lines (grammar : Grammar) (code : Text) (style : Style)
    (hclass : IsClassName style.classPrefix)
    (hcarries : grammar.CarriesText (.ofText code) 0 (Source.ofText code).length) :
    (∃ e, (grammar.classify (.ofText code)).result = .error e ∧
      grammar.FailsWith (.ofText code) 0 (Source.ofText code).length e) ∨
    ∃ spans, (grammar.classify (.ofText code)).result = .ok spans ∧
      ∀ language options, ∃ lines,
        style.block spans language options =
          .ok (openBlock language ++ ['\n'].intercalate lines ++ closeBlock) ∧
        lines.length = code.count '\n' + 1 ∧
        lines.map (content style.classPrefix) = code.splitOn '\n' ∧
        (∀ line ∈ lines, '\n' ∉ line ∧ WellNested line) ∧
        (∀ index line, lines[index]? = some line →
          lineNumbers style.classPrefix line =
            (if options.numbered ∧ index + 1 ≤ code.lineCount then [some (Text.ofNat (index + 1))]
            else []) ∧
          (Wrapped (style.classPrefix ++ "hll".toList) line ↔
            index + 1 ≤ code.lineCount ∧ ((index + 1 : Nat) : Int) ∈ options.marked)) ∧
        ∀ marked : List Int,
          (∀ n : Int, 1 ≤ n → n ≤ code.lineCount → (n ∈ marked ↔ n ∈ options.marked)) →
          style.block spans language ⟨marked, options.numbered⟩ =
            style.block spans language options := by
  rcases grammar.classify_failsWith_or_tiles (.ofText code) hcarries with
    hfails | ⟨spans, hresult, htiles⟩
  · exact .inl hfails
  obtain rfl : Span.texts spans = code := by
    rw [htiles.texts_eq (Int.le_refl 0), Source.slice_zero_length, Source.text_ofText]
  have hname : '>' ∉ style.classPrefix := fun hmem => hclass '>' hmem (by decide)
  refine .inr ⟨spans, hresult, fun language options => ?_⟩
  have hblock : ∀ options, style.block spans language options =
      .ok (openBlock language ++ ['\n'].intercalate
        (style.linesFrom options (Span.texts spans).lineCount 1 (splitLines spans)) ++
          closeBlock) := by
    intro options
    rw [style.block_eq htiles.overlap?_splitLines, body, countedLines_splitLines]
  refine ⟨style.linesFrom options (Span.texts spans).lineCount 1 (splitLines spans),
    hblock options, ?_, ?_, ?_, ?_, ?_⟩
  · rw [length_linesFrom, ← Text.length_splitOn, ← texts_splitLines, List.length_map]
  · rw [← countedLines_splitLines, content_lines hname]
  · intro line hmem
    obtain ⟨index, hline⟩ := List.mem_iff_getElem?.1 hmem
    obtain ⟨hnested, -⟩ := line_of_block hclass options spans hline
    exact ⟨hnested.newline_not_mem, hnested⟩
  · exact fun index line hline => (line_of_block hclass options spans hline).2
  · intro marked hmarked
    have hsame : style.linesFrom ⟨marked, options.numbered⟩ (Span.texts spans).lineCount 1
        (splitLines spans) =
          style.linesFrom options (Span.texts spans).lineCount 1 (splitLines spans) := by
      refine style.linesFrom_congr ?_ _ ?_
      · rfl
      · exact fun n hpositive hle => hmarked n (by omega) (by omega)
    rw [hblock, hblock, hsame]

/-- A string with a hidden line feed is cut in two.  Of the three lines the last one does not count,
so only one mark is asked for, and that twice. -/
theorem block_lines_hidden_feed :
    let code : Text := "\"a\\\nb\" 1\n".toList
    let style : Style := ⟨"hl-".toList, true⟩
    let options : LineOptions := ⟨[2, 3, 2], true⟩
    IsClassName style.classPrefix ∧ code.lineCount = 2 ∧
    Grammar.protobuf.CarriesText (.ofText code) 0 (Source.ofText code).length ∧
    ∃ spans lines, (Grammar.protobuf.classify (.ofText code)).result = .ok spans ∧
      style.block spans none options =
        .ok (openBlock none ++ ['\n'].intercalate lines ++ closeBlock) ∧
      lines.length = 3 ∧ (∀ line ∈ lines, '\n' ∉ line ∧ WellNested line) ∧
      (∀ index line, lines[index]? = some line →
        lineNumbers style.classPrefix line =
          (if index + 1 ≤ 2 then [some (Text.ofNat (index + 1))] else []) ∧
        (Wrapped (style.classPrefix ++ "hll".toList) line ↔
          index + 1 ≤ 2 ∧ ((index + 1 : Nat) : Int) ∈ options.marked)) ∧
      style.block spans none ⟨[2], true⟩ = style.block spans none options := by
  intro code style options
  have hclass : IsClassName style.classPrefix := by decide
  have hlibrary : ∀ label claim, Rule.custom label claim ∉ Grammar.protobuf.rules :=
    Grammar.custom_not_mem_defaultRules
  have hcarries : Grammar.protobuf.CarriesText (.ofText code) 0 (Source.ofText code).length :=
    fun _ _ label claim hmem => absurd hmem (hlibrary label claim)
  have hcount : code.lineCount = 2 := by decide
  rcases block_lines Grammar.protobuf code style hclass hcarries with
    ⟨e, -, position, chain, -, -, label, claim, hmem, -⟩ | ⟨spans, hresult, hblocks⟩
  · exact absurd hmem (hlibrary label claim)
  · obtain ⟨lines, hblock, hlength, -, hnested, hindex, hmarks⟩ := hblocks none options
    rw [hcount] at hindex hmarks
    refine ⟨hclass, hcount, hcarries, spans, lines, hresult, hblock, hlength, hnested, ?_, ?_⟩
    · intro index line hline
      obtain ⟨hnumbers, hwrapped⟩ := hindex index line hline
      exact ⟨hnumbers.trans (if_congr (and_iff_right rfl) rfl rfl), hwrapped⟩
    · refine hmarks [2] fun n hpositive hle => ?_
      have hn : n ≠ 3 := by
        rintro rfl
        exact absurd hle (by decide)
      simp [options, hn]

end Style

end CodeHighlight
