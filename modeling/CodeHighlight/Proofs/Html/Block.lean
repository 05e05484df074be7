import CodeHighlight.Proofs.Html.Lines
import CodeHighlight.Proofs.Html.Reading

/-!
# Blocks read as their spans

Whatever the line options are, the block that spans are written as reads as the text of the spans.
Nothing depends on the classes beyond two facts: no class name ends a tag, and no class of a token
is the class of line numbers.
-/

namespace CodeHighlight

namespace Html

/-- Tags of other elements than spans contribute nothing. -/
theorem reads_tag (classPrefix inner : Text) (hinner : '>' ∉ inner)
    (hhead : inner.head? ≠ some 's') : Reads classPrefix ('<' :: (inner ++ ['>'])) [] := by
  refine .tag hinner ?_
  rintro rfl
  exact hhead rfl

variable {classPrefix : Text}

theorem reads_closeTag : Reads classPrefix closeTag [] := by
  have htag : closeTag = '<' :: ("/span".toList ++ ['>']) := by decide
  rw [htag]
  exact reads_tag classPrefix "/span".toList (by decide) (by decide)

/-- The opening tag of a class contributes nothing, unless it is the class of line numbers. -/
theorem reads_openTag {label : Text} (hclass : '>' ∉ classPrefix) (hlabel : '>' ∉ label)
    (hother : label ≠ "lineno".toList) : Reads classPrefix (openTag (classPrefix ++ label)) [] := by
  have hname : '>' ∉ classPrefix ++ label := by
    intro h
    rcases List.mem_append.1 h with h | h
    · exact hclass h
    · exact hlabel h
  rw [openTag_eq]
  refine .tag (not_mem_spanTag hname) ?_
  intro h
  have hnames := List.append_cancel_left (List.append_cancel_right h)
  exact hother (List.append_cancel_left hnames)

theorem reads_number (hclass : '>' ∉ classPrefix) (n : Nat) :
    Reads classPrefix
      (openTag (classPrefix ++ "lineno".toList) ++ Text.ofNat n ++ closeTag) [] := by
  have hdigits : '<' ∉ Text.ofNat n := by
    intro h
    have hdigit := Nat.isDigit_of_mem_toDigits (by decide) (by decide) h
    exact absurd hdigit (by decide)
  have hname : '>' ∉ classPrefix ++ "lineno".toList := by
    have hlabel : '>' ∉ "lineno".toList := by decide
    intro h
    rcases List.mem_append.1 h with h | h
    · exact hclass h
    · exact hlabel h
  rw [openTag_eq]
  exact .number hdigits (not_mem_spanTag hname)

/-- The opening tags of a block contribute nothing, whatever the language is called. -/
theorem reads_openBlock (language : Option Text) : Reads classPrefix (openBlock language) [] := by
  have hpre := reads_tag classPrefix "pre".toList (by decide) (by decide)
  have hbare : Reads classPrefix "<pre><code>".toList [] := by
    have htags : "<pre><code>".toList =
        '<' :: ("pre".toList ++ ['>']) ++ '<' :: ("code".toList ++ ['>']) := by decide
    rw [htags]
    exact hpre.append (reads_tag classPrefix "code".toList (by decide) (by decide))
  cases language with
  | none => exact hbare
  | some language =>
      unfold openBlock
      dsimp only
      by_cases hempty : language = []
      · rw [if_pos hempty]
        exact hbare
      · rw [if_neg hempty]
        let inner := "code class=\"language-".toList ++ escape language ++ ['"']
        have hinner : '>' ∉ inner := by
          have hopen : '>' ∉ "code class=\"language-".toList := by decide
          intro h
          rcases List.mem_append.1 h with h | h
          · rcases List.mem_append.1 h with h | h
            · exact hopen h
            · exact not_mem_escape (by decide) language h
          · exact absurd h (by decide)
        have hhead : inner.head? = some 'c' := rfl
        have hassoc : ∀ opening : Text,
            '<' :: ("pre".toList ++ ['>']) ++ '<' :: opening ++ escape language ++ ['"', '>'] =
              '<' :: ("pre".toList ++ ['>']) ++
                '<' :: (opening ++ escape language ++ ['"'] ++ ['>']) := by simp
        have htags : "<pre><code class=\"language-".toList =
            '<' :: ("pre".toList ++ ['>']) ++ '<' :: "code class=\"language-".toList := by decide
        have hsame := (congrArg (· ++ escape language ++ ['"', '>']) htags).trans (hassoc _)
        have hcode := reads_tag classPrefix inner hinner (by rw [hhead]; decide)
        exact hsame ▸ hpre.append hcode

theorem reads_closeBlock : Reads classPrefix closeBlock [] := by
  have htags : closeBlock =
      '<' :: ("/code".toList ++ ['>']) ++ '<' :: ("/pre".toList ++ ['>']) := by decide
  rw [htags]
  exact (reads_tag classPrefix "/code".toList (by decide) (by decide)).append
    (reads_tag classPrefix "/pre".toList (by decide) (by decide))

end Html

namespace Style

open Html

variable {style : Style}

theorem label_ne_lineno (category : Category) : category.label ≠ "lineno".toList := by
  cases category <;> decide

theorem not_mem_label (category : Category) : '>' ∉ category.label := by
  cases category <;> decide

/-- A span is read back as its text, with or without an element around it. -/
theorem reads_span (hclass : '>' ∉ style.classPrefix) (s : Span) :
    Reads style.classPrefix (style.span s) s.text := by
  unfold Style.span
  split
  · exact .escape s.text
  · have hopen := reads_openTag hclass (not_mem_label s.category) (label_ne_lineno s.category)
    have h := (hopen.append (.escape s.text)).append reads_closeTag
    rwa [List.nil_append, List.append_nil] at h

theorem reads_spans (hclass : '>' ∉ style.classPrefix) (list : List Span) :
    Reads style.classPrefix (style.spans list) (Span.texts list) := by
  have h := Reads.flatMap list fun s _ => reads_span hclass s
  rw [List.flatMap_def] at h
  exact h

/-- The mark and the number of a line contribute nothing. -/
theorem reads_line (hclass : '>' ∉ style.classPrefix) (options : LineOptions) (number : Nat)
    (pieces : List Span) :
    Reads style.classPrefix (style.line options number pieces) (Span.texts pieces) := by
  have hnumber : Reads style.classPrefix (if options.numbered = true then
      openTag (style.classPrefix ++ "lineno".toList) ++ Text.ofNat number ++ closeTag
    else []) [] := by
    split
    · exact reads_number hclass number
    · exact .nil
  have hpieces := hnumber.append (reads_spans hclass pieces)
  unfold Style.line
  dsimp only
  split
  · have hmark : Reads style.classPrefix (openTag (style.classPrefix ++ "hll".toList)) [] :=
      reads_openTag hclass (by decide) (by decide)
    have h := ((hmark.append hnumber).append (reads_spans hclass pieces)).append reads_closeTag
    rwa [List.nil_append, List.nil_append, List.append_nil] at h
  · exact hpieces

/-- The lines of a block read as the texts of their pieces.  A line that is left out has none. -/
theorem reads_linesFrom (hclass : '>' ∉ style.classPrefix) (options : LineOptions)
    {last number : Nat} (lines : List (List Span))
    (hlast : number + lines.length ≤ last + 1 ∨
      number + lines.length = last + 2 ∧ lines.getLast? = some []) :
    List.Forall₂ (Reads style.classPrefix) (style.linesFrom options last number lines)
      (lines.map Span.texts) := by
  induction lines generalizing number with
  | nil => exact .nil
  | cons pieces rest ih =>
      rw [List.length_cons] at hlast
      refine .cons ?_ ?_
      · by_cases hle : number ≤ last
        · rw [if_pos hle]
          exact reads_line hclass options number pieces
        · -- Only the last line can be left out.
          obtain ⟨hlength, hempty⟩ : number + (rest.length + 1) = last + 2 ∧
              (pieces :: rest).getLast? = some [] := by
            rcases hlast with h | h
            · omega
            · exact h
          obtain rfl : rest = [] := List.eq_nil_of_length_eq_zero (by omega)
          obtain rfl := Option.some.inj hempty
          rw [if_neg hle]
          exact .nil
      · cases rest with
        | nil => exact .nil
        | cons second rest =>
            refine ih ?_
            rcases hlast with h | ⟨hlength, hempty⟩
            · exact .inl (by omega)
            · rw [List.getLast?_cons_cons] at hempty
              exact .inr ⟨by omega, hempty⟩

/-- The lines that do not count have no text. -/
theorem reads_lines (hclass : '>' ∉ style.classPrefix) (options : LineOptions)
    (lines : List (List Span)) :
    List.Forall₂ (Reads style.classPrefix) (style.linesFrom options (countedLines lines) 1 lines)
      (lines.map Span.texts) := by
  refine reads_linesFrom hclass options lines ?_
  unfold countedLines
  by_cases hhidden : 1 < lines.length ∧ lines.getLast? = some []
  · rw [if_pos hhidden]
    exact .inr ⟨by omega, hhidden.2⟩
  · rw [if_neg hhidden]
    exact .inl (by omega)

/-- Spans without overlaps have a block. -/
theorem block_eq (style : Style) {list : List Span}
    (hlines : ∀ line ∈ splitLines list, overlap? line = none) (language : Option Text)
    (options : LineOptions) :
    style.block list language options =
      .ok (openBlock language ++ style.body options (splitLines list) ++ closeBlock) := by
  have hnone : (splitLines list).findSome? overlap? = none := List.findSome?_eq_none_iff.2 hlines
  unfold block
  dsimp only
  rw [hnone]

/-- Spans without overlaps have a block, and it reads as their text. -/
theorem exists_block (hclass : '>' ∉ style.classPrefix) {list : List Span}
    (hlines : ∀ line ∈ splitLines list, overlap? line = none) (language : Option Text)
    (options : LineOptions) :
    ∃ html, style.block list language options = .ok html ∧
      Reads style.classPrefix html (Span.texts list) := by
  refine ⟨_, style.block_eq hlines language options, ?_⟩
  have hbody := Reads.intercalate (reads_lines hclass options (splitLines list))
  have h := ((reads_openBlock language).append hbody).append reads_closeBlock
  rwa [List.nil_append, List.append_nil, intercalate_splitLines] at h

end Style

end CodeHighlight
