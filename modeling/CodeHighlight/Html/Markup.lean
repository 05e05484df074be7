import CodeHighlight.Settings

/-!
# Markup

Spans become markup: each token an element whose class is its category, plain text bare unless it is
to be wrapped.  A fragment is the markup of some spans on their own; a block is a preformatted
element whose lines can be marked and numbered.  Spans that overlap or run backwards have no markup.
-/

namespace CodeHighlight

namespace Html

/-! ## Character entities

The five characters that mean something in markup are written as entities, in text and inside
quoted attribute values alike.
-/

/-- The written form of a character. -/
def escapeChar (c : Char) : Text :=
  if c = '&' then "&amp;".toList
  else if c = '<' then "&lt;".toList
  else if c = '>' then "&gt;".toList
  else if c = '"' then "&quot;".toList
  else if c = '\'' then "&#x27;".toList
  else [c]

/-- The written form of a text. -/
def escape (t : Text) : Text := t.flatMap escapeChar

theorem escape_append (s t : Text) : escape (s ++ t) = escape s ++ escape t :=
  List.flatMap_append

end Html

/-! ## Spans line by line

Spans are cut at line feeds, so that each piece lies on one line.  The line feeds themselves belong
to no piece.
-/

/-- The pieces of a span, where the first part of its text starts at the given offset and each later
one behind a line feed.  An empty part gives a line without a piece. -/
def Span.piecesFrom (category : Category) (offset : Int) : List Text → List (List Span)
  | [] => []
  | part :: rest =>
      let stop := offset + part.length
      (if part = [] then [] else [⟨category, part, offset, stop⟩]) ::
        piecesFrom category (stop + 1) rest

/-- The pieces of a span on each of the lines that it touches. -/
def Span.lines (span : Span) : List (List Span) :=
  piecesFrom span.category span.start (span.text.splitOn '\n')

/-- Puts lines behind lines, where the first of the later lines goes on with the last of the earlier
ones. -/
def joinLines : List (List Span) → List (List Span) → List (List Span)
  | [], later => later
  | [last], next :: later => (last ++ next) :: later
  | line :: rest, later => line :: joinLines rest later

/-- The pieces of some spans, line by line.  There is one more line than there are line feeds. -/
def splitLines : List Span → List (List Span)
  | [] => [[]]
  | span :: rest => joinLines span.lines (splitLines rest)

/-! ## Fragments and blocks -/

/-- What is asked of the lines of a block: some are marked, by numbers counted from one, and each
may show its number. -/
structure LineOptions where
  marked : List Int
  numbered : Bool

/-- Lines that are neither marked nor numbered. -/
def LineOptions.none : LineOptions := ⟨[], false⟩

namespace Html

/-- The opening tag of an element with a class. -/
def openTag (className : Text) : Text := "<span class=\"".toList ++ className ++ ['"', '>']

/-- The closing tag of such an element. -/
def closeTag : Text := "</span>".toList

/-- The first span that starts before the end of the span in front of it.  The first span of all is
measured against `previousStop`. -/
def firstOverlap? (previousStop : Int) : List Span → Option Error
  | [] => none
  | span :: rest =>
      if span.start < previousStop then some (.overlap span.start previousStop)
      else firstOverlap? span.stop rest

/-- The overlap that keeps spans from being written.  The first span may not start before -1. -/
def overlap? (spans : List Span) : Option Error := firstOverlap? (-1) spans

end Html

namespace Style

open Html

/-- The markup of one span. -/
def span (style : Style) (s : Span) : Text :=
  if s.category = .plain ∧ !style.wrapPlain then
    escape s.text
  else
    openTag (style.classPrefix ++ s.category.label) ++ escape s.text ++ closeTag

/-- The markup of spans, whether they overlap or not. -/
def spans (style : Style) (list : List Span) : Text := list.flatMap style.span

/-- The markup of spans as a fragment. -/
def fragment (style : Style) (list : List Span) : Except Error Text :=
  match overlap? list with
  | some e => .error e
  | none => .ok (style.spans list)

/-- The markup of a line with its number. -/
def line (style : Style) (options : LineOptions) (number : Nat) (pieces : List Span) : Text :=
  let numbered :=
    if options.numbered then
      openTag (style.classPrefix ++ "lineno".toList) ++ Text.ofNat number ++ closeTag
    else []
  if (number : Int) ∈ options.marked then
    openTag (style.classPrefix ++ "hll".toList) ++ numbered ++ style.spans pieces ++ closeTag
  else
    numbered ++ style.spans pieces

end Style

namespace Html

/-- The number of lines that count: a line without text behind the last line feed does not. -/
def countedLines (lines : List (List Span)) : Nat :=
  if 1 < lines.length ∧ lines.getLast? = some [] then lines.length - 1 else lines.length

/-- A line behind those that count has no pieces. -/
theorem eq_nil_of_countedLines_le {lines : List (List Span)} {index : Nat} {pieces : List Span}
    (hpieces : lines[index]? = some pieces) (hle : countedLines lines ≤ index) : pieces = [] := by
  obtain ⟨hindex, -⟩ := List.getElem?_eq_some_iff.1 hpieces
  rw [countedLines] at hle
  split at hle
  · next hhidden =>
      have hlast : index = lines.length - 1 := by omega
      rw [hlast, ← List.getLast?_eq_getElem?, hhidden.2] at hpieces
      exact (Option.some.inj hpieces).symm
  · omega

/-- The opening tags of a block, with the class of its language if it has one. -/
def openBlock : Option Text → Text
  | none => "<pre><code>".toList
  | some language =>
      if language = [] then "<pre><code>".toList
      else "<pre><code class=\"language-".toList ++ escape language ++ ['"', '>']

/-- The closing tags of a block. -/
def closeBlock : Text := "</code></pre>".toList

end Html

namespace Style

open Html

/-- The markup of lines that start with the given number, where lines beyond the last number are
left empty. -/
def linesFrom (style : Style) (options : LineOptions) (last number : Nat) :
    List (List Span) → List Text
  | [] => []
  | pieces :: rest =>
      (if number ≤ last then style.line options number pieces else []) ::
        linesFrom style options last (number + 1) rest

/-- The markup of all lines of a block, joined by line feeds. -/
def body (style : Style) (options : LineOptions) (lines : List (List Span)) : Text :=
  ['\n'].intercalate (style.linesFrom options (countedLines lines) 1 lines)

/-- The markup of spans as a block. -/
def block (style : Style) (list : List Span) (language : Option Text) (options : LineOptions) :
    Except Error Text :=
  let lines := splitLines list
  match lines.findSome? overlap? with
  | some e => .error e
  | none => .ok (openBlock language ++ style.body options lines ++ closeBlock)

end Style

end CodeHighlight
