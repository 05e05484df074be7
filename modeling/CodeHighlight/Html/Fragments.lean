import CodeHighlight.Html.Markup

/-!
# Writing through fragments

Markup is put together from many small fragments, which are joined once at the end.  A writer adds
its fragments behind those that are there already, and stops at the first span that overlaps the one
in front of it; what it has added by then is lost.

Each writer adds the markup that `Html.Markup` gives in one piece (`Writes`), so what is joined at
the end is the fragment (`Style.writeFragment_eq_fragment`) or the block
(`Style.writeBlock_eq_block`).
-/

namespace CodeHighlight

/-- A text in the making, as its fragments in reverse order.  No fragment is empty. -/
structure Fragments where
  parts : List Text

namespace Fragments

/-- No fragments. -/
def empty : Fragments := ⟨[]⟩

/-- Adds a fragment at the end; an empty one is left out. -/
def push (fragments : Fragments) (part : Text) : Fragments :=
  if part = [] then fragments else ⟨part :: fragments.parts⟩

/-- The text that the fragments make up. -/
def text (fragments : Fragments) : Text := fragments.parts.reverse.flatten

/-- There are no fragments. -/
def isEmpty (fragments : Fragments) : Bool := fragments.parts.isEmpty

@[simp] theorem text_empty : empty.text = [] := rfl

@[simp] theorem text_push (fragments : Fragments) (part : Text) :
    (fragments.push part).text = fragments.text ++ part := by
  unfold push
  split
  · next h => simp [h]
  · simp [text]

end Fragments

namespace Style

open Html

variable (style : Style)

/-! ## The writers -/

/-- Adds the markup of a span. -/
def writeSpan (s : Span) (fragments : Fragments) : Fragments :=
  if s.category = .plain ∧ !style.wrapPlain then
    fragments.push (escape s.text)
  else
    ((fragments.push (openTag (style.classPrefix ++ s.category.label))).push
      (escape s.text)).push closeTag

/-- Adds the markup of spans one after the other, each measured against the end of the one in front
of it. -/
def writeFrom (previousStop : Int) : List Span → Fragments → Except Error Fragments
  | [], fragments => .ok fragments
  | s :: rest, fragments =>
      if s.start < previousStop then .error (.overlap s.start previousStop)
      else writeFrom s.stop rest (style.writeSpan s fragments)

/-- Adds the markup of spans. -/
def write (list : List Span) (fragments : Fragments) : Except Error Fragments :=
  style.writeFrom (-1) list fragments

/-- Writes spans as a fragment. -/
def writeFragment (list : List Span) : Except Error Text := do
  return (← style.write list .empty).text

/-- Adds the markup of a line with its number. -/
def writeLine (options : LineOptions) (number : Nat) (pieces : List Span) (fragments : Fragments) :
    Except Error Fragments := do
  let marked := decide ((number : Int) ∈ options.marked)
  let opened :=
    if marked then fragments.push (openTag (style.classPrefix ++ "hll".toList)) else fragments
  let numbered :=
    if options.numbered then
      opened.push (openTag (style.classPrefix ++ "lineno".toList) ++ Text.ofNat number ++ closeTag)
    else opened
  let written ← style.write pieces numbered
  return if marked then written.push closeTag else written

/-- Adds the markup of a line, unless its number lies beyond the last one. -/
def writeCounted (options : LineOptions) (last number : Nat) (pieces : List Span)
    (fragments : Fragments) : Except Error Fragments :=
  if number ≤ last then style.writeLine options number pieces fragments else .ok fragments

/-- Adds lines that start with the given number, each but the first behind a line feed. -/
def writeLines (options : LineOptions) (last number : Nat) :
    List (List Span) → Fragments → Except Error Fragments
  | [], fragments => .ok fragments
  | pieces :: rest, fragments => do
      let separated := if number = 1 then fragments else fragments.push ['\n']
      let written ← style.writeCounted options last number pieces separated
      writeLines options last (number + 1) rest written

/-- Writes spans as a block. -/
def writeBlock (list : List Span) (language : Option Text) (options : LineOptions) :
    Except Error Text := do
  let lines := splitLines list
  let opened := Fragments.empty.push (openBlock language)
  let written ← style.writeLines options (countedLines lines) 1 lines opened
  return (written.push closeBlock).text

/-! ## What they write -/

/-- The outcome of a writer is a text in the making, unless there is an overlap. -/
def Writes (outcome : Except Error Fragments) (overlap : Option Error) (t : Text) : Prop :=
  outcome.map Fragments.text = match overlap with
    | some e => .error e
    | none => .ok t

variable {style}

theorem Writes.of_text {fragments : Fragments} {t : Text} (h : fragments.text = t) :
    Writes (.ok fragments) none t :=
  congrArg Except.ok h

/-- The first overlap that one of two writers meets ends both. -/
theorem Writes.bind {outcome : Except Error Fragments} {next : Fragments → Except Error Fragments}
    {overlap later : Option Error} {t u : Text} (h : Writes outcome overlap t)
    (hnext : ∀ fragments, fragments.text = t → Writes (next fragments) later u) :
    Writes (outcome >>= next) (overlap.or later) u := by
  cases outcome with
  | error e =>
      cases overlap with
      | none => cases h
      | some e' =>
          cases h
          rfl
  | ok fragments =>
      cases overlap with
      | none => exact hnext fragments (Except.ok.inj h)
      | some e => cases h

theorem Writes.push {outcome : Except Error Fragments} {overlap : Option Error} {t : Text}
    (h : Writes outcome overlap t) (part : Text) :
    Writes (do return (← outcome).push part) overlap (t ++ part) := by
  rw [← Option.or_none (o := overlap)]
  exact h.bind fun written hwritten => .of_text (by rw [Fragments.text_push, hwritten])

variable (style)

theorem text_writeSpan (s : Span) (fragments : Fragments) :
    (style.writeSpan s fragments).text = fragments.text ++ style.span s := by
  unfold writeSpan span
  split
  · simp
  · simp

theorem writes_writeFrom (previousStop : Int) (list : List Span) (fragments : Fragments) :
    Writes (style.writeFrom previousStop list fragments) (firstOverlap? previousStop list)
      (fragments.text ++ style.spans list) := by
  induction list generalizing previousStop fragments with
  | nil => exact .of_text (by simp [spans])
  | cons s rest ih =>
      rw [writeFrom, firstOverlap?]
      split
      · rfl
      · have hrest := ih s.stop (style.writeSpan s fragments)
        rw [text_writeSpan, List.append_assoc] at hrest
        exact hrest

theorem writes_writeLine (options : LineOptions) (number : Nat) (pieces : List Span)
    (fragments : Fragments) :
    Writes (style.writeLine options number pieces fragments) (overlap? pieces)
      (fragments.text ++ style.line options number pieces) := by
  rw [← Option.or_none (o := overlap? pieces)]
  refine (style.writes_writeFrom (-1) pieces _).bind fun written hwritten => .of_text ?_
  by_cases hmarked : (number : Int) ∈ options.marked
  · cases hnumbered : options.numbered with
    | true => simp [hwritten, hmarked, hnumbered, line]
    | false => simp [hwritten, hmarked, hnumbered, line]
  · cases hnumbered : options.numbered with
    | true => simp [hwritten, hmarked, hnumbered, line]
    | false => simp [hwritten, hmarked, hnumbered, line]

theorem findSome?_overlap?_cons (pieces : List Span) (rest : List (List Span)) :
    (pieces :: rest).findSome? overlap? = (overlap? pieces).or (rest.findSome? overlap?) := by
  rw [List.findSome?_cons]
  cases overlap? pieces with
  | none => rfl
  | some e => rfl

/-- A line beyond the last number has no pieces, so nothing is lost when it is left out. -/
theorem writes_counted (options : LineOptions) {last number : Nat} {pieces : List Span}
    (hlast : last < number → pieces = []) (fragments : Fragments) :
    Writes (style.writeCounted options last number pieces fragments) (overlap? pieces)
      (fragments.text ++ if number ≤ last then style.line options number pieces else []) := by
  rw [writeCounted]
  split
  · exact style.writes_writeLine options number pieces fragments
  · next hbeyond =>
      rw [hlast (by omega)]
      exact .of_text (List.append_nil _).symm

/-- The lines behind the first, each with its line feed. -/
theorem writes_later (options : LineOptions) {last number : Nat} (hnumber : 1 < number)
    {lines : List (List Span)}
    (hlast : ∀ index pieces, lines[index]? = some pieces → last < number + index → pieces = [])
    (fragments : Fragments) :
    Writes (style.writeLines options last number lines fragments) (lines.findSome? overlap?)
      (fragments.text ++ (style.linesFrom options last number lines).flatMap ('\n' :: ·)) := by
  induction lines generalizing number fragments with
  | nil => exact .of_text (by simp [linesFrom])
  | cons pieces rest ih =>
      rw [writeLines, if_neg (Nat.ne_of_gt hnumber), findSome?_overlap?_cons]
      refine (style.writes_counted options (hlast 0 pieces rfl) _).bind fun written hwritten => ?_
      have hrest := ih (Nat.lt_succ_of_lt hnumber)
        (fun index later hlater hbeyond => hlast (index + 1) later hlater (by omega)) written
      rw [hwritten] at hrest
      simpa [linesFrom] using hrest

theorem intercalate_cons_flatMap (t : Text) (rest : List Text) :
    ['\n'].intercalate (t :: rest) = t ++ rest.flatMap ('\n' :: ·) := by
  induction rest generalizing t with
  | nil => simp
  | cons second rest ih =>
      rw [List.intercalate_cons_cons, ih]
      simp

theorem writes_body (options : LineOptions) (lines : List (List Span)) (fragments : Fragments) :
    Writes (style.writeLines options (countedLines lines) 1 lines fragments)
      (lines.findSome? overlap?) (fragments.text ++ style.body options lines) := by
  have hlast : ∀ index pieces, lines[index]? = some pieces → countedLines lines < 1 + index →
      pieces = [] :=
    fun index pieces hpieces hbeyond => eq_nil_of_countedLines_le hpieces (by omega)
  rw [body]
  generalize countedLines lines = last at hlast
  cases lines with
  | nil => exact .of_text (List.append_nil _).symm
  | cons pieces rest =>
      rw [writeLines, if_pos rfl, findSome?_overlap?_cons, linesFrom, intercalate_cons_flatMap,
        ← List.append_assoc]
      refine (style.writes_counted options (hlast 0 pieces rfl) fragments).bind
        fun written hwritten => ?_
      rw [← hwritten]
      exact style.writes_later options (by omega)
        (fun index later hlater hbeyond => hlast (index + 1) later hlater (by omega)) written

/-- What is written as a fragment is the fragment. -/
theorem writeFragment_eq_fragment (list : List Span) :
    style.writeFragment list = style.fragment list := by
  have hwrites := style.writes_writeFrom (-1) list .empty
  rw [writeFragment, fragment, write, overlap?]
  exact hwrites

/-- What is written as a block is the block. -/
theorem writeBlock_eq_block (list : List Span) (language : Option Text) (options : LineOptions) :
    style.writeBlock list language options = style.block list language options := by
  have hclosed := (style.writes_body options (splitLines list)
    (Fragments.empty.push (openBlock language))).push closeBlock
  rw [Fragments.text_push, Fragments.text_empty, List.nil_append] at hclosed
  rw [block, writeBlock]
  refine Eq.trans ?_ hclosed
  generalize style.writeLines options _ 1 _ _ = outcome
  cases outcome with
  | error e => rfl
  | ok written => rfl

end Style

end CodeHighlight
