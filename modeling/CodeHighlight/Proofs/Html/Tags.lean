import CodeHighlight.Proofs.Html.Block

/-!
# The tags that a reader of the markup finds

A reader of markup takes everything between two double quotes in a tag for one value, angle brackets
included, and replaces the entities in it (`readTags`).  Which tags spans, lines and blocks are
meant to have is said by `Style.spansTags`, `Style.lineTags` and `Style.blockTags`.

The text of spans and the name of a language are escaped, so whatever they are, they neither bring a
tag of their own nor change one.  The prefix of the class names is written as it is.  It is read
back if it is legible, that is if it holds no double quote and no entity; otherwise the first tag
that it stands in is read as another one (`Style.tags_as_meant_iff`).
-/

namespace CodeHighlight.Html

/-! ## A reader of tags -/

/-- A tag as it is read: what stands outside of quotes, and the values between quotes. -/
structure Tag where
  bare : Text
  values : List Text
  deriving DecidableEq

/-- Where in the markup a reader is, with what it has read of a tag. -/
inductive Place where
  | text
  | tag (bare : Text) (values : List Text)
  | value (bare : Text) (values : List Text) (value : Text)

/-- The tags that are read from a place on.  The end of the markup ends a tag that is open. -/
def readFrom : Place → Text → List Tag
  | .text, [] => []
  | .tag bare values, [] => [⟨bare, values⟩]
  | .value bare values value, [] => [⟨bare, values ++ [unescape value]⟩]
  | .text, c :: rest => if c = '<' then readFrom (.tag [] []) rest else readFrom .text rest
  | .tag bare values, c :: rest =>
      if c = '>' then ⟨bare, values⟩ :: readFrom .text rest
      else if c = '"' then readFrom (.value bare values []) rest
      else readFrom (.tag (bare ++ [c]) values) rest
  | .value bare values value, c :: rest =>
      if c = '"' then readFrom (.tag bare (values ++ [unescape value])) rest
      else readFrom (.value bare values (value ++ [c])) rest

/-- The tags of markup. -/
def readTags (markup : Text) : List Tag := readFrom .text markup

theorem readFrom_text {t : Text} (ht : '<' ∉ t) (rest : Text) :
    readFrom .text (t ++ rest) = readFrom .text rest := by
  induction t with
  | nil => rfl
  | cons c t ih =>
      rw [List.mem_cons, not_or] at ht
      rw [List.cons_append, readFrom, if_neg (Ne.symm ht.1), ih ht.2]

theorem readFrom_bare {t : Text} (hquote : '"' ∉ t) (hclose : '>' ∉ t) (bare : Text)
    (values : List Text) (rest : Text) :
    readFrom (.tag bare values) (t ++ rest) = readFrom (.tag (bare ++ t) values) rest := by
  induction t generalizing bare with
  | nil => rw [List.nil_append, List.append_nil]
  | cons c t ih =>
      rw [List.mem_cons, not_or] at hquote hclose
      rw [List.cons_append, readFrom, if_neg (Ne.symm hclose.1), if_neg (Ne.symm hquote.1),
        ih hquote.2 hclose.2, List.append_assoc, List.singleton_append]

/-- A value goes up to the next double quote. -/
theorem readFrom_value {t : Text} (hquote : '"' ∉ t) (bare : Text) (values : List Text)
    (value rest : Text) :
    readFrom (.value bare values value) (t ++ '"' :: rest) =
      readFrom (.tag bare (values ++ [unescape (value ++ t)])) rest := by
  induction t generalizing value with
  | nil => rw [List.nil_append, readFrom, if_pos rfl, List.append_nil]
  | cons c t ih =>
      rw [List.mem_cons, not_or] at hquote
      rw [List.cons_append, readFrom, if_neg (Ne.symm hquote.1), ih hquote.2, List.append_assoc,
        List.singleton_append]

/-- Whatever follows, a tag keeps the values that have been read of it. -/
theorem exists_tag_of_open (markup bare : Text) (values : List Text) :
    (∃ tag later, readFrom (.tag bare values) markup = tag :: later ∧ values <+: tag.values) ∧
      ∀ value, ∃ tag later,
        readFrom (.value bare values value) markup = tag :: later ∧ values <+: tag.values := by
  induction markup generalizing bare values with
  | nil =>
      exact ⟨⟨_, [], rfl, List.prefix_refl _⟩, fun _ => ⟨_, [], rfl, List.prefix_append _ _⟩⟩
  | cons c rest ih =>
      constructor
      · rw [readFrom]
        by_cases hclose : c = '>'
        · rw [if_pos hclose]
          exact ⟨_, _, rfl, List.prefix_refl _⟩
        · rw [if_neg hclose]
          by_cases hquote : c = '"'
          · rw [if_pos hquote]
            exact (ih bare values).2 []
          · rw [if_neg hquote]
            exact (ih (bare ++ [c]) values).1
      · intro value
        rw [readFrom]
        by_cases hquote : c = '"'
        · rw [if_pos hquote]
          obtain ⟨tag, later, hread, hvalues⟩ := (ih bare (values ++ [unescape value])).1
          exact ⟨tag, later, hread, (List.prefix_append _ _).trans hvalues⟩
        · rw [if_neg hquote]
          exact (ih bare values).2 (value ++ [c])

/-! ## Entities in values -/

theorem unescape_append_of_not_mem {t : Text} (h : '&' ∉ t) (rest : Text) :
    unescape (t ++ rest) = t ++ unescape rest := by
  induction t with
  | nil => rfl
  | cons c t ih =>
      rw [List.mem_cons, not_or] at h
      rw [List.cons_append, unescape_cons (Ne.symm h.1), ih h.2, List.cons_append]

theorem unescape_of_not_mem {t : Text} (h : '&' ∉ t) : unescape t = t := by
  have hread := unescape_append_of_not_mem h []
  rwa [List.append_nil, unescape, List.append_nil] at hread

/-- What ends in a semicolon does not reach into a text without any. -/
private theorem exists_of_append_semicolon {t more front back : Text} (hmore : ';' ∉ more)
    (h : t ++ more = front ++ ';' :: back) : ∃ rest, t = front ++ ';' :: rest := by
  rcases List.append_eq_append_iff.1 h with ⟨middle, -, hback⟩ | ⟨middle, hfront, hback⟩
  · exact absurd (hback ▸ List.mem_append_right middle List.mem_cons_self) hmore
  · cases middle with
    | nil =>
        rw [List.nil_append] at hback
        exact absurd (hback ▸ List.mem_cons_self) hmore
    | cons c middle =>
        obtain ⟨rfl, -⟩ := List.cons.inj hback
        exact ⟨middle, hfront⟩

/-- Entities end in semicolons, so none is made up of the end of one text and the beginning of a
text without semicolons. -/
theorem unescape_append {more : Text} (hmore : ';' ∉ more) (t : Text) :
    unescape (t ++ more) = unescape t ++ unescape more := by
  induction t using unescape.induct with
  | case1 rest ih => exact congrArg ('&' :: ·) ih
  | case2 rest ih => exact congrArg ('<' :: ·) ih
  | case3 rest ih => exact congrArg ('>' :: ·) ih
  | case4 rest ih => exact congrArg ('"' :: ·) ih
  | case5 rest ih => exact congrArg ('\'' :: ·) ih
  | case6 c rest hamp hlt hgt hquot hapos ih =>
      -- No entity begins here, and none does if more text follows.
      have hother : ∀ front : Text, (∀ back, c = '&' → rest = front ++ ';' :: back → False) →
          ∀ back, c = '&' → rest ++ more = front ++ ';' :: back → False := by
        intro front hfront back hc hsplit
        obtain ⟨tail, htail⟩ := exists_of_append_semicolon hmore hsplit
        exact hfront tail hc htail
      rw [List.cons_append, unescape.eq_6 c (rest ++ more) (hother ['a', 'm', 'p'] hamp)
        (hother ['l', 't'] hlt) (hother ['g', 't'] hgt) (hother ['q', 'u', 'o', 't'] hquot)
        (hother ['#', 'x', '2', '7'] hapos), unescape.eq_6 c rest hamp hlt hgt hquot hapos, ih]
      rfl
  | case7 => rfl

theorem length_unescape_le (t : Text) : (unescape t).length ≤ t.length := by
  induction t using unescape.induct with
  | case1 rest ih | case2 rest ih | case3 rest ih | case4 rest ih | case5 rest ih =>
      simp only [unescape, List.length_cons]
      omega
  | case6 c rest hamp hlt hgt hquot hapos ih =>
      rw [unescape.eq_6 c rest hamp hlt hgt hquot hapos]
      exact Nat.succ_le_succ ih
  | case7 => exact Nat.le_refl 0

/-- Between double quotes the text is read as it is. -/
def Legible (t : Text) : Prop := '"' ∉ t ∧ unescape t = t

instance (t : Text) : Decidable (Legible t) := inferInstanceAs (Decidable (_ ∧ _))

/-- A label can follow any prefix: it holds no double quote and no part of an entity. -/
def IsLabel (label : Text) : Prop := '"' ∉ label ∧ '&' ∉ label ∧ ';' ∉ label

instance (label : Text) : Decidable (IsLabel label) := inferInstanceAs (Decidable (_ ∧ _ ∧ _))

theorem unescape_append_label {label : Text} (hlabel : IsLabel label) (t : Text) :
    unescape (t ++ label) = unescape t ++ label := by
  rw [unescape_append hlabel.2.2, unescape_of_not_mem hlabel.2.1]

theorem legible_append_label_iff {label : Text} (hlabel : IsLabel label) (t : Text) :
    Legible (t ++ label) ↔ Legible t := by
  unfold Legible
  rw [List.mem_append, not_or, unescape_append_label hlabel, List.append_left_inj]
  exact and_congr_left fun _ => and_iff_left hlabel.1

/-! ## Fragments that show their tags -/

/-- In front of any markup, the fragment contributes the tags. -/
def Shows (fragment : Text) (tags : List Tag) : Prop :=
  ∀ rest, readTags (fragment ++ rest) = tags ++ readTags rest

/-- In front of any markup, what is read does not begin with the tags. -/
def Spoils (fragment : Text) (tags : List Tag) : Prop :=
  ∀ rest, ¬ tags <+: readTags (fragment ++ rest)

variable {fragment more : Text} {tags others : List Tag}

theorem Shows.readTags_eq (h : Shows fragment tags) : readTags fragment = tags := by
  have hread := h []
  rwa [List.append_nil, show readTags [] = [] from rfl, List.append_nil] at hread

theorem Shows.append (h : Shows fragment tags) (hmore : Shows more others) :
    Shows (fragment ++ more) (tags ++ others) := by
  intro rest
  rw [List.append_assoc, h, hmore, List.append_assoc]

theorem Shows.append_spoils (h : Shows fragment tags) (hmore : Spoils more others) :
    Spoils (fragment ++ more) (tags ++ others) := by
  intro rest hbegins
  rw [List.append_assoc, h, List.prefix_append_right_inj] at hbegins
  exact hmore rest hbegins

theorem Spoils.append (h : Spoils fragment tags) (more : Text) (others : List Tag) :
    Spoils (fragment ++ more) (tags ++ others) := by
  intro rest hbegins
  rw [List.append_assoc] at hbegins
  exact h _ ((List.prefix_append tags others).trans hbegins)

theorem Spoils.readTags_ne (h : Spoils fragment tags) : readTags fragment ≠ tags := by
  intro heq
  refine h [] ?_
  rw [List.append_nil, heq]

theorem Spoils.ne_nil (h : Spoils fragment tags) : tags ≠ [] := by
  rintro rfl
  exact h [] List.nil_prefix

theorem shows_text {t : Text} (ht : '<' ∉ t) : Shows t [] := fun rest => readFrom_text ht rest

/-- A tag without quotes is read as it is. -/
theorem shows_bare {inner : Text} (hquote : '"' ∉ inner) (hclose : '>' ∉ inner) :
    Shows ('<' :: (inner ++ ['>'])) [⟨inner, []⟩] := by
  intro rest
  show readFrom .text ('<' :: (inner ++ ['>'] ++ rest)) = _
  rw [readFrom, if_pos rfl, List.append_assoc, readFrom_bare hquote hclose]
  exact if_pos rfl

/-- From the opening quote of its value a tag is read as far as the value goes. -/
theorem readTags_value {inner : Text} (hquote : '"' ∉ inner) (hclose : '>' ∉ inner)
    {value : Text} (hvalue : '"' ∉ value) (rest : Text) :
    readTags ('<' :: (inner ++ '"' :: (value ++ '"' :: rest))) =
      readFrom (.tag inner [unescape value]) rest := by
  show readFrom .text _ = _
  rw [readFrom, if_pos rfl, readFrom_bare hquote hclose, List.nil_append, readFrom,
    if_neg (by decide), if_pos rfl, readFrom_value hvalue]
  rfl

theorem shows_value (inner : Text) (hquote : '"' ∉ inner) (hclose : '>' ∉ inner) {value : Text}
    (hvalue : '"' ∉ value) :
    Shows ('<' :: (inner ++ '"' :: (value ++ ['"', '>']))) [⟨inner, [unescape value]⟩] := by
  intro rest
  have hsame : '<' :: (inner ++ '"' :: (value ++ ['"', '>'])) ++ rest =
      '<' :: (inner ++ '"' :: (value ++ '"' :: '>' :: rest)) := by simp
  rw [hsame, readTags_value hquote hclose hvalue]
  exact if_pos rfl

/-! ## Elements -/

/-- The opening tag of an element with a class. -/
def Tag.ofClass (element className : Text) : Tag := ⟨element ++ " class=".toList, [className]⟩

/-- A tag that is a name only, with a slash in front of it if the tag is a closing one. -/
def Tag.ofName (name : Text) : Tag := ⟨name, []⟩

theorem openTag_eq_value (className : Text) :
    openTag className = '<' :: ("span class=".toList ++ '"' :: (className ++ ['"', '>'])) := by
  have hopen : "<span class=\"".toList = '<' :: ("span class=".toList ++ ['"']) := by decide
  have hassoc : ∀ inner : Text, '<' :: (inner ++ ['"']) ++ className ++ ['"', '>'] =
      '<' :: (inner ++ '"' :: (className ++ ['"', '>'])) := by simp
  exact (congrArg (· ++ className ++ ['"', '>']) hopen).trans (hassoc _)

theorem shows_closeTag : Shows closeTag [.ofName "/span".toList] := by
  have hclose : closeTag = '<' :: ("/span".toList ++ ['>']) := by decide
  rw [hclose]
  exact shows_bare (by decide) (by decide)

/-- Without a double quote in it a class name is read to its end. -/
theorem shows_openTag_of_not_mem {className : Text} (h : '"' ∉ className) :
    Shows (openTag className) [.ofClass "span".toList (unescape className)] := by
  rw [openTag_eq_value]
  exact shows_value "span class=".toList (by decide) (by decide) h

theorem shows_openTag {className : Text} (h : Legible className) :
    Shows (openTag className) [.ofClass "span".toList className] := by
  have hshows := shows_openTag_of_not_mem h.1
  rwa [h.2] at hshows

/-- If a class name is not legible, its tag is read as another one.  A double quote in it ends the
value too early, so that the value that is read is shorter. -/
theorem spoils_openTag {className : Text} (h : ¬ Legible className) :
    Spoils (openTag className) [.ofClass "span".toList className] := by
  rintro rest ⟨later, hread⟩
  have hquote : '"' ∉ "span class=".toList := by decide
  have hclose : '>' ∉ "span class=".toList := by decide
  by_cases hmem : '"' ∈ className
  · obtain ⟨front, back, hsplit, hfront⟩ := List.eq_append_cons_of_mem hmem
    have hsame : openTag className ++ rest =
        '<' :: ("span class=".toList ++ '"' :: (front ++ '"' :: (back ++ ['"', '>'] ++ rest))) := by
      rw [openTag_eq_value, hsplit]
      simp only [List.cons_append, List.append_assoc]
    rw [hsame, readTags_value hquote hclose hfront] at hread
    -- Whatever is read of the tag from here on, its first value is what stands before the quote.
    obtain ⟨⟨tag, others, htag, hvalues⟩, -⟩ :=
      exists_tag_of_open (back ++ ['"', '>'] ++ rest) "span class=".toList [unescape front]
    obtain ⟨rfl, -⟩ := List.cons.inj (hread.trans htag)
    have hvalue : unescape front = className := (List.cons_prefix_cons.1 hvalues).1
    have hle := length_unescape_le front
    have hlength := congrArg List.length hsplit
    rw [hvalue] at hle
    rw [List.length_append, List.length_cons] at hlength
    omega
  · rw [shows_openTag_of_not_mem hmem] at hread
    have hvalue := (Tag.mk.inj (List.cons.inj hread).1).2
    exact h ⟨hmem, (List.cons.inj hvalue).1.symm⟩

/-! ## Fragments in which a prefix is written -/

/-- The fragment shows the tags, unless the prefix is written in one of them and is not legible. -/
inductive Written (classPrefix fragment : Text) (tags : List Tag) : Prop
  | shown (h : Shows fragment tags) (hlegible : Legible classPrefix ∨ tags = [])
  | spoiled (h : Spoils fragment tags) (hlegible : ¬ Legible classPrefix)

namespace Written

variable {classPrefix : Text}

theorem readTags_eq_iff (h : Written classPrefix fragment tags) :
    readTags fragment = tags ↔ Legible classPrefix ∨ tags = [] := by
  cases h with
  | shown h hlegible => exact iff_of_true h.readTags_eq hlegible
  | spoiled h hlegible => exact iff_of_false h.readTags_ne (not_or.2 ⟨hlegible, h.ne_nil⟩)

theorem shows_of_legible (h : Written classPrefix fragment tags) (hlegible : Legible classPrefix) :
    Shows fragment tags := by
  cases h with
  | shown h => exact h
  | spoiled _ hillegible => exact absurd hlegible hillegible

theorem append (h : Written classPrefix fragment tags) (hmore : Written classPrefix more others) :
    Written classPrefix (fragment ++ more) (tags ++ others) := by
  rcases h with ⟨h, hlegible⟩ | ⟨h, hlegible⟩
  · rcases hmore with ⟨hmore, hlegible'⟩ | ⟨hmore, hlegible'⟩
    · refine .shown (h.append hmore) ?_
      rcases hlegible with hlegible | rfl
      · exact .inl hlegible
      · exact hlegible'
    · exact .spoiled (h.append_spoils hmore) hlegible'
  · exact .spoiled (h.append more others) hlegible

theorem text {t : Text} (ht : '<' ∉ t) : Written classPrefix t [] := .shown (shows_text ht) (.inr rfl)

/-- An element is shown together with what it holds. -/
theorem element {label : Text} (hlabel : IsLabel label) (h : Written classPrefix fragment tags) :
    Written classPrefix (openTag (classPrefix ++ label) ++ fragment ++ closeTag)
      (.ofClass "span".toList (classPrefix ++ label) :: tags ++ [.ofName "/span".toList]) := by
  by_cases hlegible : Legible classPrefix
  · have hopen := shows_openTag ((legible_append_label_iff hlabel classPrefix).2 hlegible)
    have hshows := (hopen.append (h.shows_of_legible hlegible)).append shows_closeTag
    exact .shown hshows (.inl hlegible)
  · have hopen := spoils_openTag (mt (legible_append_label_iff hlabel classPrefix).1 hlegible)
    have hspoils := (hopen.append fragment tags).append closeTag [.ofName "/span".toList]
    exact .spoiled hspoils hlegible

theorem intercalate {fragments : List Text} {tagLists : List (List Tag)}
    (h : List.Forall₂ (Written classPrefix) fragments tagLists) :
    Written classPrefix (['\n'].intercalate fragments) tagLists.flatten := by
  have hfeed : Written classPrefix ['\n'] [] := text (by decide)
  induction h with
  | nil => exact text List.not_mem_nil
  | cons hfirst hrest ih =>
      cases hrest with
      | nil =>
          rw [List.intercalate_singleton, List.flatten_cons, List.flatten_nil, List.append_nil]
          exact hfirst
      | cons hsecond hmore =>
          rw [List.intercalate_cons_cons, List.flatten_cons]
          have hall := (hfirst.append hfeed).append ih
          rwa [List.append_nil] at hall

end Written

/-! ## The tags that are meant -/

/-- The opening tags of a block. -/
def openBlockTags : Option Text → List Tag
  | none => [.ofName "pre".toList, .ofName "code".toList]
  | some language =>
      if language = [] then [.ofName "pre".toList, .ofName "code".toList]
      else [.ofName "pre".toList, .ofClass "code".toList ("language-".toList ++ language)]

/-- The closing tags of a block. -/
def closeBlockTags : List Tag := [.ofName "/code".toList, .ofName "/pre".toList]

end CodeHighlight.Html

namespace CodeHighlight.Style

open Html

/-- The tags of one span. -/
def spanTags (style : Style) (s : Span) : List Tag :=
  if s.category = .plain ∧ !style.wrapPlain then []
  else [.ofClass "span".toList (style.classPrefix ++ s.category.label), .ofName "/span".toList]

/-- The tags of spans. -/
def spansTags (style : Style) (list : List Span) : List Tag := list.flatMap style.spanTags

/-- The tags of a line. -/
def lineTags (style : Style) (options : LineOptions) (number : Nat) (pieces : List Span) :
    List Tag :=
  let numbered :=
    if options.numbered then
      [Tag.ofClass "span".toList (style.classPrefix ++ "lineno".toList), .ofName "/span".toList]
    else []
  if (number : Int) ∈ options.marked then
    .ofClass "span".toList (style.classPrefix ++ "hll".toList) ::
      (numbered ++ style.spansTags pieces) ++ [.ofName "/span".toList]
  else
    numbered ++ style.spansTags pieces

/-- The tags of lines that start with the given number, none for lines beyond the last number. -/
def linesTagsFrom (style : Style) (options : LineOptions) (last number : Nat) :
    List (List Span) → List (List Tag)
  | [] => []
  | pieces :: rest =>
      (if number ≤ last then style.lineTags options number pieces else []) ::
        linesTagsFrom style options last (number + 1) rest

/-- The tags of all lines of a block. -/
def bodyTags (style : Style) (options : LineOptions) (lines : List (List Span)) : List Tag :=
  (style.linesTagsFrom options (countedLines lines) 1 lines).flatten

/-- The tags of a block. -/
def blockTags (style : Style) (list : List Span) (language : Option Text) (options : LineOptions) :
    List Tag :=
  openBlockTags language ++ style.bodyTags options (splitLines list) ++ closeBlockTags

/-! ## What is written shows the tags that are meant -/

theorem isLabel_label (category : Category) : IsLabel category.label := by
  cases category <;> decide

theorem written_span (style : Style) (s : Span) :
    Written style.classPrefix (style.span s) (style.spanTags s) := by
  have htext : Written style.classPrefix (escape s.text) [] := .text (not_mem_escape (by decide) s.text)
  unfold Style.span spanTags
  by_cases hplain : s.category = .plain ∧ !style.wrapPlain
  · rw [if_pos hplain, if_pos hplain]
    exact htext
  · rw [if_neg hplain, if_neg hplain]
    exact .element (isLabel_label s.category) htext

theorem written_spans (style : Style) (list : List Span) :
    Written style.classPrefix (style.spans list) (style.spansTags list) := by
  induction list with
  | nil => exact .text List.not_mem_nil
  | cons s list ih => exact (style.written_span s).append ih

theorem written_line (style : Style) (options : LineOptions) (number : Nat) (pieces : List Span) :
    Written style.classPrefix (style.line options number pieces)
      (style.lineTags options number pieces) := by
  have hpieces := style.written_spans pieces
  have hnumber : Written style.classPrefix
      (if options.numbered then
        openTag (style.classPrefix ++ "lineno".toList) ++ Text.ofNat number ++ closeTag
      else [])
      (if options.numbered then
        [Tag.ofClass "span".toList (style.classPrefix ++ "lineno".toList), .ofName "/span".toList]
      else []) := by
    have hdigits : '<' ∉ Text.ofNat number := by
      intro h
      exact absurd (Nat.isDigit_of_mem_toDigits (by decide) (by decide) h) (by decide)
    by_cases hnumbered : options.numbered
    · rw [if_pos hnumbered, if_pos hnumbered]
      exact .element (by decide) (.text hdigits)
    · rw [if_neg hnumbered, if_neg hnumbered]
      exact .text List.not_mem_nil
  unfold Style.line lineTags
  dsimp only
  by_cases hmarked : (number : Int) ∈ options.marked
  · rw [if_pos hmarked, if_pos hmarked, List.append_assoc (openTag _)]
    exact .element (by decide) (hnumber.append hpieces)
  · rw [if_neg hmarked, if_neg hmarked]
    exact hnumber.append hpieces

theorem written_linesFrom (style : Style) (options : LineOptions) (last number : Nat)
    (lines : List (List Span)) :
    List.Forall₂ (Written style.classPrefix) (style.linesFrom options last number lines)
      (style.linesTagsFrom options last number lines) := by
  induction lines generalizing number with
  | nil => exact .nil
  | cons pieces rest ih =>
      refine .cons ?_ (ih (number + 1))
      by_cases hle : number ≤ last
      · rw [if_pos hle, if_pos hle]
        exact style.written_line options number pieces
      · rw [if_neg hle, if_neg hle]
        exact .text List.not_mem_nil

theorem written_body (style : Style) (options : LineOptions) (lines : List (List Span)) :
    Written style.classPrefix (style.body options lines) (style.bodyTags options lines) :=
  .intercalate (style.written_linesFrom options (countedLines lines) 1 lines)

end CodeHighlight.Style

namespace CodeHighlight.Html

/-- The name of a language is read back from the class that it is written in. -/
theorem shows_openBlock (language : Option Text) :
    Shows (openBlock language) (openBlockTags language) := by
  have hpre : Shows ('<' :: ("pre".toList ++ ['>'])) [.ofName "pre".toList] :=
    shows_bare (by decide) (by decide)
  have hbare : Shows "<pre><code>".toList [.ofName "pre".toList, .ofName "code".toList] := by
    have htags : "<pre><code>".toList =
        '<' :: ("pre".toList ++ ['>']) ++ '<' :: ("code".toList ++ ['>']) := by decide
    rw [htags]
    exact hpre.append (shows_bare (by decide) (by decide))
  cases language with
  | none => exact hbare
  | some language =>
      unfold openBlock openBlockTags
      dsimp only
      by_cases hempty : language = []
      · rw [if_pos hempty, if_pos hempty]
        exact hbare
      · rw [if_neg hempty, if_neg hempty]
        have hvalue : '"' ∉ "language-".toList ++ escape language := by
          have hfront : '"' ∉ "language-".toList := by decide
          exact fun h => (List.mem_append.1 h).elim hfront (not_mem_escape (by decide) language)
        have hread : unescape ("language-".toList ++ escape language) =
            "language-".toList ++ language := by
          rw [unescape_append_of_not_mem (by decide), unescape_escape]
        have htags : "<pre><code class=\"language-".toList =
            '<' :: ("pre".toList ++ ['>']) ++
              '<' :: ("code class=".toList ++ '"' :: "language-".toList) := by decide
        have hassoc : ∀ pre inner front : Text,
            pre ++ '<' :: (inner ++ '"' :: front) ++ escape language ++ ['"', '>'] =
              pre ++ '<' :: (inner ++ '"' :: (front ++ escape language ++ ['"', '>'])) := by simp
        have hsame := (congrArg (· ++ escape language ++ ['"', '>']) htags).trans (hassoc _ _ _)
        have hcode := shows_value "code class=".toList (by decide) (by decide) hvalue
        rw [hread] at hcode
        exact hsame ▸ hpre.append hcode

theorem shows_closeBlock : Shows closeBlock closeBlockTags := by
  have htags : closeBlock =
      '<' :: ("/code".toList ++ ['>']) ++ '<' :: ("/pre".toList ++ ['>']) := by decide
  rw [htags]
  exact (shows_bare (by decide) (by decide)).append (shows_bare (by decide) (by decide))

end CodeHighlight.Html

namespace CodeHighlight.Style

open Html

/-- Whatever stands in the spans and whatever the language is called, the tags that are meant are
those that are read, if the prefix of the class names is legible or no class name is written.
Otherwise they are not, but even then a block begins with its own two tags. -/
theorem tags_as_meant_iff (style : Style) (list : List Span) (language : Option Text)
    (options : LineOptions) :
    (∀ html, style.fragment list = .ok html →
      (readTags html = style.spansTags list ↔
        Legible style.classPrefix ∨ style.spansTags list = [])) ∧
    ∀ html, style.block list language options = .ok html →
      openBlockTags language <+: readTags html ∧
      (readTags html = style.blockTags list language options ↔
        Legible style.classPrefix ∨ style.bodyTags options (splitLines list) = []) := by
  constructor
  · intro html h
    unfold fragment at h
    split at h
    · contradiction
    · obtain rfl := Except.ok.inj h
      exact (style.written_spans list).readTags_eq_iff
  · intro html h
    unfold block at h
    dsimp only at h
    split at h
    · contradiction
    · obtain rfl := Except.ok.inj h
      have hopen := shows_openBlock language
      refine ⟨?_, ?_⟩
      · rw [List.append_assoc, hopen]
        exact List.prefix_append _ _
      · rcases style.written_body options (splitLines list) with ⟨hbody, hlegible⟩ | ⟨hbody, hlegible⟩
        · exact iff_of_true ((hopen.append hbody).append shows_closeBlock).readTags_eq hlegible
        · have hspoils := (hopen.append_spoils hbody).append closeBlock closeBlockTags
          exact iff_of_false hspoils.readTags_ne (not_or.2 ⟨hlegible, hbody.ne_nil⟩)

/-- The language and the text of a span would bring tags if they were written as they are. -/
theorem tags_as_meant_iff_script :
    let style : Style := ⟨"hl-".toList, false⟩
    let list : List Span := [⟨.string, "\"</code>\"".toList, 0, 9⟩]
    ∃ html, style.block list (some "x\"><script>".toList) ⟨[1], false⟩ = .ok html ∧
      readTags html =
        [.ofName "pre".toList, .ofClass "code".toList "language-x\"><script>".toList,
          .ofClass "span".toList "hl-hll".toList, .ofClass "span".toList "hl-string".toList,
          .ofName "/span".toList, .ofName "/span".toList, .ofName "/code".toList,
          .ofName "/pre".toList] := by
  intro style list
  have hmeant := (style.tags_as_meant_iff list (some "x\"><script>".toList) ⟨[1], false⟩).2 _ rfl
  exact ⟨_, rfl, (hmeant.2.2 (.inl (by decide))).trans (by decide)⟩

/-- The same text as prefix of the class names ends its value and brings a tag. -/
theorem fragment_prefix_script :
    let style : Style := ⟨"x\"><script>".toList, false⟩
    let list : List Span := [⟨.keyword, "a".toList, 0, 1⟩]
    ∃ html, style.fragment list = .ok html ∧
      readTags html =
        [.ofClass "span".toList "x".toList, .ofName "script".toList, .ofName "/span".toList] ∧
      readTags html ≠ style.spansTags list :=
  ⟨"<span class=\"x\"><script>keyword\">a</span>".toList, by decide, by decide, by decide⟩

end CodeHighlight.Style
