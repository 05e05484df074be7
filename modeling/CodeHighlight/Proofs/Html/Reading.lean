import CodeHighlight.Html.Markup
import Mathlib.Data.List.Forall2

/-!
# Reading markup

`content` is what is left of markup when the number elements and all tags are deleted and the
entities are replaced by their characters.  It is defined on any markup, without reference to how
the markup was written.  What spans and lines are written as is read back as their text; `Reads` is
stated for markup with anything behind it, so that fragments can be read one after the other.
-/

namespace CodeHighlight

namespace Html

/-! ## The content of markup -/

/-- A tag, without its angle brackets, or a character outside of tags. -/
inductive Lexeme where
  | tag (inner : Text)
  | char (c : Char)
  deriving DecidableEq

/-- The lexemes of markup, where what has been read of an open tag is given. -/
def lexemesFrom : Option Text → Text → List Lexeme
  | none, [] => []
  | some inner, [] => [.tag inner]
  | none, c :: rest =>
      if c = '<' then lexemesFrom (some []) rest else .char c :: lexemesFrom none rest
  | some inner, c :: rest =>
      if c = '>' then .tag inner :: lexemesFrom none rest
      else lexemesFrom (some (inner ++ [c])) rest

/-- The lexemes without those between an opening tag and the next closing tag, which are deleted
together with the two tags. -/
def withoutElements (opening closing : Text) (inside : Bool) : List Lexeme → List Lexeme
  | [] => []
  | lexeme :: rest =>
      if inside then withoutElements opening closing (lexeme ≠ .tag closing) rest
      else if lexeme = .tag opening then withoutElements opening closing true rest
      else lexeme :: withoutElements opening closing false rest

/-- The characters outside of tags. -/
def chars : List Lexeme → Text
  | [] => []
  | .tag _ :: rest => chars rest
  | .char c :: rest => c :: chars rest

/-- The text with each of the five entities replaced by its character, from left to right. -/
def unescape : Text → Text
  | '&' :: 'a' :: 'm' :: 'p' :: ';' :: rest => '&' :: unescape rest
  | '&' :: 'l' :: 't' :: ';' :: rest => '<' :: unescape rest
  | '&' :: 'g' :: 't' :: ';' :: rest => '>' :: unescape rest
  | '&' :: 'q' :: 'u' :: 'o' :: 't' :: ';' :: rest => '"' :: unescape rest
  | '&' :: '#' :: 'x' :: '2' :: '7' :: ';' :: rest => '\'' :: unescape rest
  | c :: rest => c :: unescape rest
  | [] => []

/-- The inside of the opening tag of an element of a class. -/
def spanTag (className : Text) : Text := "span class=\"".toList ++ className ++ ['"']

/-- The content of markup whose class names have a prefix: the elements that hold line numbers are
deleted, then all tags, and the entities are replaced by their characters. -/
def content (classPrefix markup : Text) : Text :=
  unescape (chars (withoutElements (spanTag (classPrefix ++ "lineno".toList)) "/span".toList false
    (lexemesFrom none markup)))

/-! ## Tags and characters -/

theorem unescape_cons {c : Char} (h : c ≠ '&') (rest : Text) :
    unescape (c :: rest) = c :: unescape rest := by
  rw [unescape.eq_def]
  split <;> simp_all

/-- The written form of a character is one of the entities, or the character itself. -/
theorem escapeChar_cases {motive : Char → Text → Prop} (hamp : motive '&' "&amp;".toList)
    (hlt : motive '<' "&lt;".toList) (hgt : motive '>' "&gt;".toList)
    (hquot : motive '"' "&quot;".toList) (hapos : motive '\'' "&#x27;".toList)
    (hother : ∀ c, c ∉ ['&', '<', '>', '"', '\''] → motive c [c]) (c : Char) :
    motive c (escapeChar c) := by
  unfold escapeChar
  by_cases hcAmp : c = '&'
  · rw [if_pos hcAmp, hcAmp]
    exact hamp
  · rw [if_neg hcAmp]
    by_cases hcLt : c = '<'
    · rw [if_pos hcLt, hcLt]
      exact hlt
    · rw [if_neg hcLt]
      by_cases hcGt : c = '>'
      · rw [if_pos hcGt, hcGt]
        exact hgt
      · rw [if_neg hcGt]
        by_cases hcQuot : c = '"'
        · rw [if_pos hcQuot, hcQuot]
          exact hquot
        · rw [if_neg hcQuot]
          by_cases hcApos : c = '\''
          · rw [if_pos hcApos, hcApos]
            exact hapos
          · rw [if_neg hcApos]
            exact hother c (by simp [hcAmp, hcLt, hcGt, hcQuot, hcApos])

theorem unescape_escapeChar (c : Char) (rest : Text) :
    unescape (escapeChar c ++ rest) = c :: unescape rest := by
  refine escapeChar_cases (motive := fun c t => unescape (t ++ rest) = c :: unescape rest)
    rfl rfl rfl rfl rfl ?_ c
  intro c hc
  exact unescape_cons (List.ne_of_not_mem_cons hc) rest

/-- A text is read back from its written form, even if it looks like one. -/
theorem unescape_escape (t : Text) : unescape (escape t) = t := by
  induction t with
  | nil => rfl
  | cons c t ih =>
      rw [escape, List.flatMap_cons, unescape_escapeChar]
      exact congrArg (c :: ·) ih

theorem not_mem_escapeChar {special : Char} (hspecial : special ∈ ['<', '>', '"', '\''])
    (c : Char) : special ∉ escapeChar c := by
  have hentity : ∀ {entity : Text}, ['<', '>', '"', '\''].all (· ∉ entity) → special ∉ entity :=
    fun h => of_decide_eq_true (List.all_eq_true.1 h special hspecial)
  refine escapeChar_cases (motive := fun _ t => special ∉ t) (hentity (by decide))
    (hentity (by decide)) (hentity (by decide)) (hentity (by decide)) (hentity (by decide)) ?_ c
  intro c hc hmem
  rw [List.mem_singleton] at hmem
  exact hc (hmem ▸ List.mem_cons_of_mem '&' hspecial)

/-- Nothing that is escaped contains an angle bracket or a quotation mark. -/
theorem not_mem_escape {special : Char} (hspecial : special ∈ ['<', '>', '"', '\''])
    (t : Text) : special ∉ escape t := by
  intro h
  obtain ⟨c, -, hc⟩ := List.mem_flatMap.1 h
  exact not_mem_escapeChar hspecial c hc

/-- Outside of tags a text without angle brackets is its characters. -/
theorem lexemesFrom_text {t : Text} (ht : '<' ∉ t) (rest : Text) :
    lexemesFrom none (t ++ rest) = t.map .char ++ lexemesFrom none rest := by
  induction t with
  | nil => rfl
  | cons c t ih =>
      have hc : c ≠ '<' := fun h => ht (h ▸ List.mem_cons_self)
      have hrest : '<' ∉ t := fun h => ht (List.mem_cons_of_mem c h)
      rw [List.cons_append, lexemesFrom, if_neg hc, ih hrest]
      rfl

private theorem lexemesFrom_inner {inner : Text} (hinner : '>' ∉ inner) (earlier rest : Text) :
    lexemesFrom (some earlier) (inner ++ '>' :: rest) =
      .tag (earlier ++ inner) :: lexemesFrom none rest := by
  induction inner generalizing earlier with
  | nil =>
      rw [List.append_nil]
      exact if_pos rfl
  | cons c inner ih =>
      have hc : c ≠ '>' := fun h => hinner (h ▸ List.mem_cons_self)
      have hrest : '>' ∉ inner := fun h => hinner (List.mem_cons_of_mem c h)
      rw [List.cons_append, lexemesFrom, if_neg hc, ih hrest, List.append_assoc]
      rfl

/-- From one angle bracket to the next there is one tag. -/
theorem lexemesFrom_tag {inner : Text} (hinner : '>' ∉ inner) (rest : Text) :
    lexemesFrom none ('<' :: (inner ++ '>' :: rest)) = .tag inner :: lexemesFrom none rest := by
  rw [lexemesFrom, if_pos rfl, lexemesFrom_inner hinner, List.nil_append]

theorem withoutElements_chars (opening closing t : Text) (rest : List Lexeme) :
    chars (withoutElements opening closing false (t.map .char ++ rest)) =
      t ++ chars (withoutElements opening closing false rest) := by
  induction t with
  | nil => rfl
  | cons c t ih =>
      rw [List.map_cons, List.cons_append, withoutElements, if_neg Bool.false_ne_true,
        if_neg Lexeme.noConfusion]
      exact congrArg (c :: ·) ih

/-- Inside a deleted element characters are dropped up to the closing tag. -/
theorem withoutElements_inside (opening closing t : Text) (rest : List Lexeme) :
    withoutElements opening closing true (t.map .char ++ .tag closing :: rest) =
      withoutElements opening closing false rest := by
  induction t with
  | nil =>
      rw [List.map_nil, List.nil_append, withoutElements, if_pos rfl]
      simp
  | cons c t ih =>
      rw [List.map_cons, List.cons_append, withoutElements, if_pos rfl]
      simpa using ih

/-! ## Fragments that read as a text -/

/-- In front of any markup, the fragment contributes the text to the content. -/
def Reads (classPrefix fragment t : Text) : Prop :=
  ∀ rest, content classPrefix (fragment ++ rest) = t ++ content classPrefix rest

namespace Reads

variable {classPrefix : Text}

theorem nil : Reads classPrefix [] [] := fun _ => rfl

theorem append {fragment t more u : Text} (h : Reads classPrefix fragment t)
    (hmore : Reads classPrefix more u) : Reads classPrefix (fragment ++ more) (t ++ u) := by
  intro rest
  rw [List.append_assoc, h, hmore, List.append_assoc]

theorem flatMap {α : Type} {f g : α → Text} (list : List α)
    (h : ∀ a ∈ list, Reads classPrefix (f a) (g a)) :
    Reads classPrefix (list.flatMap f) (list.flatMap g) := by
  induction list with
  | nil => exact nil
  | cons a list ih =>
      have hrest := ih fun b hb => h b (List.mem_cons_of_mem a hb)
      exact (h a List.mem_cons_self).append hrest

/-- A character is read back from its written form. -/
theorem escapeChar (c : Char) : Reads classPrefix (Html.escapeChar c) [c] := by
  intro rest
  unfold content
  rw [lexemesFrom_text (not_mem_escapeChar (by decide) c), withoutElements_chars, unescape_escapeChar]
  rfl

/-- A text is read back from its written form. -/
theorem escape (t : Text) : Reads classPrefix (Html.escape t) t := by
  have h : Reads classPrefix (t.flatMap Html.escapeChar) (t.flatMap fun c => [c]) :=
    flatMap t fun c _ => escapeChar c
  rw [List.flatMap_singleton'] at h
  exact h

/-- Tags contribute nothing, unless an element that is deleted begins. -/
theorem tag {inner : Text} (hinner : '>' ∉ inner)
    (hother : inner ≠ spanTag (classPrefix ++ "lineno".toList)) :
    Reads classPrefix ('<' :: (inner ++ ['>'])) [] := by
  intro rest
  have hsame : '<' :: (inner ++ ['>']) ++ rest = '<' :: (inner ++ '>' :: rest) := by simp
  have hlexeme : Lexeme.tag inner ≠ .tag (spanTag (classPrefix ++ "lineno".toList)) :=
    fun h => hother (Lexeme.tag.inj h)
  unfold content
  rw [hsame, lexemesFrom_tag hinner, withoutElements, if_neg Bool.false_ne_true, if_neg hlexeme]
  rfl

/-- An element that holds a line number contributes nothing. -/
theorem number {t : Text} (ht : '<' ∉ t)
    (hinner : '>' ∉ spanTag (classPrefix ++ "lineno".toList)) :
    Reads classPrefix
      ('<' :: (spanTag (classPrefix ++ "lineno".toList) ++ ['>']) ++ t ++ closeTag) [] := by
  intro rest
  have hclose : closeTag = '<' :: ("/span".toList ++ ['>']) := by decide
  have hassoc : ∀ inner closing : Text,
      '<' :: (inner ++ ['>']) ++ t ++ '<' :: (closing ++ ['>']) ++ rest =
        '<' :: (inner ++ '>' :: (t ++ '<' :: (closing ++ '>' :: rest))) := by simp
  have hsame := (congrArg
    ('<' :: (spanTag (classPrefix ++ "lineno".toList) ++ ['>']) ++ t ++ · ++ rest) hclose).trans
      (hassoc _ _)
  have hslash : '>' ∉ "/span".toList := by decide
  unfold content
  rw [hsame, lexemesFrom_tag hinner, lexemesFrom_text ht, lexemesFrom_tag hslash, withoutElements,
    if_neg Bool.false_ne_true, if_pos rfl, withoutElements_inside]
  rfl

/-- Lines that are joined by line feeds read as their texts joined by line feeds. -/
theorem intercalate {fragments texts : List Text}
    (h : List.Forall₂ (Reads classPrefix) fragments texts) :
    Reads classPrefix (['\n'].intercalate fragments) (['\n'].intercalate texts) := by
  have hfeed : Reads classPrefix ['\n'] ['\n'] := escapeChar '\n'
  induction h with
  | nil => exact nil
  | cons hfirst hrest ih =>
      cases hrest with
      | nil =>
          rw [List.intercalate_singleton, List.intercalate_singleton]
          exact hfirst
      | cons hsecond hmore =>
          rw [List.intercalate_cons_cons, List.intercalate_cons_cons]
          exact (hfirst.append hfeed).append ih

end Reads

/-! ## The tags of spans -/

theorem not_mem_spanTag {className : Text} (h : '>' ∉ className) : '>' ∉ spanTag className := by
  have hopen : '>' ∉ "span class=\"".toList := by decide
  have hclose : '>' ∉ ['"'] := by decide
  unfold spanTag
  rw [List.mem_append, List.mem_append]
  rintro ((hmem | hmem) | hmem)
  · exact hopen hmem
  · exact h hmem
  · exact hclose hmem

theorem openTag_eq (className : Text) :
    openTag className = '<' :: (spanTag className ++ ['>']) := by
  have hopen : "<span class=\"".toList = '<' :: "span class=\"".toList := by decide
  have hassoc : ∀ opening : Text, '<' :: opening ++ className ++ ['"', '>'] =
      '<' :: (opening ++ className ++ ['"'] ++ ['>']) := by simp
  exact (congrArg (· ++ className ++ ['"', '>']) hopen).trans (hassoc _)

end Html

end CodeHighlight
