import CodeHighlight.Proofs.Html.Lines
import CodeHighlight.Proofs.Html.Nesting

/-!
# Escaped texts

Escaping looks at every character once.  It comes to the same as replacing the five characters that
mean something one after the other in the whole text, as long as no replacement puts in what a later
one looks for (`replaceInTurn_eq_flatMap`); so the ampersand has to be replaced first.

Markup is `Inert` if nothing in it can be taken for a tag or for the end of a value.  The escaped
form of a text is the one inert markup that reads back as the text (`escape_eq_iff`).  Line feeds are
escaped as they are, so a text may be cut at them before it is escaped or behind.
-/

namespace CodeHighlight

/-- The text with every occurrence of a character replaced. -/
def Text.replaceAll (t : Text) (key : Char) (image : Text) : Text :=
  t.flatMap fun c => if c = key then image else [c]

namespace Html

/-! ## One replacement after the other -/

/-- The characters that mean something in markup with their entities, in the order in which they are
replaced. -/
def entities : List (Char × Text) :=
  [('&', "&amp;".toList), ('<', "&lt;".toList), ('>', "&gt;".toList), ('"', "&quot;".toList),
    ('\'', "&#x27;".toList)]

/-- The text in which the characters of a table are replaced one after the other, each of them in
what the replacements before have left. -/
def replaceInTurn : List (Char × Text) → Text → Text
  | [], t => t
  | (key, image) :: rest, t => replaceInTurn rest (t.replaceAll key image)

/-- What a table has for a character, which is the character itself if the table does not list it. -/
def replacement : List (Char × Text) → Char → Text
  | [], c => [c]
  | (key, image) :: rest, c => if c = key then image else replacement rest c

theorem escapeChar_eq_replacement (c : Char) : escapeChar c = replacement entities c := rfl

/-- A text without characters of the table stays as it is. -/
theorem flatMap_replacement_eq_self {table : List (Char × Text)} {t : Text}
    (h : ∀ entry ∈ table, entry.1 ∉ t) : t.flatMap (replacement table) = t := by
  induction table with
  | nil => exact List.flatMap_singleton' t
  | cons entry rest ih =>
      obtain ⟨hentry, hrest⟩ := List.forall_mem_cons.1 h
      have hsame : t.flatMap (replacement (entry :: rest)) = t.flatMap (replacement rest) :=
        List.flatMap_congr fun c hc => if_neg (ne_of_mem_of_not_mem hc hentry)
      rw [hsame, ih hrest]

/-- If no entry puts in a character that a later one looks for, the replacements one after the other
come to one look at each character. -/
theorem replaceInTurn_eq_flatMap {table : List (Char × Text)}
    (htable : table.Pairwise fun earlier later => later.1 ∉ earlier.2) (t : Text) :
    replaceInTurn table t = t.flatMap (replacement table) := by
  induction table generalizing t with
  | nil => exact (List.flatMap_singleton' t).symm
  | cons entry rest ih =>
      obtain ⟨key, image⟩ := entry
      obtain ⟨himage, hrest⟩ := List.pairwise_cons.1 htable
      have hkept : image.flatMap (replacement rest) = image := flatMap_replacement_eq_self himage
      have hchar : ∀ c, (if c = key then image else [c]).flatMap (replacement rest) =
          replacement ((key, image) :: rest) c := by
        intro c
        rw [replacement]
        split
        · exact hkept
        · exact List.flatMap_singleton _ c
      calc replaceInTurn ((key, image) :: rest) t
          = (t.replaceAll key image).flatMap (replacement rest) := ih hrest _
        _ = t.flatMap fun c => (if c = key then image else [c]).flatMap (replacement rest) :=
            List.flatMap_assoc
        _ = t.flatMap (replacement ((key, image) :: rest)) :=
            List.flatMap_congr fun c _ => hchar c

/-- The order of the table matters: an ampersand that an earlier entry puts in is replaced again. -/
example : replaceInTurn [('<', "&lt;".toList), ('&', "&amp;".toList)] ['<'] = "&amp;lt;".toList := by
  decide

theorem escape_eq_replaceInTurn (t : Text) : escape t = replaceInTurn entities t := by
  have hentities : entities.Pairwise fun earlier later => later.1 ∉ earlier.2 := by decide
  rw [replaceInTurn_eq_flatMap hentities]
  exact List.flatMap_congr fun c _ => escapeChar_eq_replacement c

/-! ## Inert markup -/

/-- Nothing in the markup can be taken for a tag or for the end of a value, and no ampersand for the
beginning of anything but an entity. -/
structure Inert (markup : Text) : Prop where
  bare : ∀ special ∈ ['<', '>', '"', '\''], special ∉ markup
  ampersand : ∀ rest, '&' :: rest <:+ markup → ∃ entry ∈ entities, entry.2 <+: '&' :: rest

namespace Inert

variable {markup more : Text}

theorem nil : Inert [] :=
  ⟨fun _ _ => List.not_mem_nil, fun _ h => absurd (List.suffix_nil.1 h) (List.cons_ne_nil _ _)⟩

theorem of_suffix (h : Inert markup) (hsuffix : more <:+ markup) : Inert more :=
  ⟨fun special hspecial hmem => h.bare special hspecial (hsuffix.subset hmem),
    fun rest hrest => h.ampersand rest (hrest.trans hsuffix)⟩

theorem cons {c : Char} (hc : c ∉ ['&', '<', '>', '"', '\'']) (h : Inert more) :
    Inert (c :: more) := by
  obtain ⟨hamp, hspecial⟩ := List.ne_and_not_mem_of_not_mem_cons hc
  refine ⟨fun special hmem => ?_, fun rest hrest => ?_⟩
  · rw [List.mem_cons, not_or]
    exact ⟨fun heq => hspecial (heq ▸ hmem), h.bare special hmem⟩
  · rcases List.suffix_cons_iff.1 hrest with heq | hrest
    · exact absurd (List.cons.inj heq).1.symm hamp
    · exact h.ampersand rest hrest

/-- A character that is not in the front of a text has what follows it in the back. -/
private theorem suffix_of_append {c : Char} {front back rest : Text} (hfront : c ∉ front)
    (h : c :: rest <:+ front ++ back) : c :: rest <:+ back := by
  induction front with
  | nil => exact h
  | cons d front ih =>
      obtain ⟨hd, hfront⟩ := List.ne_and_not_mem_of_not_mem_cons hfront
      rcases List.suffix_cons_iff.1 h with heq | h
      · exact absurd (List.cons.inj heq).1 hd
      · exact ih hfront h

/-- The only ampersand of an entity is its first character. -/
theorem entity {entry : Char × Text} (hentry : entry ∈ entities) (h : Inert more) :
    Inert (entry.2 ++ more) := by
  have hbare : ∀ entry ∈ entities, ['<', '>', '"', '\''].all (· ∉ entry.2) := by decide
  have hshape : ∀ entry ∈ entities, entry.2 = '&' :: entry.2.tail ∧ '&' ∉ entry.2.tail := by decide
  obtain ⟨hbegins, htail⟩ := hshape entry hentry
  refine ⟨fun special hspecial => ?_, fun rest hrest => ?_⟩
  · rw [List.mem_append, not_or]
    have hall := List.all_eq_true.1 (hbare entry hentry) special hspecial
    exact ⟨of_decide_eq_true hall, h.bare special hspecial⟩
  · have hsplit : entry.2 ++ more = '&' :: (entry.2.tail ++ more) := congrArg (· ++ more) hbegins
    rw [hsplit] at hrest
    rcases List.suffix_cons_iff.1 hrest with heq | hrest
    · rw [heq, ← hsplit]
      exact ⟨entry, hentry, List.prefix_append _ _⟩
    · exact h.ampersand rest (suffix_of_append htail hrest)

theorem escape (t : Text) : Inert (Html.escape t) := by
  induction t with
  | nil => exact nil
  | cons c t ih =>
      have hentity : ∀ entry ∈ entities, Inert (entry.2 ++ Html.escape t) :=
        fun _ hentry => ih.entity hentry
      refine escapeChar_cases (motive := fun _ written => Inert (written ++ Html.escape t))
        (hentity ('&', "&amp;".toList) (by decide)) (hentity ('<', "&lt;".toList) (by decide))
        (hentity ('>', "&gt;".toList) (by decide)) (hentity ('"', "&quot;".toList) (by decide))
        (hentity ('\'', "&#x27;".toList) (by decide)) ?_ c
      exact fun c hc => ih.cons hc

/-- Inert markup is what its reading is escaped to. -/
theorem escape_unescape (h : Inert markup) : Html.escape (unescape markup) = markup := by
  induction markup using unescape.induct with
  | case1 rest ih =>
      exact congrArg ("&amp;".toList ++ ·) (ih (h.of_suffix ⟨"&amp;".toList, rfl⟩))
  | case2 rest ih =>
      exact congrArg ("&lt;".toList ++ ·) (ih (h.of_suffix ⟨"&lt;".toList, rfl⟩))
  | case3 rest ih =>
      exact congrArg ("&gt;".toList ++ ·) (ih (h.of_suffix ⟨"&gt;".toList, rfl⟩))
  | case4 rest ih =>
      exact congrArg ("&quot;".toList ++ ·) (ih (h.of_suffix ⟨"&quot;".toList, rfl⟩))
  | case5 rest ih =>
      exact congrArg ("&#x27;".toList ++ ·) (ih (h.of_suffix ⟨"&#x27;".toList, rfl⟩))
  | case6 c rest hamp hlt hgt hquot hapos ih =>
      -- No entity begins here, so this is no ampersand.
      have hc : c ≠ '&' := by
        rintro rfl
        obtain ⟨entry, hentry, back, hback⟩ := h.ampersand rest List.suffix_rfl
        simp only [entities, List.mem_cons, List.not_mem_nil, or_false] at hentry
        have hrest : ∀ front : Text, '&' :: front ++ back = '&' :: rest → rest = front ++ back :=
          fun front heq => (List.cons.inj heq).2.symm
        rcases hentry with rfl | rfl | rfl | rfl | rfl
        · exact hamp back rfl (hrest "amp;".toList hback)
        · exact hlt back rfl (hrest "lt;".toList hback)
        · exact hgt back rfl (hrest "gt;".toList hback)
        · exact hquot back rfl (hrest "quot;".toList hback)
        · exact hapos back rfl (hrest "#x27;".toList hback)
      have hspecial : c ∉ ['<', '>', '"', '\''] :=
        fun hmem => h.bare c hmem List.mem_cons_self
      have hwritten : escapeChar c = [c] := by
        simp only [List.mem_cons, List.not_mem_nil, or_false, not_or] at hspecial
        simp [escapeChar, hc, hspecial]
      rw [unescape_cons hc, Html.escape, List.flatMap_cons, hwritten]
      exact congrArg (c :: ·) (ih (h.of_suffix (List.suffix_cons c rest)))
  | case7 => rfl

end Inert

/-- A text has one inert form that reads back as the text, and that is its escaped form. -/
theorem escape_eq_iff {t markup : Text} :
    escape t = markup ↔ Inert markup ∧ unescape markup = t := by
  constructor
  · rintro rfl
    exact ⟨.escape t, unescape_escape t⟩
  · rintro ⟨hinert, rfl⟩
    exact hinert.escape_unescape

/-! ## Line by line -/

/-- Line feeds are written as they are, so it does not matter whether lines are joined before they
are escaped or behind. -/
theorem escape_intercalate (parts : List Text) :
    escape (['\n'].intercalate parts) = ['\n'].intercalate (parts.map escape) := by
  have hfeed : escape ['\n'] = ['\n'] := by decide
  induction parts with
  | nil => rfl
  | cons part rest ih =>
      cases rest with
      | nil => simp
      | cons second rest =>
          simp only [List.map_cons, List.intercalate_cons_cons] at ih ⊢
          rw [escape_append, escape_append, ih, hfeed]

/-- No line feeds come in either, so the same holds of cutting. -/
theorem splitOn_escape (t : Text) : (escape t).splitOn '\n' = (t.splitOn '\n').map escape := by
  have hjoined : escape t = ['\n'].intercalate ((t.splitOn '\n').map escape) := by
    rw [← escape_intercalate, List.intercalate_splitOn]
  rw [hjoined, List.splitOn_intercalate]
  · intro written hwritten
    obtain ⟨part, hpart, rfl⟩ := List.mem_map.1 hwritten
    exact (WellNested.escape (Text.not_mem_of_mem_splitOn hpart)).newline_not_mem
  · exact fun h => List.splitOn_ne_nil _ _ (List.map_eq_nil_iff.1 h)

theorem escape_texts (pieces : List Span) :
    escape (Span.texts pieces) = pieces.flatMap fun piece => escape piece.text := by
  induction pieces with
  | nil => rfl
  | cons piece rest ih =>
      rw [List.flatMap_cons, ← ih, ← escape_append]
      rfl

/-- The lines of the escaped text of spans are the escaped pieces on the lines of the spans. -/
theorem splitOn_escape_texts (spans : List Span) :
    (escape (Span.texts spans)).splitOn '\n' =
      (splitLines spans).map fun pieces => pieces.flatMap fun piece => escape piece.text := by
  rw [splitOn_escape, ← texts_splitLines, List.map_map]
  exact List.map_congr_left fun pieces _ => escape_texts pieces

/-- Escaping replaces the ampersand and then the other four characters in the whole text.  It gives
the one inert markup that reads back as the text, whatever the text looks like, and it can be done
part by part: of two texts one behind the other, and of spans that are cut at line feeds. -/
theorem escape_reversible :
    (∀ t : Text, escape t = replaceInTurn entities t) ∧
      (∀ t markup : Text, escape t = markup ↔ Inert markup ∧ unescape markup = t) ∧
      (∀ t more : Text, escape (t ++ more) = escape t ++ escape more) ∧
      ∀ spans : List Span, (escape (Span.texts spans)).splitOn '\n' =
        (splitLines spans).map fun pieces => pieces.flatMap fun piece => escape piece.text :=
  ⟨escape_eq_replaceInTurn, fun _ _ => escape_eq_iff, escape_append, splitOn_escape_texts⟩

/-- A text that looks like an entity, itself escaped. -/
example : escape "&amp;lt;".toList = "&amp;amp;lt;".toList ∧
    unescape "&amp;amp;lt;".toList = "&amp;lt;".toList := by
  decide

end Html

end CodeHighlight
