import CodeHighlight.Proofs.Html.Reading

/-!
# Well-nested markup

`WellNested` is the grammar of markup on a single line: text in which the characters that mean
something are written as entities, and elements that are closed on the line that they begin on.  A
well-nested fragment ends outside of all tags, so its lexemes are read apart from what follows it
(`WellNested.lexemesFrom_append`).  What an element of a class holds is read off the lexemes with
`elementTexts`.
-/

namespace CodeHighlight.Html

/-! ## The grammar -/

/-- The name of a class can stand between quotation marks in a tag as it is. -/
def IsClassName (name : Text) : Prop := ∀ c ∈ name, c ∉ ['<', '>', '"', '&', '\n']

instance (name : Text) : Decidable (IsClassName name) :=
  decidable_of_iff (name.all fun c => c ∉ ['<', '>', '"', '&', '\n']) (by simp [IsClassName])

/-- The names of the entities. -/
def entityNames : List Text :=
  ["amp".toList, "lt".toList, "gt".toList, "quot".toList, "#x27".toList]

/-- Markup on one line in which all elements are properly nested. -/
inductive WellNested : Text → Prop
  | nil : WellNested []
  | char (c : Char) (rest : Text) (hc : c ∉ ['<', '>', '&', '\n']) (hrest : WellNested rest) :
      WellNested (c :: rest)
  | entity (name rest : Text) (hname : name ∈ entityNames) (hrest : WellNested rest) :
      WellNested ('&' :: (name ++ ';' :: rest))
  | element (className inner rest : Text) (hclass : IsClassName className)
      (hinner : WellNested inner) (hrest : WellNested rest) :
      WellNested (openTag className ++ inner ++ closeTag ++ rest)

/-- The markup is a single element of the class around well-nested markup. -/
def Wrapped (className markup : Text) : Prop :=
  ∃ inner, WellNested inner ∧ markup = openTag className ++ inner ++ closeTag

theorem not_wrapped_nil (className : Text) : ¬ Wrapped className [] := by
  rintro ⟨inner, -, hempty⟩
  rw [openTag_eq] at hempty
  exact absurd hempty.symm (List.cons_ne_nil _ _)

/-! ## The texts of elements -/

/-- The characters up to the next tag, if that is the given one. -/
def textUpTo (closing : Text) : List Lexeme → Option Text
  | [] => none
  | .tag inner :: _ => if inner = closing then some [] else none
  | .char c :: rest => (textUpTo closing rest).map (c :: ·)

/-- The texts of the elements that begin with an opening tag, where an element that holds more than
text has none. -/
def elementTexts (opening closing : Text) : List Lexeme → List (Option Text)
  | [] => []
  | lexeme :: rest =>
      (if lexeme = .tag opening then [textUpTo closing rest] else []) ++
        elementTexts opening closing rest

/-- The texts of the elements that hold line numbers. -/
def lineNumbers (classPrefix markup : Text) : List (Option Text) :=
  elementTexts (spanTag (classPrefix ++ "lineno".toList)) "/span".toList (lexemesFrom none markup)

section Elements

variable {opening closing : Text} {lexemes rest : List Lexeme}

theorem elementTexts_eq_nil (h : .tag opening ∉ lexemes) :
    elementTexts opening closing lexemes = [] := by
  induction lexemes with
  | nil => rfl
  | cons lexeme lexemes ih =>
      rw [List.mem_cons, not_or] at h
      rw [elementTexts, if_neg (Ne.symm h.1), List.nil_append, ih h.2]

theorem elementTexts_cons_of_ne {lexeme : Lexeme} (h : lexeme ≠ .tag opening) :
    elementTexts opening closing (lexeme :: rest) = elementTexts opening closing rest := by
  rw [elementTexts, if_neg h, List.nil_append]

theorem textUpTo_chars (closing t : Text) (rest : List Lexeme) :
    textUpTo closing (t.map .char ++ .tag closing :: rest) = some t := by
  induction t with
  | nil => exact if_pos rfl
  | cons c t ih => rw [List.map_cons, List.cons_append, textUpTo, ih, Option.map_some]

/-- An element that holds a text is the only one of its class if no other one begins behind it. -/
theorem elementTexts_singleton {t : Text} (hclosing : opening ≠ closing)
    (hrest : .tag opening ∉ rest) :
    elementTexts opening closing (.tag opening :: (t.map .char ++ .tag closing :: rest)) =
      [some t] := by
  rw [elementTexts, if_pos rfl, textUpTo_chars, elementTexts_eq_nil]
  · rfl
  · rw [List.mem_append, List.mem_cons, not_or, not_or]
    exact ⟨by simp, fun h => hclosing (Lexeme.tag.inj h), hrest⟩

end Elements

/-! ## Well-nested fragments -/

theorem IsClassName.append {name more : Text} (h : IsClassName name) (hmore : IsClassName more) :
    IsClassName (name ++ more) :=
  fun c hc => (List.mem_append.1 hc).elim (h c) (hmore c)

theorem IsClassName.not_mem_spanTag {name : Text} (h : IsClassName name) : '>' ∉ spanTag name :=
  Html.not_mem_spanTag fun hmem => h '>' hmem (by decide)

/-- Different classes have different opening tags. -/
theorem spanTag_injective {name other : Text} (h : spanTag name = spanTag other) : name = other :=
  List.append_cancel_left (List.append_cancel_right h)

/-- No opening tag is a closing one. -/
theorem spanTag_ne_closing (name : Text) : spanTag name ≠ "/span".toList := by
  intro h
  have hhead : (spanTag name).head? = some 's' := rfl
  rw [h] at hhead
  exact absurd hhead (by decide)

theorem lexemesFrom_openTag {name : Text} (h : IsClassName name) (rest : Text) :
    lexemesFrom none (openTag name ++ rest) = .tag (spanTag name) :: lexemesFrom none rest := by
  rw [openTag_eq, List.cons_append, List.append_assoc, List.singleton_append,
    lexemesFrom_tag h.not_mem_spanTag]

theorem lexemesFrom_closeTag (rest : Text) :
    lexemesFrom none (closeTag ++ rest) = .tag "/span".toList :: lexemesFrom none rest := by
  have hclose : closeTag = '<' :: ("/span".toList ++ ['>']) := by decide
  rw [hclose, List.cons_append, List.append_assoc, List.singleton_append,
    lexemesFrom_tag (by decide)]

/-- What is written of a text has no tags. -/
theorem lexemesFrom_escape (t : Text) :
    lexemesFrom none (escape t) = (escape t).map .char := by
  have h := lexemesFrom_text (not_mem_escape (by decide) t) []
  rwa [List.append_nil, lexemesFrom, List.append_nil] at h

namespace WellNested

variable {markup more : Text}

theorem append (h : WellNested markup) (hmore : WellNested more) : WellNested (markup ++ more) := by
  induction h with
  | nil => exact hmore
  | char c rest hc _ ih => exact .char c _ hc ih
  | entity name rest hname _ ih =>
      rw [List.cons_append, List.append_assoc, List.cons_append]
      exact .entity name _ hname ih
  | element className inner rest hclass hinner _ _ ih =>
      rw [List.append_assoc]
      exact .element className inner _ hclass hinner ih

theorem flatMap {α : Type} {f : α → Text} (list : List α) (h : ∀ a ∈ list, WellNested (f a)) :
    WellNested (list.flatMap f) := by
  induction list with
  | nil => exact .nil
  | cons a list ih =>
      exact (h a List.mem_cons_self).append (ih fun b hb => h b (List.mem_cons_of_mem a hb))

/-- Characters that mean nothing may stand there as they are. -/
theorem text {t : Text} (h : ∀ c ∈ t, c ∉ ['<', '>', '&', '\n']) : WellNested t := by
  induction t with
  | nil => exact .nil
  | cons c t ih =>
      exact .char c t (h c List.mem_cons_self) (ih fun d hd => h d (List.mem_cons_of_mem c hd))

/-- A text on one line is written as well-nested markup. -/
theorem escape {t : Text} (ht : '\n' ∉ t) : WellNested (Html.escape t) := by
  refine flatMap t fun c hc => ?_
  have hline : c ≠ '\n' := fun h => ht (h ▸ hc)
  have hentity : ∀ {written : Text}, (∃ name ∈ entityNames, written = '&' :: (name ++ [';'])) →
      WellNested written := by
    rintro _ ⟨name, hname, rfl⟩
    exact .entity name [] hname .nil
  refine escapeChar_cases (motive := fun c t => c ≠ '\n' → WellNested t)
    (fun _ => hentity (by decide)) (fun _ => hentity (by decide)) (fun _ => hentity (by decide))
    (fun _ => hentity (by decide)) (fun _ => hentity (by decide)) ?_ c hline
  intro c hc hline
  exact .char c [] (by simp_all) .nil

theorem wrap (h : WellNested markup) {className : Text} (hclass : IsClassName className) :
    WellNested (openTag className ++ markup ++ closeTag) := by
  rw [← List.append_nil (_ ++ closeTag)]
  exact .element className markup [] hclass h .nil

theorem newline_not_mem (h : WellNested markup) : '\n' ∉ markup := by
  induction h with
  | nil => exact List.not_mem_nil
  | char c rest hc _ ih =>
      rw [List.mem_cons, not_or]
      refine ⟨?_, ih⟩
      rintro rfl
      exact hc (by decide)
  | entity name rest hname _ ih =>
      have hnoFeed : ∀ name ∈ entityNames, '\n' ∉ name := by decide
      simp [hnoFeed name hname, ih]
  | element className inner rest hclass _ _ hinner hrest =>
      have hclassName : '\n' ∉ className := fun hmem => hclass '\n' hmem (by decide)
      have hopen : '\n' ∉ openTag className := by
        have hfront : '\n' ∉ "<span class=\"".toList := by decide
        unfold openTag
        rw [List.mem_append, List.mem_append, not_or, not_or]
        exact ⟨⟨hfront, hclassName⟩, by decide⟩
      have hclose : '\n' ∉ closeTag := by decide
      simp only [List.mem_append, not_or]
      exact ⟨⟨⟨hopen, hinner⟩, hclose⟩, hrest⟩

/-- Behind well-nested markup all tags are closed. -/
theorem lexemesFrom_append (h : WellNested markup) (rest : Text) :
    lexemesFrom none (markup ++ rest) = lexemesFrom none markup ++ lexemesFrom none rest := by
  induction h generalizing rest with
  | nil => rfl
  | char c more hc _ ih =>
      have hopen : c ≠ '<' := by
        rintro rfl
        exact hc (by decide)
      rw [List.cons_append, lexemesFrom, lexemesFrom, if_neg hopen, if_neg hopen, ih]
      rfl
  | entity name more hname _ ih =>
      have hnoTag : ∀ name ∈ entityNames, '<' ∉ '&' :: (name ++ [';']) := by decide
      have hsplit : ∀ rest : Text, '&' :: (name ++ ';' :: rest) = '&' :: (name ++ [';']) ++ rest :=
        fun rest => by simp
      rw [hsplit, List.append_assoc, lexemesFrom_text (hnoTag name hname),
        lexemesFrom_text (hnoTag name hname), ih, List.append_assoc]
  | element className inner more hclass _ _ hinner hmore =>
      simp only [List.append_assoc]
      rw [lexemesFrom_openTag hclass, lexemesFrom_openTag hclass, hinner,
        hinner (closeTag ++ more), lexemesFrom_closeTag, lexemesFrom_closeTag, hmore]
      simp only [List.cons_append, List.append_assoc]

theorem lexemesFrom_flatMap {α : Type} {f : α → Text} (list : List α)
    (h : ∀ a ∈ list, WellNested (f a)) :
    lexemesFrom none (list.flatMap f) = list.flatMap fun a => lexemesFrom none (f a) := by
  induction list with
  | nil => rfl
  | cons a list ih =>
      rw [List.flatMap_cons, List.flatMap_cons, (h a List.mem_cons_self).lexemesFrom_append,
        ih fun b hb => h b (List.mem_cons_of_mem a hb)]

theorem lexemesFrom_wrap (h : WellNested markup) {className : Text}
    (hclass : IsClassName className) :
    lexemesFrom none (openTag className ++ markup ++ closeTag) =
      .tag (spanTag className) :: (lexemesFrom none markup ++ [.tag "/span".toList]) := by
  have hclose : lexemesFrom none closeTag = [.tag "/span".toList] := by decide
  rw [List.append_assoc, lexemesFrom_openTag hclass, h.lexemesFrom_append, hclose]

end WellNested

end CodeHighlight.Html
