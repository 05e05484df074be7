import CodeHighlight.Proofs.Scan.Coverage

/-!
# The tokens of the default rules

`Grammar.IsToken` says which stretches of a text are tokens, and `Leftmost` takes them one after the
other, always the one that starts first.  Neither mentions a scan.  A grammar with the default rules
finds exactly this sequence.

Where no rule finds a token, the cursor moves on by one place or jumps over a word that is in
neither word list.  No token starts in between: inside a word a keyword, a literal or a numeral
would have a word character before it, and a quoted string does not begin with one.
-/

namespace CodeHighlight

/-! ## Tokens of a text -/

/-- The lexeme is a token between the text before it and the text after it. -/
inductive Grammar.IsToken (grammar : Grammar) (before lexeme after : Text) : Category → Prop
  | keyword (hword : IsWord lexeme) (hbefore : before.getLast?.any isWordChar = false)
      (hafter : after.head?.any isWordChar = false) (hmem : lexeme ∈ grammar.keywords) :
      IsToken grammar before lexeme after .keyword
  | literal (hword : IsWord lexeme) (hbefore : before.getLast?.any isWordChar = false)
      (hafter : after.head?.any isWordChar = false) (hmem : lexeme ∈ grammar.literals) :
      IsToken grammar before lexeme after .literal
  | string (hquoted : IsQuoted ['"', '\''] lexeme) : IsToken grammar before lexeme after .string
  | number (hlongest : Longest numerals lexeme after)
      (hbefore : before.getLast?.any isWordChar = false)
      (hafter : after.head?.any isWordChar = false) : IsToken grammar before lexeme after .number

/-- The span is a token of the source. -/
def Grammar.HasToken (grammar : Grammar) (source : Source) (span : Span) : Prop :=
  ∃ before lexeme after category, source.text = before ++ lexeme ++ after ∧
    grammar.IsToken before lexeme after category ∧
    span = Span.ofLexeme category lexeme before.length

/-- The tokens that are found from a position on by taking, again and again, the token with the
least start that does not lie before the end of the last one. -/
inductive Leftmost (IsToken : Span → Prop) : Int → List Span → Prop
  | done (position : Int) (hnone : ∀ other, IsToken other → other.start < position) :
      Leftmost IsToken position []
  | next (position : Int) (token : Span) (rest : List Span) (htoken : IsToken token)
      (hstart : position ≤ token.start)
      (hleast : ∀ other, IsToken other → position ≤ other.start → token.start ≤ other.start)
      (hrest : Leftmost IsToken token.stop rest) : Leftmost IsToken position (token :: rest)

/-- The places that some offsets are moved to stand in the order of the offsets. -/
def KeepsOrder (place : Int → Int) (offsets : Int → Prop) : Prop :=
  ∀ first last, offsets first → offsets last → first < last → place first < place last

namespace KeepsOrder

variable {place : Int → Int} {offsets : Int → Prop} {first last : Int}

theorem lt_iff_lt (h : KeepsOrder place offsets) (hfirst : offsets first) (hlast : offsets last) :
    place first < place last ↔ first < last := by
  constructor
  · intro hlt
    by_contra hle
    rcases Int.lt_or_eq_of_le (Int.not_lt.1 hle) with hgt | rfl
    · have hplace := h last first hlast hfirst hgt
      omega
    · exact Int.lt_irrefl _ hlt
  · exact h first last hfirst hlast

theorem le_iff_le (h : KeepsOrder place offsets) (hfirst : offsets first) (hlast : offsets last) :
    place first ≤ place last ↔ first ≤ last := by
  rw [← Int.not_lt, ← Int.not_lt, h.lt_iff_lt hlast hfirst]

end KeepsOrder

namespace Leftmost

variable {IsToken : Span → Prop} {position : Int} {tokens : List Span}

/-- Where no token starts, the search for the next one may begin later. -/
theorem skip {later : Int} (h : Leftmost IsToken later tokens) (hle : position ≤ later)
    (hnone : ∀ other, IsToken other → position ≤ other.start → later ≤ other.start) :
    Leftmost IsToken position tokens := by
  cases h with
  | done _ hend =>
      refine .done position ?_
      intro other hother
      have hbefore := hend other hother
      apply Int.lt_of_not_ge
      intro hge
      have hlater := hnone other hother hge
      omega
  | next _ token rest htoken hstart hleast hrest =>
      refine .next position token rest htoken (by omega) ?_ hrest
      intro other hother hge
      exact hleast other hother (hnone other hother hge)

/-- If no two tokens start at the same place, there is only one such sequence. -/
theorem unique (h : Leftmost IsToken position tokens)
    (hstarts : ∀ token other, IsToken token → IsToken other → token.start = other.start →
      token = other) {others : List Span} (hothers : Leftmost IsToken position others) :
    tokens = others := by
  induction h generalizing others with
  | done position hnone =>
      cases hothers with
      | done => rfl
      | next _ token _ htoken hstart =>
          have hbefore := hnone token htoken
          omega
  | next position token rest htoken hstart hleast _ ih =>
      -- Each of the two tokens that come next starts no later than the other.
      cases hothers with
      | done _ hnone =>
          have hbefore := hnone token htoken
          omega
      | next _ other more hother hothersStart hothersLeast hmore =>
          have hle := hleast other hother hothersStart
          have hge := hothersLeast token htoken hstart
          obtain rfl := hstarts token other htoken hother (by omega)
          rw [ih hmore]

/-- Tokens that are moved, but keep their order, are found in that order where they are then. -/
theorem map (h : Leftmost IsToken position tokens) {move : Span → Span} {place : Int → Int}
    {offsets : Int → Prop} (hplace : KeepsOrder place offsets)
    (hmove : ∀ span, (move span).start = place span.start ∧ (move span).stop = place span.stop)
    (hposition : offsets position)
    (htokens : ∀ token, IsToken token → offsets token.start ∧ offsets token.stop) :
    Leftmost (fun span => ∃ other, IsToken other ∧ span = move other) (place position)
      (tokens.map move) := by
  induction h with
  | done position hnone =>
      refine .done (place position) ?_
      rintro _ ⟨other, hother, rfl⟩
      rw [(hmove other).1]
      exact hplace _ _ (htokens other hother).1 hposition (hnone other hother)
  | next position token rest htoken hstart hleast _ ih =>
      obtain ⟨hfirst, hlast⟩ := htokens token htoken
      have hrest := ih hlast
      rw [← (hmove token).2] at hrest
      refine .next (place position) (move token) _ ⟨token, htoken, rfl⟩ ?_ ?_ hrest
      · rw [(hmove token).1]
        exact (hplace.le_iff_le hposition hfirst).2 hstart
      · rintro _ ⟨other, hother, rfl⟩ hge
        rw [(hmove other).1] at hge ⊢
        rw [(hmove token).1]
        have hother' := (htokens other hother).1
        exact (hplace.le_iff_le hfirst hother').2
          (hleast other hother ((hplace.le_iff_le hposition hother').1 hge))

end Leftmost

/-! ## First characters of lexemes -/

private theorem toNat_lt_of_isSign {c : Char} (h : isSign c = true) : c.toNat < 0x30 := by
  simp only [isSign, Bool.or_eq_true, beq_iff_eq] at h
  rcases h with rfl | rfl <;> decide

private theorem toNat_lt_of_mem_marks {mark : Char} (h : mark ∈ ['"', '\'']) :
    mark.toNat < 0x28 := by
  rcases List.mem_cons.1 h with rfl | h
  · decide
  · rw [List.mem_singleton.1 h]
    decide

/-- A quoted string begins with a character that no word contains and no numeral begins with. -/
theorem IsQuoted.exists_cons {lexeme : Text} (h : IsQuoted ['"', '\''] lexeme) :
    ∃ mark rest, lexeme = mark :: rest ∧ mark.toNat < 0x28 := by
  obtain ⟨mark, hmark, -, body, -, rfl⟩ := h
  exact ⟨mark, body ++ [mark], rfl, toNat_lt_of_mem_marks hmark⟩

/-- A numeral begins with a character with which no word begins, nor a quoted string. -/
theorem exists_cons_of_mem_numerals {lexeme : Text} (h : lexeme ∈ numerals) :
    ∃ c rest, lexeme = c :: rest ∧ 0x28 ≤ c.toNat ∧ c.toNat < 0x41 := by
  obtain ⟨decimal, hdecimal, exponent, -, rfl⟩ := Language.mem_mul.1 h
  obtain ⟨integer, hinteger, fraction, -, rfl⟩ := Language.mem_mul.1 hdecimal
  obtain ⟨sign, hsign, whole, hwhole, rfl⟩ := Language.mem_mul.1 hinteger
  rcases hsign with rfl | hsign
  · obtain ⟨c, rest, rfl, hc⟩ := exists_cons_of_mem_mul hwhole
    have hbounds := (isDigit_iff c).1 hc
    exact ⟨c, _, rfl, by omega, by omega⟩
  · obtain ⟨c, hc, rfl⟩ := mem_oneOf.1 hsign
    have hbound := toNat_lt_of_isSign hc
    refine ⟨c, _, rfl, ?_, by omega⟩
    simp only [isSign, Bool.or_eq_true, beq_iff_eq] at hc
    rcases hc with rfl | rfl <;> decide

theorem IsWord.exists_cons {lexeme : Text} (h : IsWord lexeme) :
    ∃ c rest, lexeme = c :: rest ∧ 0x41 ≤ c.toNat := by
  obtain ⟨first, body, hfirst, -, rfl⟩ := h
  exact ⟨first, body, rfl, le_toNat_of_isWordStart hfirst⟩

namespace Grammar

variable {grammar : Grammar} {source : Source} {span : Span} {position : Int}

theorem IsToken.ne_nil {before lexeme after : Text} {category : Category}
    (h : grammar.IsToken before lexeme after category) : lexeme ≠ [] := by
  cases h with
  | keyword hword =>
      obtain ⟨c, rest, rfl, -⟩ := hword.exists_cons
      exact List.cons_ne_nil c rest
  | literal hword =>
      obtain ⟨c, rest, rfl, -⟩ := hword.exists_cons
      exact List.cons_ne_nil c rest
  | string hquoted =>
      obtain ⟨c, rest, rfl, -⟩ := hquoted.exists_cons
      exact List.cons_ne_nil c rest
  | number hlongest =>
      obtain ⟨c, rest, rfl, -⟩ := exists_cons_of_mem_numerals hlongest.mem
      exact List.cons_ne_nil c rest

theorem IsToken.not_plain {before lexeme after : Text} {category : Category}
    (h : grammar.IsToken before lexeme after category) : category ≠ .plain := by
  cases h <;> decide

/-- The tokens that start at a position, in terms of the stretch ahead of it. -/
theorem hasToken_iff (hposition : 0 ≤ position) (hle : position ≤ source.length) :
    (grammar.HasToken source span ∧ span.start = position) ↔
      ∃ lexeme rest category, source.slice position source.length = lexeme ++ rest ∧
        grammar.IsToken (source.slice 0 position) lexeme rest category ∧
        span = Span.ofLexeme category lexeme position := by
  constructor
  · rintro ⟨⟨before, lexeme, after, category, htext, htoken, rfl⟩, rfl⟩
    rw [List.append_assoc, ← source.slice_zero_length] at htext
    have hsplit := source.slice_split (Int.le_refl 0) source.length_nonneg htext
    rw [Int.zero_add] at hsplit
    refine ⟨lexeme, after, category, hsplit.2, ?_, rfl⟩
    show grammar.IsToken (source.slice 0 before.length) lexeme after category
    rw [hsplit.1]
    exact htoken
  · rintro ⟨lexeme, rest, category, hsplit, htoken, rfl⟩
    refine ⟨⟨source.slice 0 position, lexeme, rest, category, ?_, htoken, ?_⟩, rfl⟩
    · rw [List.append_assoc, ← hsplit, source.slice_append (Int.le_refl 0) hposition hle,
        source.slice_zero_length]
    · rw [source.length_slice (Int.le_refl 0) hposition hle]
      congr 1
      omega

/-- A token lies inside the source and is not empty. -/
theorem HasToken.bounds (h : grammar.HasToken source span) :
    0 ≤ span.start ∧ span.start < span.stop ∧ span.stop ≤ source.length ∧
      span.category ≠ .plain := by
  obtain ⟨before, lexeme, after, category, htext, htoken, rfl⟩ := h
  have hlength := congrArg List.length htext
  have hpositive := List.length_pos_of_ne_nil htoken.ne_nil
  rw [List.length_append, List.length_append] at hlength
  rw [source.length_eq]
  refine ⟨?_, ?_, ?_, htoken.not_plain⟩
  · show (0 : Int) ≤ before.length
    omega
  · show (before.length : Int) < before.length + lexeme.length
    omega
  · show (before.length : Int) + lexeme.length ≤ source.text.length
    omega

/-- A token carries the text between its offsets. -/
theorem HasToken.text_eq (h : grammar.HasToken source span) :
    span.text = source.slice span.start span.stop := by
  obtain ⟨hposition, hnonempty, hstop, -⟩ := h.bounds
  obtain ⟨lexeme, rest, category, hsplit, -, hspan⟩ :=
    (hasToken_iff hposition (by omega)).1 ⟨h, rfl⟩
  have hslice := (source.slice_split hposition source.length_nonneg hsplit).1
  have htext := congrArg Span.text hspan
  have hend := congrArg Span.stop hspan
  rw [htext, hend]
  exact hslice.symm

theorem spaced_of_leftmost {tokens : List Span}
    (h : Leftmost (grammar.HasToken source) position tokens) (hle : position ≤ source.length) :
    Spaced source position source.length tokens := by
  induction h with
  | done position => exact .nil position source.length hle
  | next position token rest htoken hstart _ _ ih =>
      obtain ⟨-, hnonempty, hstop, hcategory⟩ := htoken.bounds
      exact .cons position source.length token rest hstart hnonempty htoken.text_eq hcategory
        (ih hstop)

/-! ## What the default rules claim -/

section DefaultRules

variable (grammar source)

/-- Nothing is claimed where all that could be claimed begins with another character. -/
private theorem answer_eq_none {rule : Rule} {claim : Option Span}
    (hanswer : rule.answer source.reader position source.length = .ok claim) {p : Char → Prop}
    (hfirst : ∀ span ∈ claim, ∃ first rest, source.slice position source.length = first :: rest ∧
      p first)
    {c : Char} {rest : Text} (hslice : source.slice position source.length = c :: rest)
    (hc : ¬ p c) : rule.answer source.reader position source.length = .ok none := by
  rw [hanswer]
  cases claim with
  | none => rfl
  | some span =>
      obtain ⟨first, more, hsame, hp⟩ := hfirst span rfl
      rw [hslice] at hsame
      obtain ⟨rfl, -⟩ := List.cons.inj hsame
      exact absurd hp hc

/-- No word begins with a character before the letters. -/
private theorem word_answer_eq_none (hposition : 0 ≤ position) (hlt : position < source.length)
    {c : Char} {rest : Text} (hslice : source.slice position source.length = c :: rest)
    (hc : ¬ 0x41 ≤ c.toNat) :
    (Rule.word grammar.keywords grammar.literals).answer source.reader position source.length =
      .ok none := by
  obtain ⟨claim, hclaim, hexact⟩ := Reader.wordAt_exact source grammar.keywords grammar.literals
    hposition hlt (Int.le_refl source.length)
  rw [← Rule.answer_word] at hclaim
  refine answer_eq_none source hclaim (p := fun c => 0x41 ≤ c.toNat) ?_ hslice hc
  intro span hspan
  obtain ⟨lexeme, after, hsplit, hword, -⟩ := (hexact span).1 hspan
  obtain ⟨first, body, rfl, hfirst⟩ := hword.exists_cons
  exact ⟨first, body ++ after, hsplit, hfirst⟩

/-- No quoted string begins with a character behind the quotation marks. -/
private theorem quoted_answer_eq_none (hposition : 0 ≤ position) (hlt : position < source.length)
    {c : Char} {rest : Text} (hslice : source.slice position source.length = c :: rest)
    (hc : ¬ c.toNat < 0x28) :
    Rule.quotedString.answer source.reader position source.length = .ok none := by
  obtain ⟨claim, hclaim, hexact⟩ :=
    Reader.quotedAt_forgetful source ['"', '\''] hposition hlt (Int.le_refl source.length)
  refine answer_eq_none source (Rule.answer_quoted hclaim) (p := fun c => c.toNat < 0x28) ?_
    hslice hc
  intro span hspan
  obtain ⟨lexeme, after, hsplit, hquoted, -⟩ := (hexact span).1 hspan
  obtain ⟨first, body, rfl, hfirst⟩ := hquoted.exists_cons
  exact ⟨first, body ++ after, hsplit, hfirst⟩

/-- Where a token stands, it is claimed. -/
theorem firstAnswer_of_isToken (hrules : grammar.rules = defaultRules) (hposition : 0 ≤ position)
    (hlt : position < source.length) {lexeme rest : Text} {category : Category}
    (hsplit : source.slice position source.length = lexeme ++ rest)
    (htoken : grammar.IsToken (source.slice 0 position) lexeme rest category) :
    firstAnswer source.reader position source.length grammar.allRules =
      .ok (some (Span.ofLexeme category lexeme position)) := by
  obtain ⟨claim, hclaim, hexact⟩ := Reader.wordAt_exact source grammar.keywords grammar.literals
    hposition hlt (Int.le_refl source.length)
  rw [← Rule.answer_word] at hclaim
  rw [allRules, hrules]
  cases htoken with
  | keyword hword hbefore hafter hmem =>
      have hcategory : wordCategory grammar.keywords grammar.literals lexeme = .keyword :=
        if_pos hmem
      rw [(hexact _).2 ⟨lexeme, rest, hsplit, hword, hbefore, hafter, rfl⟩, hcategory] at hclaim
      exact firstAnswer_of_some hclaim
  | literal hword hbefore hafter hmem =>
      have hkeyword : lexeme ∉ grammar.keywords := fun h => grammar.disjoint lexeme h hmem
      have hcategory : wordCategory grammar.keywords grammar.literals lexeme = .literal := by
        rw [wordCategory, if_neg hkeyword, if_pos hmem]
      rw [(hexact _).2 ⟨lexeme, rest, hsplit, hword, hbefore, hafter, rfl⟩, hcategory] at hclaim
      exact firstAnswer_of_some hclaim
  | string hquoted =>
      obtain ⟨mark, body, rfl, hmark⟩ := hquoted.exists_cons
      obtain ⟨string, hstring, hquotedExact⟩ :=
        Reader.quotedAt_forgetful source ['"', '\''] hposition hlt (Int.le_refl source.length)
      have hnoWord := word_answer_eq_none grammar source hposition hlt hsplit (by omega)
      rw [(hquotedExact _).2 ⟨_, rest, hsplit, hquoted, rfl⟩] at hstring
      rw [firstAnswer_of_none hnoWord]
      exact firstAnswer_of_some (Rule.answer_quoted hstring)
  | number hlongest hbefore hafter =>
      obtain ⟨c, body, rfl, hge, hle⟩ := exists_cons_of_mem_numerals hlongest.mem
      obtain ⟨number, hnumber, hnumberExact⟩ :=
        Reader.numeralAt_exact source hposition hlt (Int.le_refl source.length)
      have hnoWord := word_answer_eq_none grammar source hposition hlt hsplit (by omega)
      have hnoString := quoted_answer_eq_none source hposition hlt hsplit (by omega)
      rw [(hnumberExact _).2 ⟨_, rest, hsplit, hlongest, hbefore, hafter, rfl⟩,
        ← Rule.answer_numeral] at hnumber
      rw [firstAnswer_of_none hnoWord]
      show firstAnswer source.reader position source.length [.quotedString, .numeral] = _
      rw [firstAnswer_of_none hnoString]
      exact firstAnswer_of_some hnumber

/-- What is claimed is a token, or a word in neither word list. -/
theorem isToken_or_word_of_firstAnswer (hrules : grammar.rules = defaultRules)
    (hposition : 0 ≤ position) (hlt : position < source.length)
    (h : firstAnswer source.reader position source.length grammar.allRules = .ok (some span)) :
    ∃ lexeme rest category, source.slice position source.length = lexeme ++ rest ∧
      span = Span.ofLexeme category lexeme position ∧
      (grammar.IsToken (source.slice 0 position) lexeme rest category ∨
        category = .plain ∧ IsWord lexeme) := by
  obtain ⟨rule, hmem, hrule⟩ := exists_rule_of_firstAnswer h nofun
  rw [allRules, hrules] at hmem
  rcases List.mem_cons.1 hmem with rfl | hmem
  · obtain ⟨claim, hclaim, hexact⟩ := Reader.wordAt_exact source grammar.keywords grammar.literals
      hposition hlt (Int.le_refl source.length)
    rw [Rule.answer_word, hclaim] at hrule
    obtain ⟨lexeme, rest, hsplit, hword, hbefore, hafter, rfl⟩ :=
      (hexact span).1 (Except.ok.inj hrule)
    refine ⟨lexeme, rest, _, hsplit, rfl, ?_⟩
    unfold wordCategory
    by_cases hkeyword : lexeme ∈ grammar.keywords
    · rw [if_pos hkeyword]
      exact .inl (.keyword hword hbefore hafter hkeyword)
    · rw [if_neg hkeyword]
      by_cases hliteral : lexeme ∈ grammar.literals
      · rw [if_pos hliteral]
        exact .inl (.literal hword hbefore hafter hliteral)
      · rw [if_neg hliteral]
        exact .inr ⟨rfl, hword⟩
  · rcases List.mem_cons.1 hmem with rfl | hmem
    · obtain ⟨claim, hclaim, hexact⟩ :=
        Reader.quotedAt_forgetful source ['"', '\''] hposition hlt (Int.le_refl source.length)
      rw [Rule.quotedString, Rule.answer_quoted hclaim] at hrule
      obtain ⟨lexeme, rest, hsplit, hquoted, rfl⟩ := (hexact span).1 (Except.ok.inj hrule)
      exact ⟨lexeme, rest, _, hsplit, rfl, .inl (.string hquoted)⟩
    · obtain rfl := List.mem_singleton.1 hmem
      obtain ⟨claim, hclaim, hexact⟩ :=
        Reader.numeralAt_exact source hposition hlt (Int.le_refl source.length)
      rw [Rule.answer_numeral, hclaim] at hrule
      obtain ⟨lexeme, rest, hsplit, hlongest, hbefore, hafter, rfl⟩ :=
        (hexact span).1 (Except.ok.inj hrule)
      exact ⟨lexeme, rest, _, hsplit, rfl, .inl (.number hlongest hbefore hafter)⟩

theorem exists_firstAnswer (hrules : grammar.rules = defaultRules) (hposition : 0 ≤ position)
    (hlt : position < source.length) :
    ∃ claim, firstAnswer source.reader position source.length grammar.allRules = .ok claim := by
  cases hanswer : firstAnswer source.reader position source.length grammar.allRules with
  | ok claim => exact ⟨claim, rfl⟩
  | error e =>
      obtain ⟨rule, hmem, hrule⟩ := exists_rule_of_firstAnswer hanswer nofun
      have hlibrary : ∀ label claim, rule ≠ .custom label claim := by
        rintro label claim rfl
        rw [allRules, hrules] at hmem
        simp [defaultRules, Rule.quotedString] at hmem
      obtain ⟨claim, hclaim, -⟩ :=
        rule.exists_answer hlibrary hposition hlt (Int.le_refl source.length)
      rw [hclaim] at hrule
      contradiction

/-- A token that starts at a position is what is claimed there. -/
theorem firstAnswer_of_hasToken (hrules : grammar.rules = defaultRules)
    (h : grammar.HasToken source span) :
    firstAnswer source.reader span.start source.length grammar.allRules = .ok (some span) := by
  obtain ⟨hposition, hnonempty, hstop, -⟩ := h.bounds
  obtain ⟨lexeme, rest, category, hsplit, htoken, hspan⟩ :=
    (hasToken_iff hposition (by omega)).1 ⟨h, rfl⟩
  have hanswer := firstAnswer_of_isToken grammar source hrules hposition (by omega) hsplit htoken
  rw [← hspan] at hanswer
  exact hanswer

/-- No two tokens start at the same place. -/
theorem hasToken_start_injective (hrules : grammar.rules = defaultRules) (token other : Span)
    (htoken : grammar.HasToken source token) (hother : grammar.HasToken source other)
    (hstart : token.start = other.start) : token = other := by
  have hfirst := firstAnswer_of_hasToken grammar source hrules htoken
  have hsecond := firstAnswer_of_hasToken grammar source hrules hother
  rw [hstart, hsecond] at hfirst
  exact (Option.some.inj (Except.ok.inj hfirst)).symm

/-! ## The run -/

/-- No token starts inside a word. -/
theorem le_start_of_isWord {lexeme rest : Text} (hposition : 0 ≤ position)
    (hsplit : source.slice position source.length = lexeme ++ rest) (hword : IsWord lexeme)
    {other : Span} (hother : grammar.HasToken source other) (hlt : position < other.start) :
    position + lexeme.length ≤ other.start := by
  apply Int.le_of_not_gt
  intro hinside
  obtain ⟨-, hnonempty, hstop, -⟩ := hother.bounds
  -- The word falls into a part before the token and a part that the token begins in.
  let front := lexeme.take (other.start - position).toNat
  let back := lexeme.drop (other.start - position).toNat
  have hparts : lexeme = front ++ back := (List.take_append_drop _ lexeme).symm
  have hfront : position + (front.length : Int) = other.start := by
    rw [List.length_take]
    omega
  have hall : ∀ c ∈ lexeme, isWordChar c = true := hword.all_isWordChar
  rw [hparts, List.append_assoc] at hsplit
  have hslices := source.slice_split hposition source.length_nonneg hsplit
  rw [hfront] at hslices
  obtain ⟨token, after, category, hahead, htoken, -⟩ :=
    (hasToken_iff (by omega) (by omega)).1 ⟨hother, rfl⟩
  have hbehind : (source.slice 0 other.start).getLast?.any isWordChar = true := by
    have hlast : (source.slice 0 other.start).getLast? = front.getLast? := by
      rw [← hslices.1]
      exact source.behind_eq_getLast? hposition hlt (by omega)
    have hne : front ≠ [] := by
      intro hnil
      rw [hnil, List.length_nil] at hfront
      omega
    rw [hlast, List.getLast?_eq_some_getLast hne]
    exact hall _ (List.mem_of_mem_take (List.getLast_mem hne))
  -- All but quoted strings ask for no word character before them.
  cases htoken with
  | keyword _ hbefore => exact Bool.false_ne_true (hbefore.symm.trans hbehind)
  | literal _ hbefore => exact Bool.false_ne_true (hbefore.symm.trans hbehind)
  | number _ hbefore => exact Bool.false_ne_true (hbefore.symm.trans hbehind)
  | string hquoted =>
      obtain ⟨mark, body, rfl, hmark⟩ := hquoted.exists_cons
      have hchar : mark ∈ back := by
        cases hback : back with
        | nil =>
            have hlength := congrArg List.length hback
            rw [List.length_drop, List.length_nil] at hlength
            omega
        | cons c more =>
            have hsame := hslices.2.symm.trans hahead
            rw [hback] at hsame
            obtain ⟨rfl, -⟩ := List.cons.inj hsame
            exact List.mem_cons_self
      have hbound := le_toNat_of_isWordChar (hall mark (List.mem_of_mem_drop hchar))
      omega

/-- A lexeme that stands at a position is acceptable there. -/
theorem acceptable_ofLexeme (hposition : 0 ≤ position) (hlt : position < source.length)
    {lexeme rest : Text} (hsplit : source.slice position source.length = lexeme ++ rest)
    (hne : lexeme ≠ []) (category : Category) :
    (Span.ofLexeme category lexeme position).Acceptable position source.length := by
  have hpositive := List.length_pos_of_ne_nil hne
  have hlength := congrArg List.length hsplit
  rw [source.length_slice hposition (by omega) (Int.le_refl _), List.length_append] at hlength
  refine ⟨rfl, ?_, ?_⟩
  · show position < position + lexeme.length
    omega
  · show position + lexeme.length ≤ source.length
    omega

/-- One step of the run finds a token where one stands, and passes no token where none does. -/
theorem leftmost_step (hrules : grammar.rules = defaultRules) (hposition : 0 ≤ position)
    (hlt : position < source.length) {claim : Option Span}
    (hclaim : firstAnswer source.reader position source.length grammar.allRules = .ok claim)
    {rest : List Span}
    (h : Leftmost (grammar.HasToken source)
      ((judge position source.length claim).next position) rest) :
    Leftmost (grammar.HasToken source) position
      ((judge position source.length claim).tokens ++ rest) := by
  -- A token that starts here would be the claim.
  have hhere : ∀ other, grammar.HasToken source other → other.start = position →
      claim = some other := by
    rintro other hother rfl
    exact Except.ok.inj (hclaim.symm.trans (firstAnswer_of_hasToken grammar source hrules hother))
  cases claim with
  | none =>
      refine h.skip (Int.le_of_lt (lt_next_judge position source.length none)) ?_
      intro other hother hge
      have hne : other.start ≠ position := fun hstart => nomatch hhere other hother hstart
      show position + 1 ≤ other.start
      omega
  | some span =>
      obtain ⟨lexeme, after, category, hsplit, rfl, hkind⟩ :=
        isToken_or_word_of_firstAnswer grammar source hrules hposition hlt hclaim
      rcases hkind with htoken | ⟨rfl, hword⟩
      · have haccept :=
          acceptable_ofLexeme source hposition hlt hsplit htoken.ne_nil category
        have hjudge : judge position source.length (some (Span.ofLexeme category lexeme position)) =
            .token (Span.ofLexeme category lexeme position) := by
          rw [judge, if_pos haccept]
          exact if_neg htoken.not_plain
        have hhas := (hasToken_iff hposition (Int.le_of_lt hlt)).2
          ⟨lexeme, after, category, hsplit, htoken, rfl⟩
        rw [hjudge] at h ⊢
        exact .next position _ rest hhas.1 (Int.le_refl position) (fun other _ hge => hge) h
      · -- The cursor jumps over the word, in which no token starts.
        obtain ⟨c, body, hlexeme, -⟩ := hword.exists_cons
        have hne : lexeme ≠ [] := hlexeme ▸ List.cons_ne_nil c body
        have haccept := acceptable_ofLexeme source hposition hlt hsplit hne .plain
        have hjudge : judge position source.length (some (Span.ofLexeme .plain lexeme position)) =
            .absorbed (position + lexeme.length) := by
          rw [judge, if_pos haccept]
          exact if_pos rfl
        rw [hjudge] at h ⊢
        refine h.skip (show position ≤ position + lexeme.length by omega) ?_
        intro other hother hge
        have hstart : other.start ≠ position := by
          intro hsame
          obtain ⟨-, -, -, hcategory⟩ := hother.bounds
          rw [← Option.some.inj (hhere other hother hsame)] at hcategory
          exact hcategory rfl
        exact le_start_of_isWord grammar source hposition hsplit hword hother (by omega)

/-- From any position on the rules find the tokens one after the other. -/
theorem exists_leftmost (hrules : grammar.rules = defaultRules) (position : Int)
    (hposition : 0 ≤ position) :
    ∃ tokens, ((Chain.forgetful grammar.allRules).tokens source.reader position
        source.length).result = .ok tokens ∧
      Leftmost (grammar.HasToken source) position tokens := by
  by_cases hlt : position < source.length
  · obtain ⟨claim, hclaim⟩ := exists_firstAnswer grammar source hrules hposition hlt
    have hnext := lt_next_judge position source.length claim
    obtain ⟨rest, hrest, hleftmost⟩ := exists_leftmost hrules
      ((judge position source.length claim).next position) (by omega)
    rw [Chain.tokens_forgetful_of_claim _ hlt hclaim]
    exact ⟨(judge position source.length claim).tokens ++ rest, congrArg (Except.map _) hrest,
      leftmost_step grammar source hrules hposition hlt hclaim hleftmost⟩
  · rw [Chain.tokens_of_le (by omega)]
    refine ⟨[], rfl, .done position ?_⟩
    intro other hother
    obtain ⟨-, hnonempty, hstop, -⟩ := hother.bounds
    omega
termination_by (source.length - position).toNat

/-- A grammar with the default rules finds the tokens of a source, each as early as possible, and
everything between them is plain text. -/
theorem classify_leftmost (hrules : grammar.rules = defaultRules) :
    ∃ spans, (grammar.classify source).result = .ok spans ∧
      Tiles source 0 source.length spans ∧ NoPlainPair spans ∧
      ∀ tokens, Leftmost (grammar.HasToken source) 0 tokens ↔
        tokens = spans.filter fun span => span.category ≠ .plain := by
  obtain ⟨tokens, hresult, hleftmost⟩ := exists_leftmost grammar source hrules 0 (Int.le_refl 0)
  have hspaced := spaced_of_leftmost hleftmost source.length_nonneg
  have hspans : (grammar.classify source).result =
      .ok (fillGaps source 0 source.length tokens) := by
    show ((Chain.fresh grammar.allRules).tokens source.reader (source.startWithin 0 none)
      (source.stopWithin none)).result.map
        (fillGaps source (source.startWithin 0 none) (source.stopWithin none)) = _
    rw [Chain.tokens_fresh, source.startWithin_zero]
    show ((Chain.forgetful grammar.allRules).tokens source.reader 0 source.length).result.map _ = _
    rw [hresult]
    rfl
  refine ⟨_, hspans, hspaced.tiles_fillGaps, noPlainPair_fillGaps source 0 source.length
    hspaced.not_plain, ?_⟩
  intro others
  rw [filter_fillGaps source 0 source.length hspaced.not_plain]
  constructor
  · intro hothers
    exact hothers.unique (hasToken_start_injective grammar source hrules) hleftmost
  · rintro rfl
    exact hleftmost

/-- The grammar of the interface definition language has the default rules. -/
theorem classify_leftmost_protobuf :
    ∃ spans, (protobuf.classify (.ofText "1e+5e3 message".toList)).result = .ok spans ∧
      Tiles (.ofText "1e+5e3 message".toList) 0 (Source.ofText "1e+5e3 message".toList).length
        spans ∧ NoPlainPair spans ∧
      ∀ tokens, Leftmost (protobuf.HasToken (.ofText "1e+5e3 message".toList)) 0 tokens ↔
        tokens = spans.filter fun span => span.category ≠ .plain :=
  classify_leftmost protobuf (.ofText "1e+5e3 message".toList) rfl

end DefaultRules

end Grammar

end CodeHighlight
