import CodeHighlight.Proofs.Highlighter.Lossless
import CodeHighlight.Proofs.Html.BareBlock
import CodeHighlight.Proofs.Scan.Locality

/-!
# Unknown languages and languages without words

A language that is not found is highlighted as one plain span, without a run over the code.  A
language without words and rules is highlighted by a run, but the run never finds a token: every word
is claimed as plain text, and no rule claims anything else.  So the text between the ends is one gap,
and both ways lead to the same block (`highlightBuiltin_fallback`).
-/

namespace CodeHighlight

/-! ## Runs without tokens -/

theorem tokens_judge_of_plain (position stop : Int) {claim : Option Span}
    (hplain : ∀ span, claim = some span → span.category = .plain) :
    (judge position stop claim).tokens = [] := by
  rcases judge_token_or_tokens_eq_nil position stop claim with
    ⟨span, hclaim, -, hcategory, -⟩ | hnone
  · exact absurd (hplain span hclaim) hcategory
  · exact hnone

/-- A run that finds a token nowhere finds none. -/
theorem Chain.tokens_eq_nil {reader : Reader} {rules : List Rule} {stop : Int} (position : Int)
    (hsteps : ∀ place, position ≤ place → place < stop →
      ∃ claim, firstAnswer reader place stop rules = .ok claim ∧
        (judge place stop claim).tokens = []) :
    ((forgetful rules).tokens reader position stop).result = .ok [] := by
  by_cases hlt : position < stop
  · obtain ⟨claim, hanswer, hnone⟩ := hsteps position (Int.le_refl position) hlt
    have hnext := lt_next_judge position stop claim
    have hrest := tokens_eq_nil ((judge position stop claim).next position)
      fun place hle => hsteps place (by omega)
    rw [result_of_claim hlt hanswer, hrest, hnone]
    rfl
  · rw [tokens_of_le (by omega)]
    rfl
termination_by (stop - position).toNat

namespace Grammar

/-- The grammar has no words and no rules of its own. -/
structure Blank (grammar : Grammar) : Prop where
  keywords : grammar.keywords = []
  literals : grammar.literals = []
  rules : grammar.rules = []

variable {grammar : Grammar}

/-- Under a blank grammar nothing but plain words is claimed. -/
theorem Blank.exists_firstAnswer (h : grammar.Blank) (source : Source) {position stop : Int}
    (hposition : 0 ≤ position) (hlt : position < stop) (hstop : stop ≤ source.length) :
    ∃ claim, firstAnswer source.reader position stop grammar.allRules = .ok claim ∧
      ∀ span, claim = some span → span.category = .plain := by
  obtain ⟨claim, hclaim, hexact⟩ := Reader.wordAt_exact source [] [] hposition hlt hstop
  rw [← Rule.answer_word] at hclaim
  rw [allRules, h.keywords, h.literals, h.rules]
  cases claim with
  | none => exact ⟨none, firstAnswer_of_none hclaim, nofun⟩
  | some span =>
      refine ⟨some span, firstAnswer_of_some hclaim, ?_⟩
      rintro _ ⟨rfl⟩
      obtain ⟨word, rest, -, -, -, -, rfl⟩ := (hexact span).1 rfl
      simp [Span.ofLexeme, wordCategory]

/-- Under a blank grammar all code is plain. -/
theorem Blank.classify_result (h : grammar.Blank) (code : Text) :
    (grammar.classify (.ofText code)).result = .ok (plainSpans code) := by
  have hnonneg := (Source.ofText code).length_nonneg
  have hrun : ((Chain.forgetful grammar.allRules).tokens (Source.ofText code).reader 0
      (Source.ofText code).length).result = .ok [] := by
    refine Chain.tokens_eq_nil 0 fun place hplace hlt => ?_
    obtain ⟨claim, hanswer, hplain⟩ :=
      h.exists_firstAnswer (.ofText code) hplace hlt (Int.le_refl _)
    exact ⟨claim, hanswer, tokens_judge_of_plain place _ hplain⟩
  rw [classify_eq_classifyRange, classifyRange_result _ _ (Int.le_refl 0) hnonneg (Int.le_refl _),
    hrun]
  -- All of the code is one gap.
  show Except.ok (plainBetween (.ofText code) 0 (Source.ofText code).length) = _
  rw [plainBetween, plainSpans, Source.slice_zero_length, Source.text_ofText, Source.length_ofText]
  cases code with
  | nil => rfl
  | cons c rest => simp

end Grammar

/-! ## Blocks of plain code -/

theorem category_of_mem_plainSpans {code : Text} {span : Span} (h : span ∈ plainSpans code) :
    span.category = .plain := by
  by_cases hempty : code = []
  · simp [plainSpans, hempty] at h
  · simp only [plainSpans, if_neg hempty, List.mem_singleton] at h
    simp [h]

namespace Style

variable {style : Style}

/-- Bare code is written as it is, but for the entities. -/
theorem spans_plainSpans (hplain : style.wrapPlain = false) (code : Text) :
    style.spans (plainSpans code) = Html.escape code := by
  by_cases hempty : code = []
  · simp [plainSpans, hempty, spans, Html.escape]
  · simp [plainSpans, hempty, spans, span, hplain]

/-- The block of bare code without line options. -/
theorem block_plainSpans (hplain : style.wrapPlain = false) (code : Text)
    (language : Option Text) :
    style.block (plainSpans code) language .none =
      .ok (Html.openBlock language ++ Html.escape code ++ Html.closeBlock) := by
  have htokens : ∀ span ∈ plainSpans code, span.category ≠ .plain →
      span.text ≠ [] ∧ '\n' ∉ span.text :=
    fun span hspan hcategory => absurd (category_of_mem_plainSpans hspan) hcategory
  rw [block_none hplain htokens (tiles_plainSpans code).overlap?_splitLines,
    spans_plainSpans hplain]

end Style

/-- Code is highlighted alike whether its language is not found or has neither words nor rules.
Without wrapping and line options the block holds the code with its tabs expanded. -/
theorem highlightBuiltin_fallback {settings other : Settings} (own otherOwn : Option Registry)
    (request : Request) {expanded : Text} {grammar : Grammar}
    (hclass : other.classPrefix = settings.classPrefix)
    (hwrap : other.wrapPlain = settings.wrapPlain) (hwidth : other.tabWidth = settings.tabWidth)
    (htab : ∀ width, settings.tabWidth = some width → -0x80000000 ≤ width ∧ width < 0x80000000)
    (hexpanded : expanded = match settings.tabWidth with
      | none => request.code
      | some width => if width = 0 then request.code else request.code.expandTabs width)
    (hunknown : settings.resolve? own request.language = none)
    (hknown : other.resolve? otherOwn request.language = some (.grammar grammar))
    (hblank : grammar.Blank) :
    ∃ html, (highlightBuiltin settings own request).result = .ok html ∧
      (highlightBuiltin other otherOwn request).result = .ok html ∧
      (settings.wrapPlain = false → request.lineOptions = .none →
        html = Html.openBlock request.language ++ Html.escape expanded ++ Html.closeBlock) := by
  have hexpand : settings.expand request.code = .ok expanded := by
    rw [hexpanded]
    exact settings.expand_eq request.code htab
  have hexpandOther : other.expand request.code = .ok expanded := by
    rw [← hexpand, Settings.expand, Settings.expand, hwidth]
  have hstyle : other.style = settings.style := by
    rw [Settings.style, Settings.style, hclass, hwrap]
  have hspans : (spansUnder (some (.grammar grammar)) request.language expanded).result =
      .ok (plainSpans expanded) := hblank.classify_result expanded
  obtain ⟨html, hblock⟩ : ∃ html, settings.style.block (plainSpans expanded) request.language
      request.lineOptions = .ok html :=
    ⟨_, settings.style.block_eq (tiles_plainSpans expanded).overlap?_splitLines _ _⟩
  refine ⟨html, ?_, ?_, fun hplain hoptions => ?_⟩
  · rw [highlightBuiltin_result, hexpand, hunknown]
    exact hblock
  · rw [highlightBuiltin_result, hexpandOther, hknown, hstyle]
    show (spansUnder (some (.grammar grammar)) request.language expanded).result.bind _ = _
    rw [hspans]
    exact hblock
  · have hbare : settings.style.wrapPlain = false := hplain
    rw [hoptions, Style.block_plainSpans hbare] at hblock
    exact (Except.ok.inj hblock).symm

/-- The default registry does not know the language, another one has it without words. -/
theorem highlightBuiltin_fallback_mini :
    let grammar : Grammar := ⟨"Mini".toList, [], [], [], [], by decide, by simp⟩
    let settings : Settings := ⟨"hl-".toList, false, none, some 4⟩
    let other : Settings :=
      ⟨"hl-".toList, false, some ⟨[.grammar grammar], [("mini".toList, .grammar grammar)]⟩, some 4⟩
    let request : Request := ⟨"\n\tif <'x'>\n".toList, some "MINI".toList, none, false⟩
    let expanded := "\n    if <'x'>\n".toList
    settings.resolve? none request.language = none ∧
      other.resolve? none request.language = some (.grammar grammar) ∧
      ∃ html, (highlightBuiltin settings none request).result = .ok html ∧
        (highlightBuiltin other none request).result = .ok html ∧
        (settings.wrapPlain = false → request.lineOptions = .none →
          html = Html.openBlock request.language ++ Html.escape expanded ++ Html.closeBlock) := by
  intro grammar settings other request expanded
  have hunknown : settings.resolve? none request.language = none :=
    Option.isNone_iff_eq_none.1 (by decide +kernel)
  have hknown : other.resolve? none request.language = some (.grammar grammar) := rfl
  refine ⟨hunknown, hknown, highlightBuiltin_fallback none none request rfl rfl rfl ?_
    (by decide) hunknown hknown ⟨rfl, rfl, rfl⟩⟩
  intro width h
  obtain rfl := Option.some.inj h
  decide

end CodeHighlight
