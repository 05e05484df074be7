import CodeHighlight.Proofs.Scan.Locality

/-!
# Runs under different word lists

The word rule claims the words of a source whatever the lists say of them; the lists only decide
what a word is highlighted as.  Two runs of the same rules under different lists therefore look at
the same positions and hear the same claims, except that a word may have another category in each
(`firstAnswer_of_same_rules`).  So the tokens of the two runs are the same up to words which the two
grammars classify differently (`Reworded`), and of those one run may miss what is plain to it.
-/

namespace CodeHighlight

/-! ## Tokens up to words -/

/-- The token that a word at a position is under a grammar: none if it is plain text there. -/
def Grammar.wordTokens (grammar : Grammar) (word : Text) (position : Int) : List Span :=
  if grammar.classifyWord word = .plain then []
  else [Span.ofLexeme (grammar.classifyWord word) word position]

/-- The two grammars classify a word of the source differently, and the span covers that word. -/
def Span.CoversReclassified (span : Span) (grammar other : Grammar) (source : Source) : Prop :=
  IsWord span.text ∧ source.slice span.start span.stop = span.text ∧
    grammar.classifyWord span.text ≠ other.classifyWord span.text

/-- Tokens of two runs that are the same up to words which the two grammars classify differently. -/
inductive Reworded (grammar other : Grammar) (source : Source) : List Span → List Span → Prop
  | nil : Reworded grammar other source [] []
  | same (token : Span) (tokens others : List Span)
      (hrest : Reworded grammar other source tokens others) :
      Reworded grammar other source (token :: tokens) (token :: others)
  | word (word : Text) (position : Int) (tokens others : List Span) (hword : IsWord word)
      (hslice : source.slice position (position + word.length) = word)
      (hdiffers : grammar.classifyWord word ≠ other.classifyWord word)
      (hrest : Reworded grammar other source tokens others) :
      Reworded grammar other source (grammar.wordTokens word position ++ tokens)
        (other.wordTokens word position ++ others)

namespace Reworded

variable {grammar other : Grammar} {source : Source} {tokens others : List Span}

theorem symm (h : Reworded grammar other source tokens others) :
    Reworded other grammar source others tokens := by
  induction h with
  | nil => exact .nil
  | same token tokens others _ ih => exact .same token others tokens ih
  | word word position tokens others hword hslice hdiffers _ ih =>
      exact .word word position others tokens hword hslice hdiffers.symm ih

theorem refl (tokens : List Span) : Reworded grammar other source tokens tokens := by
  induction tokens with
  | nil => exact .nil
  | cons token tokens ih => exact .same token tokens tokens ih

theorem append {later otherLater : List Span} (h : Reworded grammar other source tokens others)
    (hlater : Reworded grammar other source later otherLater) :
    Reworded grammar other source (tokens ++ later) (others ++ otherLater) := by
  induction h with
  | nil => exact hlater
  | same token tokens others _ ih => exact .same token _ _ ih
  | word word position tokens others hword hslice hdiffers _ ih =>
      rw [List.append_assoc, List.append_assoc]
      exact .word word position _ _ hword hslice hdiffers ih

/-- A token that only one run finds covers a word which the grammars classify differently. -/
theorem coversReclassified (h : Reworded grammar other source tokens others) {span : Span}
    (hmem : span ∈ tokens) (hnot : span ∉ others) :
    span.CoversReclassified grammar other source := by
  induction h with
  | nil => contradiction
  | same token tokens others _ ih =>
      rcases List.mem_cons.1 hmem with rfl | hmem
      · exact absurd List.mem_cons_self hnot
      · exact ih hmem fun hother => hnot (List.mem_cons_of_mem token hother)
  | word word position tokens others hword hslice hdiffers _ ih =>
      rcases List.mem_append.1 hmem with hmem | hmem
      · unfold Grammar.wordTokens at hmem
        split at hmem
        · contradiction
        · rw [List.mem_singleton.1 hmem]
          exact ⟨hword, hslice, hdiffers⟩
      · exact ih hmem fun hother => hnot (List.mem_append_right _ hother)

/-- No word is a string or a number. -/
theorem filter_eq (h : Reworded grammar other source tokens others) {p : Span → Prop}
    [DecidablePred p] (hp : ∀ span, p span → span.category = .string ∨ span.category = .number) :
    tokens.filter (fun span => p span) = others.filter (fun span => p span) := by
  have hwords : ∀ (grammar : Grammar) word position,
      (grammar.wordTokens word position).filter (fun span => p span) = [] := by
    intro grammar word position
    refine List.filter_eq_nil_iff.2 fun span hspan hmatch => ?_
    unfold Grammar.wordTokens at hspan
    split at hspan
    · contradiction
    · rw [List.mem_singleton.1 hspan] at hmatch
      rcases hp _ (of_decide_eq_true hmatch) with hstring | hnumber
      · exact (wordCategory_ne_lexical grammar.keywords grammar.literals word).1 hstring
      · exact (wordCategory_ne_lexical grammar.keywords grammar.literals word).2 hnumber
  induction h with
  | nil => rfl
  | same token tokens others _ ih => rw [List.filter_cons, List.filter_cons, ih]
  | word word position tokens others _ _ _ _ ih =>
      rw [List.filter_append, List.filter_append, hwords, hwords, ih]

end Reworded

/-! ## Two runs in step -/

section Runs

variable {grammar other : Grammar} {source : Source} {position last : Int}

/-- Under grammars with the same rules the first answers are the same, or they are one word in two
different categories. -/
theorem firstAnswer_of_same_rules (hrules : grammar.rules = other.rules) (hposition : 0 ≤ position)
    (hlt : position < last) (hlast : last ≤ source.length) :
    firstAnswer source.reader position last grammar.allRules =
        firstAnswer source.reader position last other.allRules ∨
      ∃ word, IsWord word ∧ source.slice position (position + word.length) = word ∧
        position + word.length ≤ last ∧
        grammar.classifyWord word ≠ other.classifyWord word ∧
        firstAnswer source.reader position last grammar.allRules =
          .ok (some (Span.ofLexeme (grammar.classifyWord word) word position)) ∧
        firstAnswer source.reader position last other.allRules =
          .ok (some (Span.ofLexeme (other.classifyWord word) word position)) := by
  obtain ⟨claim, hclaim, hexact⟩ :=
    Reader.wordAt_exact source grammar.keywords grammar.literals hposition hlt hlast
  obtain ⟨otherClaim, hother, hotherExact⟩ :=
    Reader.wordAt_exact source other.keywords other.literals hposition hlt hlast
  rw [← Rule.answer_word] at hclaim hother
  cases claim with
  | some span =>
      obtain ⟨word, rest, hsplit, hword, hbehind, hrest, rfl⟩ := (hexact span).1 rfl
      obtain rfl := (hotherExact _).2 ⟨word, rest, hsplit, hword, hbehind, hrest, rfl⟩
      rw [Grammar.allRules, firstAnswer_of_some hclaim, Grammar.allRules,
        firstAnswer_of_some hother]
      by_cases hsame : grammar.classifyWord word = other.classifyWord word
      · exact .inl (congrArg (fun category => Except.ok (some (Span.ofLexeme category word position)))
          hsame)
      · have hlength := congrArg List.length hsplit
        rw [source.length_slice hposition (by omega) hlast, List.length_append] at hlength
        exact .inr ⟨word, hword, (source.slice_split hposition (by omega) hsplit).1, by omega, hsame,
          rfl, rfl⟩
  | none =>
      -- No word stands at the position, so in both runs the other rules are asked.
      have hnone : otherClaim = none := by
        apply Option.eq_none_iff_forall_ne_some.2
        intro span hspan
        obtain ⟨word, rest, hsplit, hword, hbehind, hrest, -⟩ := (hotherExact span).1 hspan
        exact nomatch (hexact _).2 ⟨word, rest, hsplit, hword, hbehind, hrest, rfl⟩
      rw [hnone] at hother
      rw [Grammar.allRules, firstAnswer_of_none hclaim, Grammar.allRules,
        firstAnswer_of_none hother, hrules]
      exact .inl rfl

/-- A word at a position is a token or is passed as a whole. -/
theorem judge_word (grammar : Grammar) {word : Text} (hword : IsWord word)
    (hbound : position + word.length ≤ last) :
    let claim := Span.ofLexeme (grammar.classifyWord word) word position
    (judge position last (some claim)).tokens = grammar.wordTokens word position ∧
      (judge position last (some claim)).next position = position + word.length := by
  intro claim
  have haccept : claim.Acceptable position last := by
    obtain ⟨first, body, -, -, rfl⟩ := hword
    refine ⟨rfl, ?_, hbound⟩
    show position < position + ((first :: body).length : Int)
    rw [List.length_cons]
    omega
  have hjudge : judge position last (some claim) =
      if grammar.classifyWord word = .plain then .absorbed claim.stop else .token claim := by
    rw [judge, if_pos haccept]
    rfl
  rw [hjudge, Grammar.wordTokens]
  by_cases hplain : grammar.classifyWord word = .plain
  · rw [if_pos hplain, if_pos hplain]
    exact ⟨rfl, rfl⟩
  · rw [if_neg hplain, if_neg hplain]
    exact ⟨rfl, rfl⟩

/-- One step of two runs of the same rules.  Both fail alike, or both go on from the same later
place, and what they have found up to there is the same up to a word. -/
theorem step_of_same_rules (hrules : grammar.rules = other.rules) (hposition : 0 ≤ position)
    (hlt : position < last) (hlast : last ≤ source.length) :
    (∃ e, ((Chain.forgetful grammar.allRules).tokens source.reader position last).result =
        .error e ∧
      ((Chain.forgetful other.allRules).tokens source.reader position last).result = .error e) ∨
    ∃ next found otherFound, position < next ∧ Reworded grammar other source found otherFound ∧
      ((Chain.forgetful grammar.allRules).tokens source.reader position last).result =
        ((Chain.forgetful grammar.allRules).tokens source.reader next last).result.map
          (found ++ ·) ∧
      ((Chain.forgetful other.allRules).tokens source.reader position last).result =
        ((Chain.forgetful other.allRules).tokens source.reader next last).result.map
          (otherFound ++ ·) := by
  rcases firstAnswer_of_same_rules hrules hposition hlt hlast with
    hsame | ⟨word, hword, hslice, hbound, hdiffers, hanswer, hother⟩
  · cases hanswer : firstAnswer source.reader position last grammar.allRules with
    | error e =>
        rw [Chain.tokens_forgetful_of_error _ hlt hanswer,
          Chain.tokens_forgetful_of_error _ hlt (hsame.symm.trans hanswer)]
        exact .inl ⟨e, rfl, rfl⟩
    | ok claim =>
        exact .inr ⟨_, _, _, lt_next_judge position last claim, .refl _,
          Chain.result_of_claim hlt hanswer,
          Chain.result_of_claim hlt (hsame.symm.trans hanswer)⟩
  · -- The runs hear the word in different categories, and both go on behind it.
    have hstep := Chain.result_of_claim hlt hanswer
    have hotherStep := Chain.result_of_claim hlt hother
    have hnext := lt_next_judge position last
      (some (Span.ofLexeme (grammar.classifyWord word) word position))
    obtain ⟨htokens, hend⟩ := judge_word grammar hword hbound
    obtain ⟨hotherTokens, hotherEnd⟩ := judge_word other hword hbound
    rw [htokens, hend] at hstep
    rw [hotherTokens, hotherEnd] at hotherStep
    rw [hend] at hnext
    have hfound : Reworded grammar other source (grammar.wordTokens word position ++ [])
        (other.wordTokens word position ++ []) :=
      .word word position [] [] hword hslice hdiffers .nil
    rw [List.append_nil, List.append_nil] at hfound
    exact .inr ⟨_, _, _, hnext, hfound, hstep, hotherStep⟩

/-- Runs of the same rules either fail alike or find the same tokens up to words which the two
grammars classify differently. -/
theorem tokens_of_same_rules (hrules : grammar.rules = other.rules) (position : Int)
    (hposition : 0 ≤ position) (hlast : last ≤ source.length) :
    (∃ e, ((Chain.forgetful grammar.allRules).tokens source.reader position last).result =
        .error e ∧
      ((Chain.forgetful other.allRules).tokens source.reader position last).result = .error e) ∨
    ∃ tokens others,
      ((Chain.forgetful grammar.allRules).tokens source.reader position last).result = .ok tokens ∧
      ((Chain.forgetful other.allRules).tokens source.reader position last).result = .ok others ∧
      Reworded grammar other source tokens others := by
  by_cases hlt : position < last
  · rcases step_of_same_rules hrules hposition hlt hlast with
      hfails | ⟨next, found, otherFound, hnext, hfound, hstep, hotherStep⟩
    · exact .inl hfails
    · rw [hstep, hotherStep]
      rcases tokens_of_same_rules hrules next (by omega) hlast with
        ⟨e, hfails, hotherFails⟩ | ⟨tokens, others, hrun, hotherRun, hrest⟩
      · rw [hfails, hotherFails]
        exact .inl ⟨e, rfl, rfl⟩
      · rw [hrun, hotherRun]
        exact .inr ⟨_, _, rfl, rfl, hfound.append hrest⟩
  · rw [Chain.tokens_of_le (by omega), Chain.tokens_of_le (by omega)]
    exact .inr ⟨[], [], rfl, rfl, .nil⟩
termination_by (last - position).toNat

end Runs

/-! ## Spans of a range -/

namespace Grammar

/-- A range is classified unless one of the caller's own rules fails in the course of the run. -/
theorem failsWith_of_classifyRange {grammar : Grammar} {source : Source} {start : Int}
    {stop : Option Int} {e : Error}
    (h : (grammar.classifyRange source start stop).result = .error e) :
    grammar.FailsWith source (source.startWithin start stop) (source.stopWithin stop) e := by
  by_cases hle : source.startWithin start stop ≤ source.stopWithin stop
  · rcases grammar.classifyRange_failsWith_or_ordered source start stop hle with
      ⟨other, hother, hfails⟩ | ⟨tokens, hspans, -⟩
    · obtain rfl := Except.error.inj (h.symm.trans hother)
      exact hfails
    · rw [hspans] at h
      contradiction
  · rw [grammar.classifyRange_of_lt source start stop (by omega)] at h
    contradiction

/-- Under grammars with the same rules a range has the same strings and numbers, whatever the word
lists are, and every token that it has under one grammar only covers a word which the two grammars
classify differently.  If one of the caller's own rules fails under one grammar, it fails under the
other as well. -/
theorem classifyRange_word_lists (grammar other : Grammar) (hrules : grammar.rules = other.rules)
    (source : Source) (start : Int) (stop : Option Int) :
    (∃ e, (grammar.classifyRange source start stop).result = .error e ∧
      (other.classifyRange source start stop).result = .error e ∧
      grammar.FailsWith source (source.startWithin start stop) (source.stopWithin stop) e) ∨
    ∃ spans others, (grammar.classifyRange source start stop).result = .ok spans ∧
      (other.classifyRange source start stop).result = .ok others ∧
      spans.filter (fun span => span.category = .string ∨ span.category = .number) =
        others.filter (fun span => span.category = .string ∨ span.category = .number) ∧
      ∀ span, span.category ≠ .plain →
        (span ∈ spans ∧ span ∉ others ∨ span ∈ others ∧ span ∉ spans) →
          span.CoversReclassified grammar other source := by
  have hfirst := source.startWithin_nonneg start stop
  have hlast := source.stopWithin_le stop
  have hresult := grammar.classifyRange_result_within source start stop
  have hother := other.classifyRange_result_within source start stop
  rcases tokens_of_same_rules hrules _ hfirst hlast with
    ⟨e, hfails, hotherFails⟩ | ⟨tokens, others, hrun, hotherRun, hreworded⟩
  · rw [hfails] at hresult
    rw [hotherFails] at hother
    exact .inl ⟨e, hresult, hother, failsWith_of_classifyRange hresult⟩
  · rw [hrun] at hresult
    rw [hotherRun] at hother
    have htokens := fun token htoken => (Chain.le_start_of_tokens _ hrun token htoken).2
    have hothers := fun token htoken => (Chain.le_start_of_tokens _ hotherRun token htoken).2
    refine .inr ⟨_, _, hresult, hother, ?_, ?_⟩
    · have hplain : ∀ span : Span, span.category = .string ∨ span.category = .number →
          span.category ≠ .plain := by
        rintro span (h | h) hplain
        · exact nomatch h.symm.trans hplain
        · exact nomatch h.symm.trans hplain
      rw [filter_fillGaps_of_not_plain _ _ _ htokens hplain,
        filter_fillGaps_of_not_plain _ _ _ hothers hplain, hreworded.filter_eq fun _ h => h]
    · intro span hcategory
      rw [mem_fillGaps_iff _ _ _ htokens hcategory, mem_fillGaps_iff _ _ _ hothers hcategory]
      rintro (⟨hmem, hnot⟩ | ⟨hmem, hnot⟩)
      · exact hreworded.coversReclassified hmem hnot
      · obtain ⟨hword, hslice, hdiffers⟩ := hreworded.symm.coversReclassified hmem hnot
        exact ⟨hword, hslice, hdiffers.symm⟩

/-- A keyword that becomes a literal, a literal that becomes plain, and markers that claim too much
and nothing. -/
theorem classifyRange_word_lists_reclassified :
    let rules : List Rule := [.marker ⟨['~'], "number".toList, 0, .pastStop 1⟩,
      .marker ⟨['#'], "string".toList, 0, .length 0⟩, .quotedString, .numeral]
    let grammar : Grammar := { protobuf with rules := rules }
    let other : Grammar :=
      { grammar with keywords := ["x".toList], literals := ["message".toList], disjoint := by decide }
    let source : Source := .ofText "~message int32 x #\"int32\" = 42".toList
    grammar.rules = other.rules ∧
      ∃ spans others, (grammar.classifyRange source 1 none).result = .ok spans ∧
        (other.classifyRange source 1 none).result = .ok others ∧
        spans.filter (fun span => span.category = .string ∨ span.category = .number) =
          others.filter (fun span => span.category = .string ∨ span.category = .number) ∧
        ∀ span, span.category ≠ .plain →
          (span ∈ spans ∧ span ∉ others ∨ span ∈ others ∧ span ∉ spans) →
            span.CoversReclassified grammar other source := by
  intro rules grammar other source
  have hrules : grammar.rules = other.rules := rfl
  have hmarkers : grammar.OnlyMarkers :=
    .of_rules [⟨['~'], "number".toList, 0, .pastStop 1⟩, ⟨['#'], "string".toList, 0, .length 0⟩]
      defaultRules rfl custom_not_mem_defaultRules (by decide)
  rcases classifyRange_word_lists grammar other hrules source 1 none with
    ⟨e, -, -, hfails⟩ | hsame
  · exact absurd hfails
      (hmarkers.not_failsWith (source.startWithin_nonneg 1 none) (source.stopWithin_le none) e)
  · exact ⟨hrules, hsame⟩

end Grammar

end CodeHighlight
