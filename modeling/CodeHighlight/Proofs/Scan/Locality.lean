import CodeHighlight.Proofs.Scan.Coverage

/-!
# A run sees nothing but its stretch

What the rules of the library answer is decided by the text from the position to the end of the
stretch, and by whether a word character stands directly before the position (`Rule.answer_exact`).
So two stretches of the same text are classified alike, wherever they lie in their sources, as long
as both or neither of them begin inside a word (`Source.Alike`): every step of one run is the same
step of the other, some places further on.
-/

namespace CodeHighlight

/-! ## Moving spans along -/

/-- The same span some places further on. -/
def Span.shift (offset : Int) (span : Span) : Span :=
  { span with start := span.start + offset, stop := span.stop + offset }

/-- The same verdict some places further on. -/
def Verdict.shift (offset : Int) : Verdict → Verdict
  | unclaimed => unclaimed
  | refused claim => refused (claim.shift offset)
  | absorbed stop => absorbed (stop + offset)
  | token span => token (span.shift offset)

namespace Span

variable (offset : Int) (span : Span)

@[simp] theorem category_shift : (span.shift offset).category = span.category := rfl

@[simp] theorem start_shift : (span.shift offset).start = span.start + offset := rfl

@[simp] theorem stop_shift : (span.shift offset).stop = span.stop + offset := rfl

theorem shift_ofLexeme (category : Category) (lexeme : Text) (start : Int) :
    (ofLexeme category lexeme start).shift offset = ofLexeme category lexeme (start + offset) := by
  show Span.mk category lexeme (start + offset) (start + lexeme.length + offset) =
    Span.mk category lexeme (start + offset) (start + offset + lexeme.length)
  congr 1
  omega

theorem shift_zero : shift 0 = id := by
  funext span
  simp [shift]

theorem acceptable_shift {position stop : Int} :
    (span.shift offset).Acceptable (position + offset) (stop + offset) ↔
      span.Acceptable position stop := by
  unfold Acceptable
  rw [start_shift, stop_shift]
  omega

end Span

namespace Verdict

variable (offset position : Int) (verdict : Verdict)

@[simp] theorem tokens_shift :
    (verdict.shift offset).tokens = verdict.tokens.map (Span.shift offset) := by
  cases verdict <;> rfl

@[simp] theorem next_shift :
    (verdict.shift offset).next (position + offset) = verdict.next position + offset := by
  cases verdict with
  | unclaimed => exact Int.add_right_comm position offset 1
  | refused claim => exact Int.add_right_comm position offset 1
  | absorbed stop => rfl
  | token span => rfl

end Verdict

theorem judge_shift (offset position stop : Int) (claim : Option Span) :
    judge (position + offset) (stop + offset) (claim.map (Span.shift offset)) =
      (judge position stop claim).shift offset := by
  cases claim with
  | none => rfl
  | some span =>
      show (if (span.shift offset).Acceptable _ _ then _ else _) = _
      rw [judge]
      by_cases haccept : span.Acceptable position stop
      · rw [if_pos ((span.acceptable_shift offset).2 haccept), if_pos haccept,
          Span.category_shift]
        split <;> rfl
      · rw [if_neg (mt (span.acceptable_shift offset).1 haccept), if_neg haccept]
        rfl

/-! ## Stretches of the same text -/

/-- The stretch from `first` to `last` of one source and the stretch `offset` places further on in
the other hold the same text, and both or neither of them begin inside a word. -/
structure Source.Alike (source other : Source) (offset first last : Int) : Prop where
  first_nonneg : 0 ≤ first
  first_le_last : first ≤ last
  last_le : last ≤ source.length
  other_nonneg : 0 ≤ first + offset
  other_le : last + offset ≤ other.length
  slice_eq : source.slice first last = other.slice (first + offset) (last + offset)
  behind_eq : (source.behind first).any isWordChar = (other.behind (first + offset)).any isWordChar

namespace Source.Alike

variable {source other : Source} {offset first last position : Int}

/-- Cut at the same place, stretches of the same text fall into the same parts. -/
theorem parts (h : Alike source other offset first last) (hfirst : first ≤ position)
    (hlast : position ≤ last) :
    source.slice first position = other.slice (first + offset) (position + offset) ∧
      source.slice position last = other.slice (position + offset) (last + offset) := by
  have hnonneg := h.first_nonneg
  have hother := h.other_nonneg
  have hle := h.last_le
  have hotherLe := h.other_le
  have hsplit := h.slice_eq
  rw [← source.slice_append hnonneg hfirst hlast, ← other.slice_append hother
    (by omega : first + offset ≤ position + offset) (by omega)] at hsplit
  apply List.append_inj hsplit
  rw [source.length_slice hnonneg hfirst (by omega),
    other.length_slice hother (by omega) (by omega)]
  omega

/-- What is left of the stretches from some place on is alike as well. -/
theorem mono (h : Alike source other offset first last) (hfirst : first ≤ position)
    (hlast : position ≤ last) : Alike source other offset position last := by
  have hnonneg := h.first_nonneg
  have hother := h.other_nonneg
  have hle := h.last_le
  have hotherLe := h.other_le
  refine ⟨by omega, hlast, hle, by omega, hotherLe, (h.parts hfirst hlast).2, ?_⟩
  rcases Int.lt_or_eq_of_le hfirst with hlt | rfl
  · -- Inside the stretches the same character stands before both places.
    rw [source.behind_eq_getLast? hnonneg hlt (by omega),
      other.behind_eq_getLast? hother (by omega : first + offset < position + offset) (by omega),
      (h.parts hfirst hlast).1]
  · exact h.behind_eq

end Source.Alike

/-! ## Runs over stretches of the same text -/

section Runs

variable {source other : Source} {offset position last : Int}

/-- A rule of the library answers alike in stretches of the same text. -/
theorem Rule.answer_of_alike (rule : Rule) (hlibrary : ∀ label claim, rule ≠ .custom label claim)
    (h : source.Alike other offset position last) (hlt : position < last) :
    rule.answer other.reader (position + offset) (last + offset) =
      (rule.answer source.reader position last).map (Option.map (Span.shift offset)) := by
  obtain ⟨claim, hclaim, hexact⟩ := rule.answer_exact hlibrary h.first_nonneg hlt h.last_le
  obtain ⟨moved, hmoved, hmovedExact⟩ := rule.answer_exact hlibrary h.other_nonneg
    (by omega : position + offset < last + offset) h.other_le
  rw [hclaim, hmoved]
  show Except.ok moved = .ok (claim.map (Span.shift offset))
  congr 1
  ext span
  rw [hmovedExact, ← h.slice_eq, ← h.behind_eq, Option.map_eq_some_iff]
  constructor
  · rintro ⟨category, lexeme, rest, hsplit, hfinds, rfl⟩
    exact ⟨_, (hexact _).2 ⟨category, lexeme, rest, hsplit, hfinds, rfl⟩,
      Span.shift_ofLexeme offset category lexeme position⟩
  · rintro ⟨earlier, hearlier, rfl⟩
    obtain ⟨category, lexeme, rest, hsplit, hfinds, rfl⟩ := (hexact _).1 hearlier
    exact ⟨category, lexeme, rest, hsplit, hfinds,
      Span.shift_ofLexeme offset category lexeme position⟩

theorem firstAnswer_of_alike {rules : List Rule}
    (hlibrary : ∀ label claim, Rule.custom label claim ∉ rules)
    (h : source.Alike other offset position last) (hlt : position < last) :
    firstAnswer other.reader (position + offset) (last + offset) rules =
      (firstAnswer source.reader position last rules).map (Option.map (Span.shift offset)) := by
  induction rules with
  | nil => rfl
  | cons rule rest ih =>
      have hrule : ∀ label claim, rule ≠ .custom label claim := by
        rintro label claim rfl
        exact hlibrary label claim List.mem_cons_self
      have hrest : ∀ label claim, Rule.custom label claim ∉ rest := by
        intro label claim hmem
        exact hlibrary label claim (List.mem_cons_of_mem rule hmem)
      have hmoved := rule.answer_of_alike hrule h hlt
      cases hanswer : rule.answer source.reader position last with
      | error e =>
          rw [hanswer] at hmoved
          rw [firstAnswer_of_error hanswer, firstAnswer_of_error hmoved]
          rfl
      | ok claim =>
          rw [hanswer] at hmoved
          cases claim with
          | some claim =>
              rw [firstAnswer_of_some hanswer, firstAnswer_of_some hmoved]
              rfl
          | none =>
              rw [firstAnswer_of_none hanswer, firstAnswer_of_none hmoved]
              exact ih hrest

/-- Runs over stretches of the same text find the same tokens. -/
theorem Chain.tokens_of_alike {rules : List Rule}
    (hlibrary : ∀ label claim, Rule.custom label claim ∉ rules) (position : Int)
    (h : source.Alike other offset position last) :
    ((forgetful rules).tokens other.reader (position + offset) (last + offset)).result =
      ((forgetful rules).tokens source.reader position last).result.map
        (List.map (Span.shift offset)) := by
  -- Both runs take the same step here, and what is left of the stretches is alike.
  by_cases hlt : position < last
  · have hmoved := firstAnswer_of_alike hlibrary h hlt
    have hotherLt : position + offset < last + offset := by omega
    cases hanswer : firstAnswer source.reader position last rules with
    | error e =>
        rw [hanswer] at hmoved
        rw [tokens_forgetful_of_error _ hlt hanswer, tokens_forgetful_of_error _ hotherLt hmoved]
        rfl
    | ok claim =>
        rw [hanswer] at hmoved
        have hnext := lt_next_judge position last claim
        have hbound := next_judge_le hlt claim
        have hrun := tokens_of_alike hlibrary ((judge position last claim).next position)
          (h.mono (by omega) hbound)
        rw [result_of_claim hlt hanswer, result_of_claim hotherLt hmoved, judge_shift,
          Verdict.next_shift, Verdict.tokens_shift, hrun]
        cases ((forgetful rules).tokens source.reader
          ((judge position last claim).next position) last).result with
        | error e => rfl
        | ok tokens => exact congrArg Except.ok List.map_append.symm
  · rw [tokens_of_le (by omega), tokens_of_le (by omega)]
    rfl
termination_by (last - position).toNat

theorem plainBetween_of_alike {middle : Int} (h : source.Alike other offset position last)
    (hle : middle ≤ last) :
    plainBetween other (position + offset) (middle + offset) =
      (plainBetween source position middle).map (Span.shift offset) := by
  unfold plainBetween
  by_cases hlt : position < middle
  · rw [if_pos hlt, if_pos (by omega), ← (h.parts (Int.le_of_lt hlt) hle).1]
    rfl
  · rw [if_neg hlt, if_neg (by omega)]
    rfl

/-- The gaps between the same tokens hold the same text. -/
theorem fillGaps_of_alike {tokens : List Span} (h : source.Alike other offset position last)
    (hspaced : Spaced source position last tokens) :
    fillGaps other (position + offset) (last + offset) (tokens.map (Span.shift offset)) =
      (fillGaps source position last tokens).map (Span.shift offset) := by
  induction hspaced with
  | nil position last hle => exact plainBetween_of_alike h (Int.le_refl last)
  | cons position last token rest hstart hlt htext hcategory hrest ih =>
      have hle := hrest.le
      have hmore := h.mono (by omega : position ≤ token.stop) hle
      show plainBetween other (position + offset) (token.start + offset) ++
        token.shift offset :: fillGaps other (token.stop + offset) (last + offset) _ = _
      rw [ih hmore, plainBetween_of_alike h (by omega), fillGaps, List.map_append, List.map_cons]

end Runs

/-! ## Ranges inside a source -/

namespace Source

variable (source : Source) {start stop : Int}

theorem stopWithin_of_le (hstop : stop ≤ source.length) : source.stopWithin (some stop) = stop :=
  Int.min_eq_left hstop

theorem startWithin_of_le (hstart : 0 ≤ start) (hle : start ≤ stop) (hstop : stop ≤ source.length) :
    source.startWithin start (some stop) = start := by
  rw [startWithin, source.stopWithin_of_le hstop, Int.min_eq_left hle, Int.max_eq_right hstart]

end Source

namespace Grammar

variable (grammar : Grammar) (source : Source) {start stop : Int}

/-- A whole source is the range from its front to its end. -/
theorem classify_eq_classifyRange :
    grammar.classify source = grammar.classifyRange source 0 (some source.length) := by
  have hlength := source.stopWithin_of_le (Int.le_refl source.length)
  have hstart := source.startWithin_of_le (Int.le_refl 0) source.length_nonneg (Int.le_refl _)
  show ((Chain.fresh grammar.allRules).tokens source.reader (source.startWithin 0 none)
      source.length).map (fillGaps source (source.startWithin 0 none) source.length) =
    ((Chain.fresh grammar.allRules).tokens source.reader (source.startWithin 0 (some source.length))
      (source.stopWithin (some source.length))).map (fillGaps source
        (source.startWithin 0 (some source.length)) (source.stopWithin (some source.length)))
  rw [hlength, hstart, source.startWithin_zero]

/-- The spans of a range are the tokens that the rules find there without memories, with the gaps
between them filled. -/
theorem classifyRange_result_within (start : Int) (stop : Option Int) :
    (grammar.classifyRange source start stop).result =
      ((Chain.forgetful grammar.allRules).tokens source.reader (source.startWithin start stop)
        (source.stopWithin stop)).result.map
          (fillGaps source (source.startWithin start stop) (source.stopWithin stop)) := by
  rw [← Chain.tokens_fresh]
  rfl

theorem classifyRange_result (hstart : 0 ≤ start) (hle : start ≤ stop)
    (hstop : stop ≤ source.length) :
    (grammar.classifyRange source start (some stop)).result =
      ((Chain.forgetful grammar.allRules).tokens source.reader start stop).result.map
        (fillGaps source start stop) := by
  rw [classifyRange_result_within, source.startWithin_of_le hstart hle hstop,
    source.stopWithin_of_le hstop]

section LibraryRules

variable {grammar} (hlibrary : ∀ label claim, Rule.custom label claim ∉ grammar.rules)

include hlibrary

theorem custom_not_mem_allRules : ∀ label claim, Rule.custom label claim ∉ grammar.allRules := by
  intro label claim hmem
  rcases List.mem_cons.1 hmem with h | hmem
  · contradiction
  · exact hlibrary label claim hmem

/-- A grammar of library rules never fails, and the tokens that it finds are spaced out in order. -/
theorem exists_spaced_tokens (hstart : 0 ≤ start) (hle : start ≤ stop)
    (hstop : stop ≤ source.length) :
    ∃ tokens, ((Chain.forgetful grammar.allRules).tokens source.reader start stop).result =
      .ok tokens ∧ Spaced source start stop tokens := by
  have hcarries : grammar.CarriesText source start stop := by
    intro span _ label claim hmem
    exact absurd hmem (hlibrary label claim)
  have htokens := Chain.tokens_fresh source grammar.allRules start (some stop)
  rw [source.startWithin_of_le hstart hle hstop, source.stopWithin_of_le hstop] at htokens
  rw [← htokens]
  rcases Stage.failsWith_or_spaced start _ .start hcarries hstart hstop hle with
    ⟨e, -, _, _, _, _, label, claim, hmem, -⟩ | hspaced
  · exact absurd hmem (hlibrary label claim)
  · exact hspaced

/-- Ranges of the same text are classified alike if both or neither of them begin inside a word. -/
theorem exists_spans_of_alike {other : Source} {offset : Int}
    (h : source.Alike other offset start stop) :
    ∃ spans, (grammar.classifyRange source start (some stop)).result = .ok spans ∧
      (grammar.classifyRange other (start + offset) (some (stop + offset))).result =
        .ok (spans.map (Span.shift offset)) := by
  have hle := h.first_le_last
  have hrules := custom_not_mem_allRules hlibrary
  obtain ⟨tokens, htokens, hspaced⟩ :=
    exists_spaced_tokens source hlibrary h.first_nonneg hle h.last_le
  refine ⟨fillGaps source start stop tokens, ?_, ?_⟩
  · rw [classifyRange_result grammar source h.first_nonneg hle h.last_le, htokens]
    rfl
  · rw [classifyRange_result grammar other h.other_nonneg (by omega) h.other_le,
      Chain.tokens_of_alike hrules start h, htokens]
    exact congrArg Except.ok (fillGaps_of_alike h hspaced)

end LibraryRules

/-- A range that does not begin inside a word is classified as its text is on its own.  Of a range
that begins inside a word nothing matters but its text. -/
theorem classifyRange_local (hlibrary : ∀ label claim, Rule.custom label claim ∉ grammar.rules)
    (hstart : 0 ≤ start) (hle : start ≤ stop) (hstop : stop ≤ source.length) :
    ((start = 0 ∨ ∃ c, source.read (start - 1) = .ok c ∧ isWordChar c = false) →
      ∃ spans, (grammar.classify (.ofText (source.slice start stop))).result = .ok spans ∧
        (grammar.classifyRange source start (some stop)).result =
          .ok (spans.map (Span.shift start))) ∧
    (∀ other : Source, stop ≤ other.length → other.slice start stop = source.slice start stop →
      0 < start → (∃ c, source.read (start - 1) = .ok c ∧ isWordChar c = true) →
      (∃ c, other.read (start - 1) = .ok c ∧ isWordChar c = true) →
      ∃ spans, (grammar.classifyRange source start (some stop)).result = .ok spans ∧
        (grammar.classifyRange other start (some stop)).result = .ok spans) := by
  constructor
  · intro houtside
    have hbehind : (source.behind start).any isWordChar = false := by
      by_cases hfront : start = 0
      · rw [hfront, source.behind_zero]
        rfl
      · obtain ⟨c, hread, hc⟩ := houtside.resolve_left hfront
        rw [source.behind_of_read (by omega) (by omega) hread]
        exact hc
    let alone : Source := .ofText (source.slice start stop)
    have hlength : alone.length = stop - start := by
      rw [Source.length_ofText, source.length_slice hstart hle hstop]
      omega
    have halike : alone.Alike source start 0 alone.length := by
      refine ⟨Int.le_refl 0, alone.length_nonneg, Int.le_refl _, by omega, by omega, ?_, ?_⟩
      · rw [alone.slice_zero_length, Source.text_ofText, hlength, Int.zero_add, Int.sub_add_cancel]
      · rw [alone.behind_zero, Int.zero_add, hbehind]
        rfl
    obtain ⟨spans, hspans, hshifted⟩ := exists_spans_of_alike alone hlibrary halike
    rw [hlength, Int.zero_add, Int.sub_add_cancel] at hshifted
    exact ⟨spans, (congrArg _ (grammar.classify_eq_classifyRange alone)).trans hspans, hshifted⟩
  · rintro other hother hslice hpositive ⟨c, hread, hc⟩ ⟨d, hotherRead, hd⟩
    have halike : source.Alike other 0 start stop := by
      refine ⟨hstart, hle, hstop, by omega, by omega, ?_, ?_⟩
      · rw [Int.add_zero, Int.add_zero, hslice]
      · rw [Int.add_zero, source.behind_of_read hpositive (by omega) hread,
          other.behind_of_read hpositive (by omega) hotherRead]
        exact hc.trans hd.symm
    obtain ⟨spans, hspans, hsame⟩ := exists_spans_of_alike source hlibrary halike
    rw [Int.add_zero, Int.add_zero, Span.shift_zero, List.map_id] at hsame
    exact ⟨spans, hspans, hsame⟩

/-- A string that closes behind the range is no string there, and of the two words that begin before
a range it only matters that they do. -/
theorem classifyRange_local_straddling :
    let source : Source := .ofText "_1e+5e3 \"message\"".toList
    let other : Source := .ofText "t1e+5e3 \"mess".toList
    (∃ spans, (protobuf.classify (.ofText (source.slice 8 13))).result = .ok spans ∧
      (protobuf.classifyRange source 8 (some 13)).result = .ok (spans.map (Span.shift 8))) ∧
    (∃ spans, (protobuf.classifyRange source 1 (some 13)).result = .ok spans ∧
      (protobuf.classifyRange other 1 (some 13)).result = .ok spans) := by
  intro source other
  have hlibrary : ∀ label claim, Rule.custom label claim ∉ protobuf.rules :=
    custom_not_mem_defaultRules
  constructor
  · exact (classifyRange_local protobuf source hlibrary (by decide : (0 : Int) ≤ 8)
      (by decide : (8 : Int) ≤ 13) (by decide)).1 (.inr ⟨' ', rfl, by decide⟩)
  · exact (classifyRange_local protobuf source hlibrary (by decide : (0 : Int) ≤ 1)
      (by decide : (1 : Int) ≤ 13) (by decide)).2 other (by decide) (by decide) (by decide)
      ⟨'_', rfl, by decide⟩ ⟨'t', rfl, by decide⟩

end Grammar

end CodeHighlight
