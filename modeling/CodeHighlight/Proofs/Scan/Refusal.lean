import CodeHighlight.Proofs.Scan.Locality

/-!
# Refused claims

At each position the first claim is heard, be it acceptable or not, and the rules behind the
claiming one are not asked.  So a rule whose claims are all refused adds nothing to a run, but where
it claims a position it hides from the run what the rules behind it would have claimed there
(`Rule.Hides`).  The spans stay the same exactly if it hides none of the tokens.
-/

namespace CodeHighlight

/-! ## Refused rules -/

/-- A marker that stands for a stretch which is empty, reversed, out of place or too long. -/
def Marker.Misplaced (marker : Marker) : Prop :=
  marker.shift ≠ 0 ∨
    match marker.extent with
    | .length count => count ≤ 0
    | .pastStop count => 0 < count

namespace Rule

/-- Between `first` and `last` the rule does not fail, and none of its claims is acceptable. -/
def Refused (rule : Rule) (source : Source) (first last : Int) : Prop :=
  ∀ position, first ≤ position → position < last →
    ∃ claim, rule.answer source.reader position last = .ok claim ∧
      ∀ span ∈ claim, ¬ span.Acceptable position last

/-- The rule claims the position and none of the rules before it does, so that the rules behind it
are not asked there. -/
def Hides (rule : Rule) (before : List Rule) (source : Source) (position last : Int) : Prop :=
  firstAnswer source.reader position last before = .ok none ∧
    ∃ span, rule.answer source.reader position last = .ok (some span)

theorem Refused.mono {rule : Rule} {source : Source} {first later last : Int}
    (h : rule.Refused source first last) (hle : first ≤ later) : rule.Refused source later last :=
  fun position hlater => h position (by omega)

/-- No claim of a misplaced marker is acceptable anywhere. -/
theorem refused_marker {marker : Marker} (hmisplaced : marker.Misplaced) {category : Category}
    (hlabel : Category.ofLabel marker.label = .ok category) {source : Source} {first last : Int}
    (hfirst : 0 ≤ first) (hlast : last ≤ source.length) :
    (Rule.marker marker).Refused source first last := by
  intro position hle hlt
  obtain ⟨c, hread, -⟩ := source.exists_read_slice (by omega : 0 ≤ position) hlt hlast
  rw [Rule.marker, answer_custom]
  show ∃ claim, (source.read position).bind _ = _ ∧ _
  rw [hread]
  show ∃ claim, (if [c] = marker.mark then (Category.ofLabel marker.label).bind _ else _) = _ ∧ _
  by_cases hmark : [c] = marker.mark
  · rw [if_pos hmark, hlabel]
    refine ⟨_, rfl, ?_⟩
    rintro span hspan ⟨hstart, hnonempty, hstop⟩
    obtain rfl := Option.some.inj hspan
    change position + marker.shift = position at hstart
    unfold Marker.Misplaced at hmisplaced
    cases hextent : marker.extent with
    | length count =>
        rw [hextent] at hmisplaced hnonempty
        change position < position + marker.shift + count at hnonempty
        change marker.shift ≠ 0 ∨ count ≤ 0 at hmisplaced
        omega
    | pastStop count =>
        rw [hextent] at hmisplaced hstop
        change last + count ≤ last at hstop
        change marker.shift ≠ 0 ∨ 0 < count at hmisplaced
        omega
  · rw [if_neg hmark]
    exact ⟨none, rfl, nofun⟩

end Rule

/-! ## One more rule in the chain -/

section Step

variable {source : Source} {position last : Int} {before after : List Rule} {rule : Rule}

/-- Where it hides nothing, a rule that does not fail changes nothing. -/
theorem firstAnswer_insert (hrefused : rule.Refused source position last) (hlt : position < last)
    (hnot : ¬ rule.Hides before source position last) :
    firstAnswer source.reader position last (before ++ rule :: after) =
      firstAnswer source.reader position last (before ++ after) := by
  by_cases hbefore : firstAnswer source.reader position last before = .ok none
  · rw [firstAnswer_append_of_none hbefore, firstAnswer_append_of_none hbefore]
    obtain ⟨claim, hclaim, -⟩ := hrefused position (Int.le_refl position) hlt
    cases claim with
    | none => exact firstAnswer_of_none hclaim
    | some span => exact absurd ⟨hbefore, span, hclaim⟩ hnot
  · rw [firstAnswer_append_of_ne_none hbefore, firstAnswer_append_of_ne_none hbefore]

/-- Where it hides the rules behind it, its refused claim is what the run hears. -/
theorem firstAnswer_of_hides (after : List Rule) (hrefused : rule.Refused source position last)
    (hlt : position < last) (hhides : rule.Hides before source position last) :
    ∃ span, firstAnswer source.reader position last (before ++ rule :: after) = .ok (some span) ∧
      judge position last (some span) = .refused span := by
  obtain ⟨hbefore, span, hspan⟩ := hhides
  obtain ⟨claim, hclaim, hunacceptable⟩ := hrefused position (Int.le_refl position) hlt
  obtain rfl := Except.ok.inj (hspan.symm.trans hclaim)
  refine ⟨span, ?_, if_neg (hunacceptable span rfl)⟩
  rw [firstAnswer_append_of_none hbefore]
  exact firstAnswer_of_some hspan

end Step

/-! ## Runs with one more rule -/

namespace Chain

variable {source : Source} {position last : Int} {before after : List Rule} {rule : Rule}

private theorem map_append_eq_ok_iff {result : Except Error (List Span)} {front rest : List Span} :
    result.map (front ++ ·) = .ok (front ++ rest) ↔ result = .ok rest := by
  cases result with
  | error e => exact ⟨nofun, nofun⟩
  | ok tokens =>
      show Except.ok (front ++ tokens) = .ok (front ++ rest) ↔ _
      rw [Except.ok.injEq, Except.ok.injEq, List.append_cancel_left_eq]

/-- The run passes a position at which the rule hides those behind it. -/
theorem result_of_hides (hrefused : rule.Refused source position last) (hlt : position < last)
    (hhides : rule.Hides before source position last) :
    ((forgetful (before ++ rule :: after)).tokens source.reader position last).result =
      ((forgetful (before ++ rule :: after)).tokens source.reader (position + 1) last).result := by
  obtain ⟨span, hspan, hjudge⟩ := firstAnswer_of_hides after hrefused hlt hhides
  rw [result_of_claim hlt hspan, hjudge]
  show ((forgetful _).tokens source.reader (position + 1) last).result.map ([] ++ ·) = _
  cases ((forgetful (before ++ rule :: after)).tokens source.reader (position + 1) last).result <;>
    rfl

end Chain

namespace Grammar

section Insert

variable {grammar : Grammar} {source : Source} {first last : Int} {before after : List Rule}
  {rule : Rule} (hrules : grammar.allRules = before ++ after) (hfirst : 0 ≤ first)
  (hlast : last ≤ source.length)

include hrules hfirst hlast

/-- From any stage of a run on, a rule whose claims are all refused leaves the tokens as they are
exactly if it hides none of them, provided that it hides no plain span that the run accepts. -/
theorem Stage.tokens_insert_iff (hrefused : rule.Refused source first last)
    (hplain : ∀ span, grammar.Accepts source first last span → span.category = .plain →
      ¬ rule.Hides before source span.start last)
    {position : Int} {chain : Chain} (hstage : grammar.Stage source first last position chain)
    {tokens : List Span}
    (htokens : ((Chain.forgetful grammar.allRules).tokens source.reader position last).result =
      .ok tokens) :
    ((Chain.forgetful (before ++ rule :: after)).tokens source.reader position last).result =
        .ok tokens ↔
      ∀ token ∈ tokens, ¬ rule.Hides before source token.start last := by
  have hrefusedHere := hrefused.mono (hstage.invariant hfirst hlast).1
  by_cases hlt : position < last
  · obtain ⟨claim, rest, hanswer, hrest, rfl⟩ := Chain.exists_step_of_tokens hlt htokens
    obtain ⟨left, hclaim⟩ := hstage.exists_firstClaim hfirst hlast hlt hanswer
    have hnext := lt_next_judge position last claim
    have ih := tokens_insert_iff hrefused hplain (.next position chain left claim hstage hlt hclaim)
      hrest
    by_cases hhides : rule.Hides before source position last
    · rw [Chain.result_of_hides hrefusedHere hlt hhides]
      rcases judge_passes_or_acceptable position last claim with
        ⟨hnil, hone⟩ | ⟨hidden, rfl, haccept⟩
      · -- Nothing acceptable is hidden, and both runs pass the position.
        rw [hone] at ih
        rw [hnil]
        exact ih
      · -- A hidden token is missing from the other run, which finds nothing before the next place.
        rw [← haccept.1] at hhides
        have hcategory : hidden.category ≠ .plain := fun hcategory =>
          hplain hidden ⟨position, chain, left, hstage, hlt, hclaim, haccept⟩ hcategory hhides
        have htoken : (judge position last (some hidden)).tokens = [hidden] := by
          rw [judge, if_pos haccept, if_neg hcategory]
          rfl
        rw [htoken]
        constructor
        · intro hsame
          have hlater := Chain.le_start_of_tokens (position + 1) hsame hidden List.mem_cons_self
          have hstart := haccept.1
          omega
        · exact fun hnone => absurd hhides (hnone hidden List.mem_cons_self)
    · rw [hrules] at hanswer
      rw [Chain.result_of_claim hlt ((firstAnswer_insert hrefusedHere hlt hhides).trans hanswer),
        Chain.map_append_eq_ok_iff, ih, List.forall_mem_append]
      refine ⟨fun hlater => ⟨?_, hlater⟩, And.right⟩
      intro token htoken
      rw [(start_of_mem_tokens_judge htoken).1]
      exact hhides
  · rw [Chain.tokens_of_le (by omega)] at htokens ⊢
    obtain rfl := Except.ok.inj htokens
    exact ⟨fun _ _ htoken => absurd htoken List.not_mem_nil, fun _ => rfl⟩
termination_by (last - position).toNat

/-- Behind the rule no plain span is accepted if only quoted strings and numerals are looked for
there. -/
theorem not_hides_plain (hafter : ∀ other ∈ after, (∃ marks, other = .quoted marks) ∨
      other = .numeral)
    {span : Span} (haccepts : grammar.Accepts source first last span)
    (hplain : span.category = .plain) : ¬ rule.Hides before source span.start last := by
  rintro ⟨hbefore, -⟩
  obtain ⟨position, chain, left, hstage, hlt, hclaim, haccept⟩ := haccepts
  obtain ⟨hposition, -⟩ := hstage.invariant hfirst hlast
  have hanswer := hstage.firstAnswer_eq hfirst hlast hlt
  rw [haccept.1] at hbefore
  rw [hclaim, hrules, firstAnswer_append_of_none hbefore] at hanswer
  obtain ⟨other, hmem, hother⟩ := exists_rule_of_firstAnswer hanswer nofun
  have hlibrary : ∀ label claim, other ≠ .custom label claim := by
    rintro label claim rfl
    rcases hafter _ hmem with ⟨marks, hmarks⟩ | hnumeral
    · contradiction
    · contradiction
  obtain ⟨claim, hanswer, hexact⟩ := other.answer_exact hlibrary (by omega) hlt hlast
  rw [hanswer] at hother
  obtain ⟨category, lexeme, rest, -, hfinds, rfl⟩ := (hexact span).1 (Except.ok.inj hother)
  obtain rfl : category = .plain := hplain
  rcases hafter other hmem with ⟨marks, rfl⟩ | rfl
  · exact absurd hfinds.2 nofun
  · exact absurd hfinds.2.2.2 nofun

end Insert

end Grammar

/-! ## Spans with one more rule -/

section Gaps

variable (source : Source) (first last : Int) {tokens : List Span}

/-- Different tokens leave different spans. -/
private theorem map_fillGaps_eq_ok_iff (htokens : ∀ token ∈ tokens, token.category ≠ .plain)
    {result : Except Error (List Span)}
    (hresult : ∀ others, result = .ok others → ∀ token ∈ others, token.category ≠ .plain) :
    result.map (fillGaps source first last) = .ok (fillGaps source first last tokens) ↔
      result = .ok tokens := by
  cases result with
  | error e => exact ⟨nofun, nofun⟩
  | ok others =>
      constructor
      · intro hsame
        have hfilled := Except.ok.inj hsame
        rw [← filter_fillGaps source first last (hresult others rfl), hfilled,
          filter_fillGaps source first last htokens]
      · rintro hsame
        rw [hsame]
        rfl

/-- The spans that are not plain are the tokens. -/
private theorem forall_fillGaps_iff (htokens : ∀ token ∈ tokens, token.category ≠ .plain)
    {p : Span → Prop} :
    (∀ span ∈ fillGaps source first last tokens, span.category ≠ .plain → p span) ↔
      ∀ token ∈ tokens, p token := by
  constructor
  · intro h token htoken
    have hcategory := htokens token htoken
    exact h token ((mem_fillGaps_iff source first last htokens hcategory).2 htoken) hcategory
  · intro h span hspan hcategory
    exact h span ((mem_fillGaps_iff source first last htokens hcategory).1 hspan)

end Gaps

namespace Grammar

/-- A rule whose claims are all refused leaves the spans of a range as they are exactly if it hides
none of the tokens, provided that it hides no plain span that the run accepts. -/
theorem classifyRange_insert_iff (grammar : Grammar) (source : Source) (start : Int)
    (stop : Option Int) {first last : Int} (hfirst : first = source.startWithin start stop)
    (hlast : last = source.stopWithin stop) {before after : List Rule} {rule : Rule}
    (hrules : grammar.rules = before ++ after) (hrefused : rule.Refused source first last)
    (hplain : ∀ span, grammar.Accepts source first last span → span.category = .plain →
      ¬ rule.Hides (.word grammar.keywords grammar.literals :: before) source span.start last)
    {spans : List Span} (hspans : (grammar.classifyRange source start stop).result = .ok spans) :
    ({ grammar with rules := before ++ rule :: after }.classifyRange source start stop).result =
        .ok spans ↔
      ∀ span ∈ spans, span.category ≠ .plain →
        ¬ rule.Hides (.word grammar.keywords grammar.literals :: before) source span.start
          last := by
  let words := Rule.word grammar.keywords grammar.literals
  have hall : grammar.allRules = (words :: before) ++ after := congrArg (words :: ·) hrules
  have hnonneg : 0 ≤ first := hfirst ▸ source.startWithin_nonneg start stop
  have hle : last ≤ source.length := hlast ▸ source.stopWithin_le stop
  rw [classifyRange_result_within, ← hfirst, ← hlast] at hspans ⊢
  show ((Chain.forgetful ((words :: before) ++ rule :: after)).tokens _ _ _).result.map _ = _ ↔ _
  cases htokens : ((Chain.forgetful grammar.allRules).tokens source.reader first last).result with
  | error e =>
      rw [htokens] at hspans
      contradiction
  | ok tokens =>
      rw [htokens] at hspans
      obtain rfl := Except.ok.inj hspans
      have hcategory := fun token htoken =>
        (Chain.le_start_of_tokens first htokens token htoken).2
      rw [forall_fillGaps_iff source first last hcategory,
        map_fillGaps_eq_ok_iff source first last hcategory fun others hothers token htoken =>
          (Chain.le_start_of_tokens first hothers token htoken).2]
      exact Stage.tokens_insert_iff hall hnonneg hle hrefused hplain .start htokens

/-- Where the marker is met inside a string, or where no string begins, it hides nothing. -/
theorem classifyRange_insert_iff_unheard :
    let grammar : Grammar := { protobuf with rules := [.numeral, .quotedString] }
    let source : Source := .ofText "# \"#\" \"b".toList
    let rule : Rule := .marker ⟨['#'], "string".toList, 0, .length 0⟩
    let spans : List Span := [⟨.plain, "# ".toList, 0, 2⟩, ⟨.string, "\"#\"".toList, 2, 5⟩,
      ⟨.plain, " \"b".toList, 5, 8⟩]
    rule.Refused source 0 8 ∧ (grammar.classifyRange source 0 none).result = .ok spans ∧
      (({ grammar with rules := [.numeral, rule, .quotedString] }.classifyRange source 0
        none).result = .ok spans ↔
          ∀ span ∈ spans, span.category ≠ .plain →
            ¬ rule.Hides [.word grammar.keywords grammar.literals, .numeral] source span.start
              8) := by
  intro grammar source rule spans
  have hrefused : rule.Refused source 0 8 :=
    Rule.refused_marker (.inr (Int.le_refl 0)) rfl (Int.le_refl 0) (by decide)
  have hspans : (grammar.classifyRange source 0 none).result = .ok spans := by
    decide +kernel
  have hplain : ∀ span, grammar.Accepts source 0 8 span → span.category = .plain →
      ¬ rule.Hides [.word grammar.keywords grammar.literals, .numeral] source span.start 8 := by
    intro span
    have hrules : grammar.allRules =
        [.word grammar.keywords grammar.literals, .numeral] ++ [.quotedString] := rfl
    exact not_hides_plain hrules (Int.le_refl 0) (by decide) (by simp [Rule.quotedString])
  have hrules : grammar.rules = [.numeral] ++ [.quotedString] := rfl
  exact ⟨hrefused, hspans, classifyRange_insert_iff grammar source 0 none (by decide) (by decide)
    hrules hrefused hplain hspans⟩

/-- Behind an empty claim no string is found. -/
theorem classifyRange_insert_hidden :
    let source : Source := .ofText "\"a\"".toList
    let rule : Rule := .marker ⟨['"'], "string".toList, 0, .length 0⟩
    rule.Refused source 0 3 ∧
      ({ protobuf with rules := [.quotedString] }.classifyRange source 0 none).result =
        .ok [⟨.string, "\"a\"".toList, 0, 3⟩] ∧
      ({ protobuf with rules := [rule, .quotedString] }.classifyRange source 0 none).result =
        .ok [⟨.plain, "\"a\"".toList, 0, 3⟩] := by
  refine ⟨Rule.refused_marker (.inr (Int.le_refl 0)) rfl (Int.le_refl 0) (by decide), ?_, ?_⟩
  · decide +kernel
  · decide +kernel

end Grammar

end CodeHighlight
