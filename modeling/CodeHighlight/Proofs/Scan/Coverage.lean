import CodeHighlight.Proofs.Scan.Memory
import Mathlib.Data.List.Chain

/-!
# Spans cover their stretch

Whatever the rules of a grammar claim, the spans of a stretch follow one another without a gap, none
is empty, and no two plain spans touch.  A claim is heard only if it starts at the cursor and stays
inside the stretch, so the tokens of a run are spaced out in order (`Spaced`), and the gaps between
spaced tokens are what `fillGaps` fills (`tiles_fillGaps`).

All that is asked of the rules concerns the spans that a run accepts.  `Grammar.Stage` therefore
follows a run step by step, with the chain as it is at each step.
-/

namespace CodeHighlight

/-! ## Tilings -/

/-- The spans follow one another from `start` to `stop`; none of them is empty, and each carries the
text between its offsets. -/
inductive Tiles (source : Source) : Int → Int → List Span → Prop
  | nil (position : Int) : Tiles source position position []
  | cons (span : Span) (rest : List Span) (stop : Int) (hlt : span.start < span.stop)
      (htext : span.text = source.slice span.start span.stop)
      (hrest : Tiles source span.stop stop rest) : Tiles source span.start stop (span :: rest)

/-- The tokens lie between `start` and `stop`, one behind the other; none of them is empty, and each
carries the text between its offsets. -/
inductive Spaced (source : Source) : Int → Int → List Span → Prop
  | nil (start stop : Int) (hle : start ≤ stop) : Spaced source start stop []
  | cons (start stop : Int) (token : Span) (rest : List Span) (hstart : start ≤ token.start)
      (hlt : token.start < token.stop) (htext : token.text = source.slice token.start token.stop)
      (hcategory : token.category ≠ .plain) (hrest : Spaced source token.stop stop rest) :
      Spaced source start stop (token :: rest)

/-- The tokens lie between `start` and `stop`, one behind the other, whatever texts they carry; none
of them is empty. -/
def Ordered : Int → Int → List Span → Prop
  | start, stop, [] => start ≤ stop
  | start, stop, token :: rest =>
      start ≤ token.start ∧ token.start < token.stop ∧ token.category ≠ .plain ∧
        Ordered token.stop stop rest

/-- The spans follow one another from `start` to `stop`, whatever texts they carry; none of them is
empty. -/
def Consecutive : Int → Int → List Span → Prop
  | start, stop, [] => start = stop
  | start, stop, span :: rest =>
      span.start = start ∧ start < span.stop ∧ Consecutive span.stop stop rest

/-- Of two neighbours at least one is a token. -/
def NoPlainPair (spans : List Span) : Prop :=
  spans.IsChain fun span next => ¬(span.category = .plain ∧ next.category = .plain)

/-- The text of some spans, one after the other. -/
def Span.texts (spans : List Span) : Text := (spans.map Span.text).flatten

namespace Tiles

variable {source : Source} {start stop : Int} {spans : List Span}

theorem le (h : Tiles source start stop spans) : start ≤ stop := by
  induction h with
  | nil => exact Int.le_refl _
  | cons span rest stop hlt _ _ ih => omega

theorem eq_nil_of_le (h : Tiles source start stop spans) (hle : stop ≤ start) : spans = [] := by
  cases h with
  | nil => rfl
  | cons span rest stop hlt _ hrest =>
      have hmore := hrest.le
      omega

theorem texts_eq (h : Tiles source start stop spans) (hstart : 0 ≤ start) :
    Span.texts spans = source.slice start stop := by
  induction h with
  | nil =>
      rw [source.slice_eq_nil hstart (Int.le_refl _)]
      rfl
  | cons span rest stop hlt htext hrest ih =>
      show span.text ++ Span.texts rest = _
      rw [htext, ih (by omega), source.slice_append hstart (by omega) hrest.le]

theorem eq_of_nil (h : Tiles source start stop []) : start = stop := by
  cases h
  rfl

theorem start_eq {span : Span} (h : Tiles source start stop (span :: spans)) :
    span.start = start := by
  cases h
  rfl

/-- The spans of a tiling lie between its ends. -/
theorem bounds (h : Tiles source start stop spans) :
    ∀ span ∈ spans, start ≤ span.start ∧ span.stop ≤ stop := by
  induction h with
  | nil => exact nofun
  | cons first rest stop hlt _ hrest ih =>
      have hle := hrest.le
      intro span hspan
      rcases List.mem_cons.1 hspan with rfl | hspan
      · exact ⟨Int.le_refl _, hle⟩
      · have hlater := ih span hspan
        exact ⟨by omega, hlater.2⟩

/-- A tiling can be cut between any two of its spans. -/
theorem split {left right : List Span} (h : Tiles source start stop (left ++ right)) :
    ∃ middle, Tiles source start middle left ∧ Tiles source middle stop right := by
  induction left generalizing start with
  | nil => exact ⟨start, .nil start, h⟩
  | cons span left ih =>
      cases h with
      | cons _ _ _ hlt htext hrest =>
          obtain ⟨middle, hleft, hright⟩ := ih hrest
          exact ⟨middle, .cons span left middle hlt htext hleft, hright⟩

theorem stop_eq {span : Span} (h : Tiles source start stop (spans ++ [span])) :
    span.stop = stop := by
  obtain ⟨middle, -, hlast⟩ := h.split
  cases hlast with
  | cons _ _ _ _ _ hrest => exact hrest.eq_of_nil

/-- A plain span may be put in front of a tiling. -/
theorem plainBetween_append {first : Int} (h : Tiles source start stop spans)
    (hle : first ≤ start) :
    Tiles source first stop (plainBetween source first start ++ spans) := by
  unfold plainBetween
  by_cases hlt : first < start
  · rw [if_pos hlt]
    exact .cons ⟨.plain, source.slice first start, first, start⟩ spans stop hlt rfl h
  · have hsame : first = start := by omega
    rw [if_neg hlt, hsame]
    exact h

end Tiles

namespace Spaced

variable {source : Source} {start stop : Int} {tokens : List Span}

theorem le (h : Spaced source start stop tokens) : start ≤ stop := by
  induction h with
  | nil start stop hle => exact hle
  | cons start stop token rest hstart hlt _ _ _ ih => omega

theorem not_plain (h : Spaced source start stop tokens) :
    ∀ token ∈ tokens, token.category ≠ .plain := by
  induction h with
  | nil => exact nofun
  | cons start stop token rest _ _ _ hcategory _ ih =>
      intro other hother
      rcases List.mem_cons.1 hother with rfl | hother
      · exact hcategory
      · exact ih other hother

/-- Filling the gaps between spaced tokens tiles the stretch. -/
theorem tiles_fillGaps (h : Spaced source start stop tokens) :
    Tiles source start stop (fillGaps source start stop tokens) := by
  induction h with
  | nil start stop hle =>
      have hfill : Tiles source start stop (plainBetween source start stop ++ []) :=
        (Tiles.nil stop).plainBetween_append hle
      rwa [List.append_nil] at hfill
  | cons start stop token rest hstart hlt htext _ _ ih =>
      exact (Tiles.cons token _ stop hlt htext ih).plainBetween_append hstart

end Spaced

namespace Ordered

variable {source : Source} {start stop : Int} {tokens : List Span}

theorem mono {earlier : Int} (h : Ordered start stop tokens) (hle : earlier ≤ start) :
    Ordered earlier stop tokens := by
  cases tokens with
  | nil =>
      have hstop : start ≤ stop := h
      show earlier ≤ stop
      omega
  | cons token rest =>
      obtain ⟨hstart, hlater⟩ := h
      exact ⟨by omega, hlater⟩

theorem not_plain (h : Ordered start stop tokens) : ∀ token ∈ tokens, token.category ≠ .plain := by
  induction tokens generalizing start with
  | nil => exact nofun
  | cons token rest ih =>
      obtain ⟨-, -, hcategory, hrest⟩ := h
      exact List.forall_mem_cons.2 ⟨hcategory, ih hrest⟩

theorem spaced (h : Ordered start stop tokens)
    (htext : ∀ token ∈ tokens, token.text = source.slice token.start token.stop) :
    Spaced source start stop tokens := by
  induction tokens generalizing start with
  | nil => exact .nil start stop h
  | cons token rest ih =>
      obtain ⟨hstart, hlt, hcategory, hrest⟩ := h
      obtain ⟨hself, hothers⟩ := List.forall_mem_cons.1 htext
      exact .cons start stop token rest hstart hlt hself hcategory (ih hrest hothers)

/-- Filling the gaps between ordered tokens leaves none. -/
theorem consecutive_fillGaps (source : Source) (h : Ordered start stop tokens) :
    Consecutive start stop (fillGaps source start stop tokens) := by
  have hgap : ∀ {first last rest}, first ≤ last → Consecutive last stop rest →
      Consecutive first stop (plainBetween source first last ++ rest) := by
    intro first last rest hle hrest
    unfold plainBetween
    by_cases hlt : first < last
    · rw [if_pos hlt]
      exact ⟨rfl, hlt, hrest⟩
    · obtain rfl : first = last := by omega
      rw [if_neg hlt]
      exact hrest
  induction tokens generalizing start with
  | nil =>
      rw [fillGaps, ← List.append_nil (plainBetween source start stop)]
      exact hgap h rfl
  | cons token rest ih =>
      obtain ⟨hstart, hlt, -, hrest⟩ := h
      exact hgap hstart ⟨rfl, hlt, ih hrest⟩

end Ordered

section Gaps

variable (source : Source) (start stop : Int) {tokens : List Span}

private theorem plain_of_mem_plainBetween {span : Span}
    (h : span ∈ plainBetween source start stop) : span.category = .plain := by
  unfold plainBetween at h
  split at h
  · rw [List.mem_singleton.1 h]
  · contradiction

/-- Nothing but the tokens is left when the plain spans are taken out again. -/
theorem filter_fillGaps (htokens : ∀ token ∈ tokens, token.category ≠ .plain) :
    (fillGaps source start stop tokens).filter (fun span => span.category ≠ .plain) = tokens := by
  have hgap : ∀ first last, (plainBetween source first last).filter
      (fun span => span.category ≠ .plain) = [] := by
    intro first last
    apply List.filter_eq_nil_iff.2
    intro span hspan
    have hplain := plain_of_mem_plainBetween source first last hspan
    simp [hplain]
  induction tokens generalizing start with
  | nil => exact hgap start stop
  | cons token rest ih =>
      have htoken : token.category ≠ .plain := htokens token List.mem_cons_self
      have hrest :=
        ih token.stop fun other hother => htokens other (List.mem_cons_of_mem token hother)
      rw [fillGaps, List.filter_append, hgap, List.nil_append,
        List.filter_cons_of_pos (by simpa using htoken), hrest]

/-- A selection that leaves out plain spans is a selection of tokens. -/
theorem filter_fillGaps_of_not_plain (htokens : ∀ token ∈ tokens, token.category ≠ .plain)
    {p : Span → Prop} [DecidablePred p] (hp : ∀ span, p span → span.category ≠ .plain) :
    (fillGaps source start stop tokens).filter (fun span => p span) =
      tokens.filter (fun span => p span) := by
  conv_rhs => rw [← filter_fillGaps source start stop htokens, List.filter_filter]
  refine List.filter_congr fun span _ => ?_
  by_cases hspan : p span
  · simp [hspan, hp span hspan]
  · simp [hspan]

/-- The spans that are not plain are the tokens. -/
theorem mem_fillGaps_iff (htokens : ∀ token ∈ tokens, token.category ≠ .plain) {span : Span}
    (hcategory : span.category ≠ .plain) :
    span ∈ fillGaps source start stop tokens ↔ span ∈ tokens := by
  have hfilter := @List.mem_filter _ (fun span : Span => span.category ≠ .plain)
    (fillGaps source start stop tokens) span
  rw [filter_fillGaps source start stop htokens] at hfilter
  rw [hfilter, and_iff_left (decide_eq_true hcategory)]

private theorem noPlainPair_plainBetween : NoPlainPair (plainBetween source start stop) := by
  unfold plainBetween
  split
  · exact .singleton _
  · exact .nil

/-- Between two plain spans there is always a token. -/
theorem noPlainPair_fillGaps (htokens : ∀ token ∈ tokens, token.category ≠ .plain) :
    NoPlainPair (fillGaps source start stop tokens) := by
  induction tokens generalizing start with
  | nil => exact noPlainPair_plainBetween source start stop
  | cons token rest ih =>
      have htoken : token.category ≠ .plain := htokens token List.mem_cons_self
      have hrest :=
        ih token.stop fun other hother => htokens other (List.mem_cons_of_mem token hother)
      have hcons : NoPlainPair (token :: fillGaps source token.stop stop rest) :=
        hrest.cons fun _ _ h => htoken h.1
      -- The token stands between the gap before it and whatever comes behind it.
      rw [fillGaps]
      refine (noPlainPair_plainBetween source start token.start).append hcons ?_
      intro before _ after hafter h
      obtain rfl := Option.some.inj hafter
      exact htoken h.2

/-- In a tiling without neighbouring plain spans these are just the gaps between its tokens. -/
theorem Tiles.eq_fillGaps {source : Source} {start stop : Int} {spans : List Span}
    (h : Tiles source start stop spans) (hpairs : NoPlainPair spans) :
    spans = fillGaps source start stop (spans.filter fun span => span.category ≠ .plain) := by
  have hempty : ∀ position, plainBetween source position position = [] :=
    fun position => if_neg (Int.lt_irrefl position)
  induction h with
  | nil position => exact (hempty position).symm
  | cons span rest stop hlt htext hrest ih =>
      have htail := ih hpairs.tail
      by_cases hspan : span.category = .plain
      · have hplain : plainBetween source span.start span.stop = [span] := by
          rw [plainBetween, if_pos hlt, ← htext, ← hspan]
        rw [List.filter_cons_of_neg (by simpa using hspan)]
        cases rest with
        | nil =>
            rw [← hrest.eq_of_nil]
            exact hplain.symm
        | cons next rest =>
            -- Behind a plain span there is a token, so no gap separates the two.
            have hnext : next.category ≠ .plain :=
              fun hnext => (List.isChain_cons_cons.1 hpairs).1 ⟨hspan, hnext⟩
            rw [List.filter_cons_of_pos (by simpa using hnext), fillGaps, hrest.start_eq] at htail ⊢
            rw [hempty, List.nil_append] at htail
            rw [hplain, ← htail]
            rfl
      · rw [List.filter_cons_of_pos (by simpa using hspan), fillGaps, hempty, List.nil_append,
          ← htail]

end Gaps

/-! ## The stages of a run -/

namespace Grammar

variable (grammar : Grammar) (source : Source) (first last : Int)

/-- The stages of a run from `first` to `last`: the positions that the run looks at, each with the
chain as it is when the run comes there. -/
inductive Stage : Int → Chain → Prop
  | start : Stage first (Chain.fresh grammar.allRules)
  | next (position : Int) (chain after : Chain) (claim : Option Span)
      (hstage : Stage position chain) (hlt : position < last)
      (hclaim : chain.firstClaim source.reader position last = .ok (claim, after)) :
      Stage ((judge position last claim).next position) after

/-- A run accepts a span that is the first claim at one of its stages and acceptable there. -/
def Accepts (span : Span) : Prop :=
  ∃ position chain after, grammar.Stage source first last position chain ∧ position < last ∧
    chain.firstClaim source.reader position last = .ok (some span, after) ∧
    span.Acceptable position last

/-- Of the spans that a run accepts, those that are claims of the caller's own rules carry the text
between their offsets. -/
def CarriesText : Prop :=
  ∀ span, grammar.Accepts source first last span → ∀ label claim,
    Rule.custom label claim ∈ grammar.rules → claim source span.start last = .ok (some span) →
      span.text = source.slice span.start span.stop

/-- One of the caller's own rules fails in the course of a run. -/
def FailsWith (e : Error) : Prop :=
  ∃ position chain, grammar.Stage source first last position chain ∧ position < last ∧
    ∃ label claim, Rule.custom label claim ∈ grammar.rules ∧ claim source position last = .error e

variable {grammar source first last} {position : Int} {chain : Chain}

/-- A run only moves on, and its chain stays sound. -/
theorem Stage.invariant (h : grammar.Stage source first last position chain) (hfirst : 0 ≤ first)
    (hlast : last ≤ source.length) :
    first ≤ position ∧ chain.rules = grammar.allRules ∧ chain.Sound source last position := by
  induction h with
  | start => exact ⟨Int.le_refl _, Chain.rules_fresh _, Chain.sound_fresh _⟩
  | next position chain after claim _ hlt hclaim ih =>
      obtain ⟨hposition, hrules, hsound⟩ := ih
      have hnext := lt_next_judge position last claim
      rcases Chain.firstClaim_of_sound hsound (by omega) hlt hlast with
        ⟨e, -, hother⟩ | ⟨other, left, -, hother, hleft, hstays⟩
      · rw [hother] at hclaim
        contradiction
      · rw [hother] at hclaim
        obtain ⟨rfl, rfl⟩ := Prod.mk.inj (Except.ok.inj hclaim)
        exact ⟨by omega, hleft.trans hrules, hstays.mono (by omega)⟩

/-- The first claim at a stage is what the rules answer there without memories. -/
theorem Stage.firstAnswer_eq (h : grammar.Stage source first last position chain)
    (hfirst : 0 ≤ first) (hlast : last ≤ source.length) (hlt : position < last) :
    firstAnswer source.reader position last grammar.allRules =
      (chain.firstClaim source.reader position last).map Prod.fst := by
  obtain ⟨hposition, hrules, hsound⟩ := h.invariant hfirst hlast
  rw [← hrules]
  rcases Chain.firstClaim_of_sound hsound (by omega) hlt hlast with
    ⟨e, hanswer, hclaim⟩ | ⟨claim, after, hanswer, hclaim, -⟩
  · rw [hanswer, hclaim]
    rfl
  · rw [hanswer, hclaim]
    rfl

theorem Stage.exists_firstClaim (h : grammar.Stage source first last position chain)
    (hfirst : 0 ≤ first) (hlast : last ≤ source.length) (hlt : position < last)
    {claim : Option Span}
    (hanswer : firstAnswer source.reader position last grammar.allRules = .ok claim) :
    ∃ after, chain.firstClaim source.reader position last = .ok (claim, after) := by
  rw [h.firstAnswer_eq hfirst hlast hlt] at hanswer
  cases hclaim : chain.firstClaim source.reader position last with
  | error e =>
      rw [hclaim] at hanswer
      contradiction
  | ok heard =>
      rw [hclaim] at hanswer
      obtain rfl := Except.ok.inj hanswer
      exact ⟨heard.2, rfl⟩

end Grammar

/-! ## What a run finds -/

/-- A marker with the label of a category answers wherever the source can be read. -/
theorem Marker.exists_claim (marker : Marker) {source : Source} {position : Int} {c : Char}
    (hread : source.read position = .ok c)
    (hlabel : marker.label ∈ Category.all.map Category.label) (stop : Int) :
    ∃ answer, marker.claim source position stop = .ok answer := by
  obtain ⟨category, -, hcategory⟩ := List.mem_map.1 hlabel
  change ∃ answer, (source.read position).bind _ = .ok answer
  rw [hread]
  change ∃ answer, (if [c] = marker.mark then (Category.ofLabel marker.label).bind _
    else .ok none) = .ok answer
  rw [← hcategory, Category.ofLabel_label]
  split
  · exact ⟨_, rfl⟩
  · exact ⟨none, rfl⟩

/-- The claim of a marker carries the text between its offsets as far as they lie in the source. -/
theorem Marker.text_of_claim (marker : Marker) {source : Source} {position stop : Int} {span : Span}
    (h : marker.claim source position stop = .ok (some span)) :
    span.text = source.slice (max span.start 0) (max span.stop 0) := by
  change (source.read position).bind _ = _ at h
  cases hread : source.read position with
  | error e =>
      rw [hread] at h
      contradiction
  | ok c =>
      rw [hread] at h
      change (if [c] = marker.mark then (Category.ofLabel marker.label).bind _ else _) = _ at h
      split at h
      · cases hlabel : Category.ofLabel marker.label with
        | error e =>
            rw [hlabel] at h
            contradiction
        | ok category =>
            rw [hlabel] at h
            obtain rfl := Option.some.inj (Except.ok.inj h)
            rfl
      · have hnone : none = some span := Except.ok.inj h
        contradiction

namespace Grammar

variable {grammar : Grammar} {source : Source} {first last position : Int} {chain : Chain}

private theorem mem_rules_of_custom {label : Text}
    {claim : Source → Int → Int → Except Error (Option Span)}
    (h : Rule.custom label claim ∈ grammar.allRules) : Rule.custom label claim ∈ grammar.rules := by
  rcases List.mem_cons.1 h with h | h
  · contradiction
  · exact h

/-- An accepted span carries its text, whichever rule claims it. -/
private theorem text_of_accepts (hcarries : grammar.CarriesText source first last)
    (hfirst : 0 ≤ first) (hlast : last ≤ source.length) {span : Span}
    (haccepts : grammar.Accepts source first last span) :
    span.text = source.slice span.start span.stop := by
  obtain ⟨position, chain, after, hstage, hlt, hclaim, rfl, -⟩ := id haccepts
  have hposition := (hstage.invariant hfirst hlast).1
  have hanswer := hstage.firstAnswer_eq hfirst hlast hlt
  rw [hclaim] at hanswer
  obtain ⟨rule, hmem, hrule⟩ := exists_rule_of_firstAnswer hanswer nofun
  by_cases hcustom : ∃ label claim, rule = .custom label claim
  · obtain ⟨label, claim, rfl⟩ := hcustom
    rw [Rule.answer_custom] at hrule
    exact hcarries span haccepts label claim (mem_rules_of_custom hmem) hrule
  · obtain ⟨claim, hclaim, hlexeme⟩ := rule.exists_answer
      (fun label claim h => hcustom ⟨label, claim, h⟩) (by omega) hlt hlast
    obtain rfl := Except.ok.inj (hclaim.symm.trans hrule)
    obtain ⟨category, lexeme, rest, hsplit, hspan⟩ := hlexeme span rfl
    rw [Span.ofLexeme_eq source category (by omega) (by omega) hsplit] at hspan
    have htext := congrArg Span.text hspan
    have hstop := congrArg Span.stop hspan
    rw [htext, hstop]

/-- Only the caller's own rules fail. -/
private theorem failsWith_of_answer (hstage : grammar.Stage source first last position chain)
    (hposition : 0 ≤ position) (hlt : position < last) (hlast : last ≤ source.length) {e : Error}
    (hanswer : firstAnswer source.reader position last grammar.allRules = .error e) :
    grammar.FailsWith source first last e := by
  obtain ⟨rule, hmem, hrule⟩ := exists_rule_of_firstAnswer hanswer nofun
  by_cases hcustom : ∃ label claim, rule = .custom label claim
  · obtain ⟨label, claim, rfl⟩ := hcustom
    rw [Rule.answer_custom] at hrule
    exact ⟨position, chain, hstage, hlt, label, claim, mem_rules_of_custom hmem, hrule⟩
  · obtain ⟨claim, hclaim, -⟩ :=
      rule.exists_answer (fun label claim h => hcustom ⟨label, claim, h⟩) hposition hlt hlast
    rw [hclaim] at hrule
    contradiction

/-- From any stage on, a run either finds ordered tokens, all of them accepted, or ends with the
failure of one of the caller's own rules. -/
theorem Stage.failsWith_or_ordered (position : Int) (chain : Chain)
    (hstage : grammar.Stage source first last position chain) (hfirst : 0 ≤ first)
    (hlast : last ≤ source.length) (hle : position ≤ last) :
    (∃ e, (chain.tokens source.reader position last).result = .error e ∧
      grammar.FailsWith source first last e) ∨
    ∃ tokens, (chain.tokens source.reader position last).result = .ok tokens ∧
      Ordered position last tokens ∧ ∀ token ∈ tokens, grammar.Accepts source first last token := by
  obtain ⟨hposition, hrules, hsound⟩ := hstage.invariant hfirst hlast
  -- What is left of the run starts at the next stage, which is no further than the bound.
  by_cases hlt : position < last
  · rcases Chain.firstClaim_of_sound hsound (by omega) hlt hlast with
      ⟨e, hanswer, hclaim⟩ | ⟨claim, after, hanswer, hclaim, -, -⟩
    · rw [hrules] at hanswer
      rw [Chain.tokens_of_error hlt hclaim]
      exact .inl ⟨e, rfl, failsWith_of_answer hstage (by omega) hlt hlast hanswer⟩
    · rw [Chain.tokens_of_claim hlt hclaim]
      have hnext := lt_next_judge position last claim
      have hbound := next_judge_le hlt claim
      have hlater := hstage.next position chain after claim hlt hclaim
      rcases Stage.failsWith_or_ordered _ after hlater hfirst hlast hbound with
        ⟨e, hresult, hfails⟩ | ⟨tokens, hresult, hordered, haccepted⟩
      · exact .inl ⟨e, congrArg (Except.map _) hresult, hfails⟩
      · refine .inr ⟨(judge position last claim).tokens ++ tokens,
          congrArg (Except.map _) hresult, ?_⟩
        rcases judge_token_or_tokens_eq_nil position last claim with
          ⟨span, rfl, haccept, hcategory, hjudge⟩ | hnone
        · have haccepts : grammar.Accepts source first last span :=
            ⟨position, chain, after, hstage, hlt, hclaim, haccept⟩
          obtain ⟨rfl, hnonempty, -⟩ := haccept
          rw [hjudge] at hordered ⊢
          exact ⟨⟨Int.le_refl _, hnonempty, hcategory, hordered⟩,
            List.forall_mem_cons.2 ⟨haccepts, haccepted⟩⟩
        · -- Without a token the position joins the plain text in front of the next one.
          rw [hnone]
          exact ⟨hordered.mono (by omega), haccepted⟩
  · rw [Chain.tokens_of_le (by omega)]
    exact .inr ⟨[], rfl, hle, nofun⟩
termination_by (last - position).toNat

/-- Ordered tokens that a run accepts are spaced out if accepted spans carry their texts. -/
private theorem spaced_of_accepts (hcarries : grammar.CarriesText source first last)
    (hfirst : 0 ≤ first) (hlast : last ≤ source.length) {tokens : List Span}
    (hordered : Ordered position last tokens)
    (haccepted : ∀ token ∈ tokens, grammar.Accepts source first last token) :
    Spaced source position last tokens :=
  hordered.spaced fun token htoken =>
    text_of_accepts hcarries hfirst hlast (haccepted token htoken)

/-- From any stage on, a run either finds spaced tokens or ends with the failure of one of the
caller's own rules. -/
theorem Stage.failsWith_or_spaced (position : Int) (chain : Chain)
    (hstage : grammar.Stage source first last position chain)
    (hcarries : grammar.CarriesText source first last) (hfirst : 0 ≤ first)
    (hlast : last ≤ source.length) (hle : position ≤ last) :
    (∃ e, (chain.tokens source.reader position last).result = .error e ∧
      grammar.FailsWith source first last e) ∨
    ∃ tokens, (chain.tokens source.reader position last).result = .ok tokens ∧
      Spaced source position last tokens := by
  rcases hstage.failsWith_or_ordered position chain hfirst hlast hle with
    hfails | ⟨tokens, hresult, hordered, haccepted⟩
  · exact .inl hfails
  · exact .inr ⟨tokens, hresult, spaced_of_accepts hcarries hfirst hlast hordered haccepted⟩

/-- Inside a source the spans are ordered tokens with their gaps filled, unless a rule fails. -/
theorem classifyRange_failsWith_or_ordered (grammar : Grammar) (source : Source) (start : Int)
    (stop : Option Int) (hle : source.startWithin start stop ≤ source.stopWithin stop) :
    (∃ e, (grammar.classifyRange source start stop).result = .error e ∧
      grammar.FailsWith source (source.startWithin start stop) (source.stopWithin stop) e) ∨
    ∃ tokens, (grammar.classifyRange source start stop).result =
        .ok (fillGaps source (source.startWithin start stop) (source.stopWithin stop) tokens) ∧
      Ordered (source.startWithin start stop) (source.stopWithin stop) tokens ∧
      ∀ token ∈ tokens, grammar.Accepts source (source.startWithin start stop)
        (source.stopWithin stop) token := by
  show (∃ e, ((Chain.fresh grammar.allRules).tokens source.reader (source.startWithin start stop)
      (source.stopWithin stop)).result.map _ = .error e ∧ _) ∨
    ∃ tokens, ((Chain.fresh grammar.allRules).tokens source.reader (source.startWithin start stop)
      (source.stopWithin stop)).result.map _ = .ok _ ∧ _
  rcases Stage.failsWith_or_ordered _ _ .start (source.startWithin_nonneg start stop)
      (source.stopWithin_le stop) hle with ⟨e, hresult, hfails⟩ | ⟨tokens, hresult, htokens⟩
  · rw [hresult]
    exact .inl ⟨e, rfl, hfails⟩
  · rw [hresult]
    exact .inr ⟨tokens, rfl, htokens⟩

/-- Inside a source the spans are spaced tokens with their gaps filled, unless a rule fails. -/
theorem classifyRange_failsWith_or_spaced (grammar : Grammar) (source : Source) (start : Int)
    (stop : Option Int) (hle : source.startWithin start stop ≤ source.stopWithin stop)
    (hcarries : grammar.CarriesText source (source.startWithin start stop)
      (source.stopWithin stop)) :
    (∃ e, (grammar.classifyRange source start stop).result = .error e ∧
      grammar.FailsWith source (source.startWithin start stop) (source.stopWithin stop) e) ∨
    ∃ tokens, (grammar.classifyRange source start stop).result =
        .ok (fillGaps source (source.startWithin start stop) (source.stopWithin stop) tokens) ∧
      Spaced source (source.startWithin start stop) (source.stopWithin stop) tokens := by
  rcases classifyRange_failsWith_or_ordered grammar source start stop hle with
    hfails | ⟨tokens, hresult, hordered, haccepted⟩
  · exact .inl hfails
  · exact .inr ⟨tokens, hresult, spaced_of_accepts hcarries (source.startWithin_nonneg start stop)
      (source.stopWithin_le stop) hordered haccepted⟩

/-- The spans of a whole source tile it, unless a rule fails. -/
theorem classify_failsWith_or_tiles (grammar : Grammar) (source : Source)
    (hcarries : grammar.CarriesText source 0 source.length) :
    (∃ e, (grammar.classify source).result = .error e ∧
      grammar.FailsWith source 0 source.length e) ∨
    ∃ spans, (grammar.classify source).result = .ok spans ∧ Tiles source 0 source.length spans := by
  have hstart := source.startWithin_zero
  have hrun := classifyRange_failsWith_or_spaced grammar source 0 none
    (by rw [hstart]; exact source.length_nonneg) (by rw [hstart]; exact hcarries)
  rw [hstart] at hrun
  rcases hrun with hfails | ⟨tokens, hresult, hspaced⟩
  · exact .inl hfails
  · exact .inr ⟨_, hresult, hspaced.tiles_fillGaps⟩

/-- Where the end is reached already there is nothing to classify. -/
theorem classifyRange_of_le (grammar : Grammar) (source : Source) (start : Int) (stop : Option Int)
    (hle : source.stopWithin stop ≤ source.startWithin start stop) :
    (grammar.classifyRange source start stop).result = .ok [] := by
  show ((Chain.fresh grammar.allRules).tokens source.reader (source.startWithin start stop)
      (source.stopWithin stop)).result.map
        (fillGaps source (source.startWithin start stop) (source.stopWithin stop)) = _
  rw [Chain.tokens_of_le hle]
  show Except.ok (plainBetween source _ _) = _
  rw [plainBetween, if_neg (by omega)]

/-- In front of the source there is nothing to classify. -/
theorem classifyRange_of_lt (grammar : Grammar) (source : Source) (start : Int) (stop : Option Int)
    (hlt : source.stopWithin stop < source.startWithin start stop) :
    (grammar.classifyRange source start stop).result = .ok [] :=
  grammar.classifyRange_of_le source start stop (Int.le_of_lt hlt)

theorem custom_not_mem_defaultRules (label : Text)
    (claim : Source → Int → Int → Except Error (Option Span)) :
    Rule.custom label claim ∉ defaultRules := by
  simp [defaultRules, Rule.quotedString]

/-- The caller's own rules are markers, and their labels are those of categories. -/
def OnlyMarkers (grammar : Grammar) : Prop :=
  ∀ label claim, Rule.custom label claim ∈ grammar.rules →
    ∃ marker : Marker, marker.label ∈ Category.all.map Category.label ∧ claim = marker.claim

namespace OnlyMarkers

variable {grammar : Grammar} {source : Source} {first last : Int}

/-- Markers in front of rules of the library. -/
theorem of_rules (markers : List Marker) (library : List Rule)
    (hrules : grammar.rules = markers.map .marker ++ library)
    (hlibrary : ∀ label claim, Rule.custom label claim ∉ library)
    (hlabels : ∀ marker ∈ markers, marker.label ∈ Category.all.map Category.label) :
    grammar.OnlyMarkers := by
  intro label claim hmem
  rw [hrules] at hmem
  rcases List.mem_append.1 hmem with hmarker | hmem
  · obtain ⟨marker, hmarker, hsame⟩ := List.mem_map.1 hmarker
    exact ⟨marker, hlabels marker hmarker, (Rule.custom.inj hsame).2.symm⟩
  · exact absurd hmem (hlibrary label claim)

/-- Markers carry their text where they are accepted, however misplaced their other claims are. -/
theorem carriesText (h : grammar.OnlyMarkers) (hfirst : 0 ≤ first) (hlast : last ≤ source.length) :
    grammar.CarriesText source first last := by
  rintro span ⟨position, chain, after, hstage, hlt, -, rfl, hnonempty, -⟩ label claim hmem hclaim
  obtain ⟨marker, -, rfl⟩ := h label claim hmem
  have hposition := (hstage.invariant hfirst hlast).1
  rw [marker.text_of_claim hclaim, Int.max_eq_left (by omega), Int.max_eq_left (by omega)]

/-- Markers do not fail inside a source. -/
theorem not_failsWith (h : grammar.OnlyMarkers) (hfirst : 0 ≤ first)
    (hlast : last ≤ source.length) (e : Error) : ¬ grammar.FailsWith source first last e := by
  rintro ⟨position, chain, hstage, hlt, label, claim, hmem, hfails⟩
  obtain ⟨marker, hlabel, rfl⟩ := h label claim hmem
  have hposition := (hstage.invariant hfirst hlast).1
  obtain ⟨c, hread, -⟩ := source.exists_read_slice (by omega : 0 ≤ position) hlt hlast
  obtain ⟨answer, hanswer⟩ := marker.exists_claim hread hlabel last
  rw [hanswer] at hfails
  contradiction

end OnlyMarkers

/-- Whatever the rules claim, the spans of a stretch tile it: the stretch ends at `last`, which is
the end of the source if no end is given or the given one lies beyond it, and starts at `first`,
which is `start` moved into what is left of the source.  Only a rule of the caller's own that fails
keeps a run from its end. -/
theorem classifyRange_covers (grammar : Grammar) (source : Source) (start : Int)
    (stop : Option Int) {first last : Int}
    (hlast : last = match stop with
      | none => source.length
      | some stop => if stop ≤ source.length then stop else source.length)
    (hfirst : first = max 0 (min start last))
    (hcarries : grammar.CarriesText source first last) :
    (∃ e, (grammar.classifyRange source start stop).result = .error e ∧
      grammar.FailsWith source first last e) ∨
    ∃ spans, (grammar.classifyRange source start stop).result = .ok spans ∧
      (last ≤ first → spans = []) ∧ (first < last → Tiles source first last spans) ∧
      NoPlainPair spans ∧
      Span.texts spans = (source.text.take last.toNat).drop first.toNat := by
  have hstop : source.stopWithin stop = last := by
    rw [hlast]
    cases stop with
    | none => rfl
    | some stop => exact Int.min_def stop source.length
  have hstart : source.startWithin start stop = first := by
    rw [Source.startWithin, hstop, hfirst]
  rcases lt_or_ge last first with hempty | hle
  · -- Only an end in front of the source lies before the start.
    have hlt : source.stopWithin stop < source.startWithin start stop := by omega
    refine .inr ⟨[], classifyRange_of_lt grammar source start stop hlt, fun _ => rfl,
      fun h => absurd h (by omega), .nil, ?_⟩
    have hzero : last.toNat = 0 := by omega
    rw [hzero, List.take_zero, List.drop_nil]
    rfl
  · have hnonneg : 0 ≤ first := by omega
    have hrun := classifyRange_failsWith_or_spaced grammar source start stop
      (by rw [hstart, hstop]; exact hle) (by rw [hstart, hstop]; exact hcarries)
    rw [hstart, hstop] at hrun
    rcases hrun with hfails | ⟨tokens, hresult, hspaced⟩
    · exact .inl hfails
    · have htiles := hspaced.tiles_fillGaps
      refine .inr ⟨_, hresult, ?_, fun _ => htiles,
        noPlainPair_fillGaps source first last hspaced.not_plain, ?_⟩
      · exact htiles.eq_nil_of_le
      · rw [htiles.texts_eq hnonneg, source.slice_eq hnonneg (by omega)]

/-- The grammar of the interface definition language with two rules that may claim what lies before
the cursor or beyond the end. -/
theorem classifyRange_covers_misplaced :
    let grammar : Grammar := { protobuf with
      rules := [.marker ⟨['~'], "literal".toList, -1, .length 3⟩,
        .marker ⟨['^'], "string".toList, 0, .pastStop 1⟩, .quotedString] }
    let source := Source.ofText ['a', '~', '^', '\n', 'b']
    grammar.CarriesText source 0 4 ∧
    ∃ spans, (grammar.classifyRange source (-3) (some 4)).result = .ok spans ∧
      ((4 : Int) ≤ 0 → spans = []) ∧ ((0 : Int) < 4 → Tiles source 0 4 spans) ∧ NoPlainPair spans ∧
      Span.texts spans = ['a', '~', '^', '\n'] := by
  intro grammar source
  have hmarkers : grammar.OnlyMarkers :=
    .of_rules [⟨['~'], "literal".toList, -1, .length 3⟩, ⟨['^'], "string".toList, 0, .pastStop 1⟩]
      [.quotedString] rfl (by simp [Rule.quotedString]) (by decide)
  have hcarries : grammar.CarriesText source 0 4 := hmarkers.carriesText (by decide) (by decide)
  rcases @classifyRange_covers grammar source (-3) (some 4) 0 4 rfl rfl hcarries with
    ⟨e, -, hfails⟩ | hcovers
  · exact absurd hfails (hmarkers.not_failsWith (by decide) (by decide) e)
  · exact ⟨hcarries, hcovers⟩

end Grammar

end CodeHighlight
