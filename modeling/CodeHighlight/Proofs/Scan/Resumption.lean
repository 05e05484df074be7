import CodeHighlight.Proofs.Scan.Locality
import CodeHighlight.Proofs.Scan.Seam

/-!
# Taking a run up again

With the default rules a range may be cut at the end of any span: the two parts on their own have
the spans that the whole range has.  The tokens of a range are the leftmost tokens of the source up
to the end of the range (`Grammar.exists_leftmost_range`).  Behind the cut these are the same; in
front of it no new token appears, since it would have to be the front of a token of the whole range
(`Grammar.IsToken.exists_of_seam`), and the run would have found that one.
-/

namespace CodeHighlight

/-! ## The front of a source -/

/-- The part of a source up to a position. -/
def Source.upTo (source : Source) (stop : Int) : Source := .ofText (source.slice 0 stop)

namespace Source

variable (source : Source) {start middle stop : Int}

theorem text_upTo : (source.upTo stop).text = source.slice 0 stop := text_ofText _

theorem length_upTo (hnonneg : 0 ≤ stop) (hstop : stop ≤ source.length) :
    (source.upTo stop).length = stop := by
  rw [length_eq, text_upTo, source.length_slice (Int.le_refl 0) hnonneg hstop]
  omega

@[simp] theorem upTo_length : source.upTo source.length = source := by
  rw [upTo, slice_zero_length]
  rfl

theorem slice_upTo (hstart : 0 ≤ start) (hmiddle : 0 ≤ middle) (hle : middle ≤ stop) :
    (source.upTo stop).slice start middle = source.slice start middle := by
  rw [slice_eq _ hstart hmiddle, slice_eq _ hstart hmiddle, text_upTo,
    slice_eq _ (Int.le_refl 0) (by omega)]
  show ((source.text.take stop.toNat).take middle.toNat).drop start.toNat = _
  rw [List.take_take, Nat.min_eq_left (by omega)]

/-- A range is the same in the source and in its part up to the end of the range. -/
theorem alike_upTo (hstart : 0 ≤ start) (hle : start ≤ stop) (hstop : stop ≤ source.length) :
    source.Alike (source.upTo stop) 0 start stop := by
  have hlength := source.length_upTo (by omega) hstop
  refine ⟨hstart, hle, hstop, by omega, by omega, ?_, ?_⟩
  · rw [Int.add_zero, Int.add_zero, source.slice_upTo hstart (by omega) (Int.le_refl stop)]
  · rw [Int.add_zero, behind, behind, source.slice_upTo (Int.le_refl 0) hstart hle]

end Source

/-! ## Sequences of leftmost tokens -/

namespace Leftmost

variable {IsToken : Span → Prop} {position middle : Int} {front back tokens : List Span}

theorem isToken (h : Leftmost IsToken position tokens) : ∀ token ∈ tokens, IsToken token := by
  induction h with
  | done => exact nofun
  | next _ token rest htoken _ _ _ ih =>
      intro other hother
      rcases List.mem_cons.1 hother with rfl | hother
      · exact htoken
      · exact ih other hother

theorem le_start (h : Leftmost IsToken position tokens)
    (hlt : ∀ token, IsToken token → token.start < token.stop) :
    ∀ token ∈ tokens, position ≤ token.start := by
  induction h with
  | done => exact nofun
  | next _ token rest htoken hstart _ _ ih =>
      have hnonempty := hlt token htoken
      intro other hother
      rcases List.mem_cons.1 hother with rfl | hother
      · exact hstart
      · have hlater := ih other hother
        omega

/-- The tokens behind a place are the leftmost ones from there on. -/
theorem drop (h : Leftmost IsToken position (front ++ back)) (hposition : position ≤ middle)
    (hfront : ∀ token ∈ front, token.stop ≤ middle) (hback : ∀ token ∈ back, middle ≤ token.start) :
    Leftmost IsToken middle back := by
  induction front generalizing position with
  | nil =>
      cases h with
      | done _ hnone => exact .done middle fun other hother => by have := hnone other hother; omega
      | next _ token rest htoken _ hleast hrest =>
          refine .next middle token rest htoken (hback token List.mem_cons_self) ?_ hrest
          exact fun other hother hge => hleast other hother (by omega)
  | cons token front ih =>
      cases h with
      | next _ _ _ _ _ _ hrest =>
          exact ih hrest (hfront token List.mem_cons_self)
            fun other hother => hfront other (List.mem_cons_of_mem token hother)

end Leftmost

namespace Grammar

variable {grammar : Grammar} {source cut : Source} {start stop : Int}

/-- With the default rules the tokens of a range are the leftmost tokens of the source up to the end
of the range. -/
theorem exists_leftmost_range (source : Source) (hrules : grammar.rules = defaultRules)
    (hstart : 0 ≤ start) (hle : start ≤ stop) (hstop : stop ≤ source.length) :
    ∃ tokens, (grammar.classifyRange source start (some stop)).result =
        .ok (fillGaps source start stop tokens) ∧
      Leftmost (grammar.HasToken (source.upTo stop)) start tokens ∧
      Spaced source start stop tokens := by
  have hlibrary : ∀ label claim, Rule.custom label claim ∉ grammar.rules := by
    rw [hrules]
    exact custom_not_mem_defaultRules
  obtain ⟨tokens, htokens, hspaced⟩ := exists_spaced_tokens source hlibrary hstart hle hstop
  obtain ⟨leftmost, hfound, hleftmost⟩ :=
    exists_leftmost grammar (source.upTo stop) hrules start hstart
  have hsame := Chain.tokens_of_alike (custom_not_mem_allRules hlibrary) start
    (source.alike_upTo hstart hle hstop)
  rw [Int.add_zero, Int.add_zero, htokens, Span.shift_zero] at hsame
  rw [source.length_upTo (by omega) hstop, hsame] at hfound
  obtain rfl : tokens = leftmost := by simpa using Except.ok.inj hfound
  refine ⟨tokens, ?_, hleftmost, hspaced⟩
  rw [classifyRange_result grammar source hstart hle hstop, htokens]
  rfl

/-- With the default rules the tokens of a whole source are its leftmost tokens. -/
theorem exists_leftmost_source (source : Source) (hrules : grammar.rules = defaultRules) :
    ∃ tokens, (grammar.classify source).result = .ok (fillGaps source 0 source.length tokens) ∧
      Leftmost (grammar.HasToken source) 0 tokens ∧ Spaced source 0 source.length tokens := by
  obtain ⟨tokens, hresult, hleftmost, hspaced⟩ := exists_leftmost_range source hrules
    (Int.le_refl 0) source.length_nonneg (Int.le_refl source.length)
  rw [source.upTo_length] at hleftmost
  exact ⟨tokens, (congrArg _ (grammar.classify_eq_classifyRange source)).trans hresult,
    hleftmost, hspaced⟩

/-! ## Cutting a source -/

/-- Where the source is cut at a token, a token of its front has the place of a token of the whole
source. -/
theorem HasToken.exists_of_cut {other token : Span} (hother : grammar.HasToken cut other)
    (htoken : grammar.HasToken source token) {tail : Text} (hcut : source.text = cut.text ++ tail)
    (hlt : other.start < token.start)
    (hmeets : token.start = cut.length ∨ token.stop = cut.length) :
    ∃ whole, grammar.HasToken source whole ∧ whole.start = other.start := by
  obtain ⟨before, lexeme, after, category, hfront, hlexeme, rfl⟩ := hother
  obtain ⟨earlier, last, rest, kind, htext, hlast, rfl⟩ := htoken
  have hlt : (before.length : Int) < earlier.length := hlt
  rw [Source.length_eq] at hmeets
  rw [hcut] at htext
  have hseam : grammar.Seam before (before ++ (lexeme ++ after)) tail := by
    rw [← List.append_assoc, ← hfront]
    rcases hmeets with hmeets | hmeets
    · have hmeets : (earlier.length : Int) = cut.text.length := hmeets
      rw [List.append_assoc] at htext
      obtain ⟨hsame, htail⟩ := List.append_inj htext (by omega)
      rw [← hsame] at hlast
      exact .starts last rest kind htail hlast
    · have hmeets : (earlier.length : Int) + last.length = cut.text.length := hmeets
      obtain ⟨hsame, htail⟩ := List.append_inj htext (by rw [List.length_append]; omega)
      -- What the token has before it begins with what the other one has before it.
      obtain ⟨gap, rfl⟩ : before <+: earlier := by
        have hbefore : before <+: cut.text := by
          rw [hfront, List.append_assoc]
          exact List.prefix_append before _
        have hearlier : earlier <+: cut.text := by
          rw [hsame]
          exact List.prefix_append earlier last
        exact List.prefix_of_prefix_length_le hbefore hearlier (by omega)
      have hgap : gap ≠ [] := by
        rintro rfl
        simp at hlt
      rw [← htail] at hlast
      exact .ends gap last kind hgap hsame hlast
  obtain ⟨whole, behind, result, hsplit, hwhole⟩ := hlexeme.exists_of_seam hseam
  refine ⟨_, ⟨before, whole, behind, result, ?_, hwhole, rfl⟩, rfl⟩
  rw [hcut, hfront, List.append_assoc before whole, ← hsplit]
  simp only [List.append_assoc]

/-- A token that ends in the front of a source is a token of the front. -/
theorem HasToken.of_cut {token : Span} (h : grammar.HasToken source token) {tail : Text}
    (hcut : source.text = cut.text ++ tail) (hstop : token.stop ≤ cut.length) :
    grammar.HasToken cut token := by
  obtain ⟨before, lexeme, after, category, htext, htoken, rfl⟩ := h
  have hstop : (before.length : Int) + lexeme.length ≤ cut.text.length := by
    rw [← cut.length_eq]
    exact hstop
  rw [hcut] at htext
  obtain ⟨rest, hrest⟩ : before ++ lexeme <+: cut.text := by
    apply List.prefix_of_prefix_length_le _ (List.prefix_append cut.text tail)
    · rw [List.length_append]
      omega
    · rw [htext]
      exact List.prefix_append _ after
  rw [← hrest, List.append_assoc _ rest] at htext
  rw [← List.append_cancel_left htext] at htoken
  exact ⟨before, lexeme, rest, category, hrest.symm, htoken.of_append, rfl⟩

/-- Where the source is cut at a token, no token of its front starts before all those tokens of the
whole source that are still to come. -/
theorem HasToken.le_start_of_cut {other token : Span} (hother : grammar.HasToken cut other)
    (htoken : grammar.HasToken source token) {tail : Text} (hcut : source.text = cut.text ++ tail)
    (hmeets : token.start = cut.length ∨ token.stop = cut.length) {position least : Int}
    (hleast : ∀ whole, grammar.HasToken source whole → position ≤ whole.start →
      least ≤ whole.start)
    (hge : position ≤ other.start) (hle : least ≤ token.start) : least ≤ other.start := by
  apply Int.le_of_not_gt
  intro hbefore
  obtain ⟨whole, hwhole, hsame⟩ := hother.exists_of_cut htoken hcut (by omega) hmeets
  have hlater := hleast whole hwhole (by omega)
  omega

/-- None of the tokens starts before the first one, so neither does the one at the cut. -/
private theorem exists_token_at_cut {position : Int} {token : Span} {front back : List Span}
    (h : Leftmost (grammar.HasToken source) position (token :: front ++ back))
    (hmeets : (∃ other ∈ token :: front, other.stop = cut.length) ∨
      ∃ other ∈ back.head?, other.start = cut.length) :
    ∃ other, grammar.HasToken source other ∧ token.start ≤ other.start ∧
      (other.start = cut.length ∨ other.stop = cut.length) := by
  have hlater : ∀ other ∈ token :: front ++ back, token.start ≤ other.start := by
    cases h with
    | next _ _ _ htoken _ _ hrest =>
        intro other hother
        rcases List.mem_cons.1 hother with rfl | hother
        · exact Int.le_refl _
        · have hle := hrest.le_start (fun other hother => hother.bounds.2.1) other hother
          have hnonempty := htoken.bounds.2.1
          omega
  rcases hmeets with ⟨other, hmem, hstop⟩ | ⟨other, hmem, hstart⟩
  · have hmem := List.mem_append_left back hmem
    exact ⟨other, h.isToken other hmem, hlater other hmem, .inr hstop⟩
  · have hmem := List.mem_append_right (token :: front) (List.mem_of_head? hmem)
    exact ⟨other, h.isToken other hmem, hlater other hmem, .inl hstart⟩

/-- Cut at the end of one of its tokens, or at the start of the next one, a source has the same
leftmost tokens up to there. -/
theorem leftmost_of_cut {position : Int} {front back : List Span}
    (h : Leftmost (grammar.HasToken source) position (front ++ back)) {tail : Text}
    (hcut : source.text = cut.text ++ tail) (hfront : ∀ token ∈ front, token.stop ≤ cut.length)
    (hmeets : position = cut.length ∨ (∃ token ∈ front, token.stop = cut.length) ∨
      ∃ token ∈ back.head?, token.start = cut.length) :
    Leftmost (grammar.HasToken cut) position front := by
  induction front generalizing position with
  | nil =>
      refine .done position fun other hother => Int.lt_of_not_ge fun hge => ?_
      obtain ⟨-, hnonempty, hend, -⟩ := hother.bounds
      rcases hmeets with hmeets | ⟨token, hmem, -⟩ | ⟨token, hmem, hmeets⟩
      · omega
      · contradiction
      · -- The next token of the source starts at the cut, so none can start before.
        cases h with
        | done => contradiction
        | next _ first rest htoken _ hleast _ =>
            obtain rfl := Option.some.inj hmem
            have hle := hother.le_start_of_cut htoken hcut (.inl hmeets) hleast hge (Int.le_refl _)
            omega
  | cons token front ih =>
      have htokens := h
      cases h with
      | next _ _ _ htoken hstart hleast hrest =>
          have hstop := hfront token List.mem_cons_self
          have hnonempty := htoken.bounds.2.1
          have hahead := hmeets.resolve_left (by omega)
          obtain ⟨meeting, hmeeting, hafter, hplace⟩ := exists_token_at_cut htokens hahead
          refine .next position token front (htoken.of_cut hcut hstop) hstart ?_ (ih hrest ?_ ?_)
          · intro other hother hge
            exact hother.le_start_of_cut hmeeting hcut hplace hleast hge hafter
          · exact fun other hother => hfront other (List.mem_cons_of_mem token hother)
          · rcases hahead with ⟨other, hmem, hend⟩ | hnext
            · rcases List.mem_cons.1 hmem with rfl | hmem
              · exact .inl hend
              · exact .inr (.inl ⟨other, hmem, hend⟩)
            · exact .inr (.inr hnext)

/-- The spans of a range are determined by the leftmost tokens of the source up to its end. -/
theorem classifyRange_of_leftmost (source : Source) (hrules : grammar.rules = defaultRules)
    (hstart : 0 ≤ start) (hle : start ≤ stop) (hstop : stop ≤ source.length) {tokens : List Span}
    (h : Leftmost (grammar.HasToken (source.upTo stop)) start tokens) :
    (grammar.classifyRange source start (some stop)).result =
      .ok (fillGaps source start stop tokens) := by
  obtain ⟨found, hresult, hfound, -⟩ := exists_leftmost_range source hrules hstart hle hstop
  rw [h.unique (hasToken_start_injective grammar (source.upTo stop) hrules) hfound]
  exact hresult

section Cut

variable {middle : Int} {left right : List Span}

/-- The part of a range in front of a cut has the spans that the whole range has there.  The cut
lies at a token, since one of the two spans that meet there is one. -/
private theorem classifyRange_front (hrules : grammar.rules = defaultRules) (hstart : 0 ≤ start)
    (hstop : stop ≤ source.length) {span next : Span}
    (hleftmost : Leftmost (grammar.HasToken (source.upTo stop)) start
      ((left ++ [span] ++ next :: right).filter fun span => span.category ≠ .plain))
    (hleft : Tiles source start middle (left ++ [span]))
    (hright : Tiles source middle stop (next :: right))
    (hpairs : NoPlainPair (left ++ [span] ++ next :: right)) :
    (grammar.classifyRange source start (some middle)).result = .ok (left ++ [span]) := by
  have hbefore := hleft.le
  have hbehind := hright.le
  have hspanStop := hleft.stop_eq
  have hnextStart := hright.start_eq
  obtain ⟨hleftPairs, -, hneighbours⟩ := List.isChain_append.1 hpairs
  have hlength := source.length_upTo (by omega : 0 ≤ middle) (by omega)
  have hcut : (source.upTo stop).text =
      (source.upTo middle).text ++ source.slice middle stop := by
    rw [Source.text_upTo, Source.text_upTo,
      source.slice_append (Int.le_refl 0) (by omega) hbehind]
  rw [List.filter_append] at hleftmost
  have hfront := leftmost_of_cut hleftmost hcut ?_ ?_
  · rw [classifyRange_of_leftmost source hrules hstart hbefore (by omega) hfront,
      ← hleft.eq_fillGaps hleftPairs]
  · intro token htoken
    rw [hlength]
    exact (hleft.bounds token (List.mem_of_mem_filter htoken)).2
  · rw [hlength]
    by_cases hspan : span.category = .plain
    · have hnextToken : next.category ≠ .plain := fun hplain =>
        hneighbours span (by simp) next (by simp) ⟨hspan, hplain⟩
      exact .inr (.inr ⟨next, by simp [hnextToken], hnextStart⟩)
    · exact .inr (.inl ⟨span, by simp [hspan], hspanStop⟩)

/-- The part of a range behind a cut has the spans that the whole range has there. -/
private theorem classifyRange_back (hrules : grammar.rules = defaultRules) (hstart : 0 ≤ start)
    (hstop : stop ≤ source.length)
    (hleftmost : Leftmost (grammar.HasToken (source.upTo stop)) start
      ((left ++ right).filter fun span => span.category ≠ .plain))
    (hleft : Tiles source start middle left) (hright : Tiles source middle stop right)
    (hpairs : NoPlainPair right) :
    (grammar.classifyRange source middle (some stop)).result = .ok right := by
  have hbefore := hleft.le
  rw [List.filter_append] at hleftmost
  have hback := hleftmost.drop hbefore ?_ ?_
  · rw [classifyRange_of_leftmost source hrules (by omega) hright.le hstop hback,
      ← hright.eq_fillGaps hpairs]
  · intro token htoken
    exact (hleft.bounds token (List.mem_of_mem_filter htoken)).2
  · intro token htoken
    exact (hright.bounds token (List.mem_of_mem_filter htoken)).1

end Cut

/-- A run can be taken up again where any of its spans ends: the part of the range up to there and
the part from there on have the spans that the whole range has in them. -/
theorem classifyRange_resume (grammar : Grammar) (source : Source)
    (hrules : grammar.rules = defaultRules) (hstart : 0 ≤ start) (hle : start ≤ stop)
    (hstop : stop ≤ source.length) :
    ∃ spans, (grammar.classifyRange source start (some stop)).result = .ok spans ∧
      ∀ left span next right, spans = left ++ span :: next :: right →
        span.stop = next.start ∧
        (grammar.classifyRange source start (some span.stop)).result = .ok (left ++ [span]) ∧
        (grammar.classifyRange source span.stop (some stop)).result = .ok (next :: right) := by
  obtain ⟨tokens, hresult, hleftmost, hspaced⟩ :=
    exists_leftmost_range source hrules hstart hle hstop
  refine ⟨_, hresult, ?_⟩
  intro left span next right hsplit
  have htiles := hspaced.tiles_fillGaps
  have hpairs := noPlainPair_fillGaps source start stop hspaced.not_plain
  rw [← filter_fillGaps source start stop hspaced.not_plain] at hleftmost
  rw [hsplit, ← List.singleton_append, ← List.append_assoc] at htiles hpairs hleftmost
  obtain ⟨middle, hleft, hright⟩ := htiles.split
  obtain rfl := hleft.stop_eq
  refine ⟨hright.start_eq.symm, ?_, ?_⟩
  · exact classifyRange_front hrules hstart hstop hleftmost hleft hright hpairs
  · exact classifyRange_back hrules hstart hstop hleftmost hleft hright
      (List.isChain_append.1 hpairs).2.1

/-- Behind the sign that a rejected numeral leaves to the next one. -/
theorem classifyRange_resume_exponent :
    let source : Source := .ofText "1e+5e3 x".toList
    ∃ spans, (protobuf.classifyRange source 0 (some 6)).result = .ok spans ∧
      ∀ left span next right, spans = left ++ span :: next :: right →
        span.stop = next.start ∧
        (protobuf.classifyRange source 0 (some span.stop)).result = .ok (left ++ [span]) ∧
        (protobuf.classifyRange source span.stop (some 6)).result = .ok (next :: right) :=
  classifyRange_resume protobuf (.ofText "1e+5e3 x".toList) rfl (by decide) (by decide) (by decide)

end Grammar

end CodeHighlight
