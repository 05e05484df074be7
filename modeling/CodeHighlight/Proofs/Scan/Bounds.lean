import CodeHighlight.Proofs.Scan.Cursor
import CodeHighlight.Proofs.Scan.Locality

/-!
# A run reads nothing but its range

The rules of the library look at characters behind and ahead of their position, and each of them
guards each such look by itself.  `ReadsWithin` says that a computation stays inside the source and
before a bound: it comes to the same result through every reader that shows the source there
(`Reader.Faithful`).  One such reader fails everywhere else (`Source.guarded`), and as a read that
fails ends a computation, no read is made elsewhere.  Computations of this kind are put together
with `ReadsWithin.bind`, from the single read up to the run over a range
(`Grammar.classifyRange_reads_within`).
-/

namespace CodeHighlight

/-- The reader shows a source as it is from its front up to a bound.  Nothing is said about other
positions: to read there may fail or yield any character. -/
structure Reader.Faithful (reader : Reader) (source : Source) (stop : Int) : Prop where
  source_eq : reader.source = source
  read_eq : ∀ position, 0 ≤ position → position < stop →
    reader.read position = source.read position

/-- Through every reader that shows the source before the bound, the computation comes to the same
result. -/
def ReadsWithin (source : Source) (stop : Int) {α : Type} (f : Reader → Except Error α) (a : α) :
    Prop :=
  ∀ reader : Reader, reader.Faithful source stop → f reader = .ok a

/-- The reader that shows the source before a bound and fails at every other position. -/
def Source.guarded (source : Source) (stop : Int) : Reader :=
  ⟨source, fun position =>
    if 0 ≤ position ∧ position < stop then source.read position
    else .error (Source.missing position)⟩

theorem Source.faithful_reader (source : Source) (stop : Int) :
    source.reader.Faithful source stop :=
  ⟨rfl, fun _ _ _ => rfl⟩

theorem Source.faithful_guarded (source : Source) (stop : Int) :
    (source.guarded stop).Faithful source stop :=
  ⟨rfl, fun _ hnonneg hlt => if_pos ⟨hnonneg, hlt⟩⟩

namespace ReadsWithin

variable {source : Source} {position stop : Int}

theorem pure {α : Type} (a : α) : ReadsWithin source stop (fun _ => .ok a) a :=
  fun _ _ => rfl

/-- What follows on a computation that reads within the bound may make use of its result. -/
theorem bind {α β : Type} {f : Reader → Except Error α} {g : α → Reader → Except Error β} {a : α}
    {b : β} (hf : ReadsWithin source stop f a) (hg : ReadsWithin source stop (g a) b) :
    ReadsWithin source stop (fun reader => f reader >>= fun a => g a reader) b := by
  intro reader hreader
  show (f reader).bind _ = _
  rw [hf reader hreader]
  exact hg reader hreader

theorem map {α β : Type} (g : α → β) {f : Reader → Except Error α} {a : α}
    (hf : ReadsWithin source stop f a) :
    ReadsWithin source stop (fun reader => (f reader).map g) (g a) := by
  intro reader hreader
  show (f reader).map g = _
  rw [hf reader hreader]
  rfl

/-- The source itself may be cut anywhere. -/
theorem of_source {α : Type} (f : Source → α) :
    ReadsWithin source stop (fun reader => .ok (f reader.source)) (f source) := by
  intro reader hreader
  show Except.ok (f reader.source) = .ok (f source)
  rw [hreader.source_eq]

theorem ite_pos {α : Type} {p : Prop} [Decidable p] {f g : Reader → Except Error α} {a : α}
    (h : p) (hf : ReadsWithin source stop f a) :
    ReadsWithin source stop (fun reader => if p then f reader else g reader) a := by
  simp only [if_pos h]
  exact hf

theorem ite_neg {α : Type} {p : Prop} [Decidable p] {f g : Reader → Except Error α} {a : α}
    (h : ¬ p) (hg : ReadsWithin source stop g a) :
    ReadsWithin source stop (fun reader => if p then f reader else g reader) a := by
  simp only [if_neg h]
  exact hg

section Reads

variable (hstop : stop ≤ source.length)

include hstop

/-! ## Single characters and runs -/

theorem exists_read (hposition : 0 ≤ position) (hlt : position < stop) :
    ∃ c, ReadsWithin source stop (·.read position) c := by
  obtain ⟨c, hread, -⟩ := source.exists_read_slice hposition hlt hstop
  refine ⟨c, ?_⟩
  intro reader hreader
  exact (hreader.read_eq position hposition hlt).trans hread

/-- A look ahead may stop before the bound. -/
theorem exists_sees (p : Char → Bool) {bound : Int} (hposition : 0 ≤ position)
    (hbound : bound ≤ stop) : ∃ seen, ReadsWithin source stop (·.sees p position bound) seen := by
  by_cases hlt : position < bound
  · obtain ⟨c, hread⟩ := exists_read hstop hposition (by omega)
    exact ⟨p c, .ite_pos hlt (hread.map p)⟩
  · exact ⟨false, .ite_neg hlt (.pure false)⟩

/-- A look back is only made behind the front of the source. -/
theorem exists_follows (p : Char → Bool) (hle : position ≤ stop) :
    ∃ seen, ReadsWithin source stop (·.follows p position) seen := by
  by_cases hpositive : 0 < position
  · obtain ⟨c, hread⟩ :=
      exists_read hstop (by omega : 0 ≤ position - 1) (by omega : position - 1 < stop)
    exact ⟨p c, .ite_pos hpositive (hread.map p)⟩
  · exact ⟨false, .ite_neg hpositive (.pure false)⟩

private theorem exists_runEndWithin (p : Char → Bool) (count : Nat) (hposition : 0 ≤ position)
    (hcount : position + count ≤ stop) :
    ∃ last, position ≤ last ∧ ReadsWithin source stop (·.runEndWithin p position count) last := by
  induction count generalizing position with
  | zero => exact ⟨position, Int.le_refl _, .pure position⟩
  | succ count ih =>
      obtain ⟨c, hread⟩ := exists_read hstop hposition (by omega)
      cases hp : p c with
      | false =>
          exact ⟨position, Int.le_refl _,
            hread.bind (.ite_neg (ne_true_of_eq_false hp) (.pure position))⟩
      | true =>
          obtain ⟨last, hle, hrest⟩ := ih (by omega : 0 ≤ position + 1) (by omega)
          exact ⟨last, by omega, hread.bind (.ite_pos hp hrest)⟩

theorem exists_runEnd (p : Char → Bool) (hposition : 0 ≤ position) :
    ∃ last, position ≤ last ∧ ReadsWithin source stop (·.runEnd p position stop) last := by
  by_cases hle : position ≤ stop
  · exact exists_runEndWithin hstop p _ hposition (by omega)
  · have hcount : (stop - position).toNat = 0 := by omega
    refine ⟨position, Int.le_refl _, ?_⟩
    unfold Reader.runEnd
    rw [hcount]
    exact .pure position

/-! ## Numerals -/

theorem exists_fractionEnd (hposition : 0 ≤ position) :
    ∃ last, position ≤ last ∧ ReadsWithin source stop (·.fractionEnd position stop) last := by
  obtain ⟨point, hpoint⟩ :=
    exists_sees hstop (· == '.') hposition (by omega : stop - 1 ≤ stop)
  obtain ⟨digit, hdigit⟩ :=
    exists_sees hstop isDigit (by omega : 0 ≤ position + 1) (Int.le_refl stop)
  obtain ⟨last, hle, hrun⟩ := exists_runEnd hstop isDigit (by omega : 0 ≤ position + 1)
  cases point with
  | false => exact ⟨position, Int.le_refl _, hpoint.bind (.pure position)⟩
  | true =>
      cases digit with
      | false => exact ⟨position, Int.le_refl _, hpoint.bind (hdigit.bind (.pure position))⟩
      | true => exact ⟨last, by omega, hpoint.bind (hdigit.bind hrun)⟩

theorem exists_signEnd (hposition : 0 ≤ position) :
    ∃ last, position ≤ last ∧ ReadsWithin source stop (·.signEnd position stop) last := by
  obtain ⟨sign, hsign⟩ := exists_sees hstop isSign hposition (Int.le_refl stop)
  cases sign with
  | false => exact ⟨position, Int.le_refl _, hsign.bind (.pure position)⟩
  | true => exact ⟨position + 1, by omega, hsign.bind (.pure (position + 1))⟩

theorem exists_exponentEnd (hposition : 0 ≤ position) :
    ∃ last, position ≤ last ∧ ReadsWithin source stop (·.exponentEnd position stop) last := by
  obtain ⟨mark, hmark⟩ := exists_sees hstop isExponentMark hposition (Int.le_refl stop)
  obtain ⟨digits, hdigits, hsign⟩ := exists_signEnd hstop (by omega : 0 ≤ position + 1)
  obtain ⟨digit, hdigit⟩ :=
    exists_sees hstop isDigit (by omega : 0 ≤ digits) (Int.le_refl stop)
  obtain ⟨last, hle, hrun⟩ := exists_runEnd hstop isDigit (by omega : 0 ≤ digits)
  cases mark with
  | false => exact ⟨position, Int.le_refl _, hmark.bind (.pure position)⟩
  | true =>
      cases digit with
      | false =>
          exact ⟨position, Int.le_refl _, hmark.bind (hsign.bind (hdigit.bind (.pure position)))⟩
      | true => exact ⟨last, by omega, hmark.bind (hsign.bind (hdigit.bind hrun))⟩

theorem exists_numeralEnd (hposition : 0 ≤ position) (hlt : position < stop) :
    ∃ last, (∀ place ∈ last, position ≤ place) ∧
      ReadsWithin source stop (·.numeralEnd position stop) last := by
  obtain ⟨first, hfirst⟩ := exists_read hstop hposition hlt
  let digits := if isSign first then position + 1 else position
  have hdigits : position ≤ digits := by
    show position ≤ if isSign first then position + 1 else position
    split <;> omega
  obtain ⟨digit, hdigit⟩ :=
    exists_sees hstop isDigit (by omega : 0 ≤ digits) (Int.le_refl stop)
  obtain ⟨whole, hwhole, hrun⟩ := exists_runEnd hstop isDigit (by omega : 0 ≤ digits)
  obtain ⟨fraction, hfraction, hpoint⟩ := exists_fractionEnd hstop (by omega : 0 ≤ whole)
  obtain ⟨exponent, hexponent, hmark⟩ := exists_exponentEnd hstop (by omega : 0 ≤ fraction)
  cases digit with
  | false => exact ⟨none, nofun, hfirst.bind (hdigit.bind (.pure none))⟩
  | true =>
      refine ⟨some exponent, ?_,
        hfirst.bind (hdigit.bind (hrun.bind (hpoint.bind (hmark.bind (.pure (some exponent))))))⟩
      intro place hplace
      obtain rfl := Option.some.inj hplace
      omega

theorem exists_numeralAt (hposition : 0 ≤ position) (hlt : position < stop) :
    ∃ claim, ReadsWithin source stop (·.numeralAt position stop) claim := by
  obtain ⟨inWord, hinWord⟩ := exists_follows hstop isWordChar (Int.le_of_lt hlt)
  obtain ⟨last, hlast, hend⟩ := exists_numeralEnd hstop hposition hlt
  cases inWord with
  | true => exact ⟨none, hinWord.bind (.pure none)⟩
  | false =>
      cases last with
      | none => exact ⟨none, hinWord.bind (hend.bind (.pure none))⟩
      | some last =>
          have hle := hlast last rfl
          obtain ⟨more, hmore⟩ :=
            exists_sees hstop isWordChar (by omega : 0 ≤ last) (Int.le_refl stop)
          cases more with
          | true => exact ⟨none, hinWord.bind (hend.bind (hmore.bind (.pure none)))⟩
          | false =>
              let claim := fun source : Source =>
                some (⟨.number, source.slice position last, position, last⟩ : Span)
              exact ⟨claim source, hinWord.bind (hend.bind (hmore.bind (.of_source claim)))⟩

/-! ## Words and quoted strings -/

theorem exists_wordAt (keywords literals : List Text) (hposition : 0 ≤ position)
    (hlt : position < stop) :
    ∃ claim, ReadsWithin source stop (·.wordAt keywords literals position stop) claim := by
  obtain ⟨c, hread⟩ := exists_read hstop hposition hlt
  obtain ⟨inWord, hinWord⟩ := exists_follows hstop isWordChar (Int.le_of_lt hlt)
  obtain ⟨last, -, hrun⟩ := exists_runEnd hstop isWordChar (by omega : 0 ≤ position + 1)
  cases hstart : isWordStart c with
  | false => exact ⟨none, hread.bind (.ite_pos (by rw [hstart]; rfl) (.pure none))⟩
  | true =>
      have hnot : ¬ (!isWordStart c) = true := by rw [hstart]; exact nofun
      cases inWord with
      | true => exact ⟨none, hread.bind (.ite_neg hnot (hinWord.bind (.pure none)))⟩
      | false =>
          let claim := fun source : Source =>
            some (⟨wordCategory keywords literals (source.slice position last),
              source.slice position last, position, last⟩ : Span)
          exact ⟨claim source,
            hread.bind (.ite_neg hnot (hinWord.bind (hrun.bind (.of_source claim))))⟩

/-- The character behind a backslash is stepped over and not read, so the search may leave the
stretch but does not read there. -/
theorem exists_closing (mark : Char) (position : Int) (hposition : 0 ≤ position) :
    ∃ closing, ReadsWithin source stop (·.closing mark position stop) closing := by
  by_cases hlt : position < stop
  · obtain ⟨c, hread⟩ := exists_read hstop hposition hlt
    simp only [Reader.closing_of_lt _ hlt]
    by_cases hbackslash : c = '\\'
    · obtain ⟨closing, hrest⟩ := exists_closing mark (position + 2) (by omega)
      exact ⟨closing, hread.bind (.ite_pos hbackslash hrest)⟩
    · by_cases hmark : c = mark
      · exact ⟨_, hread.bind (.ite_neg hbackslash (.ite_pos hmark (.pure _)))⟩
      · by_cases hline : c = '\n'
        · exact ⟨_, hread.bind (.ite_neg hbackslash (.ite_neg hmark (.ite_pos hline (.pure _))))⟩
        · obtain ⟨closing, hrest⟩ := exists_closing mark (position + 1) (by omega)
          exact ⟨closing,
            hread.bind (.ite_neg hbackslash (.ite_neg hmark (.ite_neg hline hrest)))⟩
  · simp only [Reader.closing_of_le _ (by omega : stop ≤ position)]
    exact ⟨.missing position, .pure _⟩
termination_by (stop - position).toNat

/-- A memory spares reads and never causes any, whatever is in it. -/
theorem exists_quotedAt (marks : List Char) (memory : Option Horizons) (hposition : 0 ≤ position)
    (hlt : position < stop) :
    ∃ attempt, ReadsWithin source stop (·.quotedAt marks memory position stop) attempt := by
  obtain ⟨mark, hread⟩ := exists_read hstop hposition hlt
  by_cases hmark : mark ∈ marks
  · have hmem : ¬ mark ∉ marks := not_not_intro hmark
    cases hblocked : (memory.map (·.blocks mark position)).getD false with
    | true => exact ⟨_, hread.bind (.ite_neg hmem (.ite_pos hblocked (.pure _)))⟩
    | false =>
        have hfree := ne_true_of_eq_false hblocked
        obtain ⟨closing, hclosing⟩ := exists_closing hstop mark (position + 1) (by omega)
        cases closing with
        | found last =>
            let attempt := fun source : Source =>
              (⟨some ⟨.string, source.slice position last, position, last⟩, memory⟩ : Attempt)
            exact ⟨attempt source,
              hread.bind (.ite_neg hmem (.ite_neg hfree (hclosing.bind (.of_source attempt))))⟩
        | missing horizon =>
            exact ⟨⟨none, memory.map (·.note mark horizon)⟩,
              hread.bind (.ite_neg hmem (.ite_neg hfree (hclosing.bind (.pure _))))⟩
  · exact ⟨⟨none, memory⟩, hread.bind (.ite_pos hmark (.pure _))⟩

/-! ## Rules and chains -/

theorem exists_attempt (rule : Rule) (hlibrary : ∀ label claim, Rule.custom label claim ≠ rule)
    (memory : Option Horizons) (hposition : 0 ≤ position) (hlt : position < stop) :
    ∃ attempt, ReadsWithin source stop (fun reader => rule.attempt reader memory position stop)
      attempt := by
  cases rule with
  | word keywords literals =>
      obtain ⟨claim, hclaim⟩ := exists_wordAt hstop keywords literals hposition hlt
      exact ⟨⟨claim, memory⟩, hclaim.bind (.pure _)⟩
  | quoted marks => exact exists_quotedAt hstop marks memory hposition hlt
  | numeral =>
      obtain ⟨claim, hclaim⟩ := exists_numeralAt hstop hposition hlt
      exact ⟨⟨claim, memory⟩, hclaim.bind (.pure _)⟩
  | custom label claim => exact absurd rfl (hlibrary label claim)

/-- The rules that were asked may remember more afterwards, but they are the same rules. -/
theorem exists_firstClaim (chain : Chain)
    (hlibrary : ∀ label claim, Rule.custom label claim ∉ chain.rules) (hposition : 0 ≤ position)
    (hlt : position < stop) :
    ∃ claim after, after.rules = chain.rules ∧
      ReadsWithin source stop (fun reader => chain.firstClaim reader position stop)
        (claim, after) := by
  induction chain with
  | nil => exact ⟨none, [], rfl, .pure _⟩
  | cons slot rest ih =>
      obtain ⟨⟨claim, memory⟩, hattempt⟩ := exists_attempt hstop slot.rule
        (fun label claim h => hlibrary label claim (h ▸ List.mem_cons_self)) slot.memory
        hposition hlt
      obtain ⟨later, after, hrules, hrest⟩ :=
        ih fun label claim hmem => hlibrary label claim (List.mem_cons_of_mem _ hmem)
      cases claim with
      | some claim =>
          exact ⟨some claim, ⟨slot.rule, memory⟩ :: rest, rfl, hattempt.bind (.pure _)⟩
      | none =>
          refine ⟨later, ⟨slot.rule, memory⟩ :: after, ?_, hattempt.bind (hrest.bind (.pure _))⟩
          exact congrArg (slot.rule :: ·) hrules

/-- From step to step the position only grows, so a run that starts in the source stays in it. -/
theorem exists_tokens (position : Int) (chain : Chain)
    (hlibrary : ∀ label claim, Rule.custom label claim ∉ chain.rules) (hposition : 0 ≤ position) :
    ∃ tokens refusals, ∀ reader : Reader, reader.Faithful source stop →
      chain.tokens reader position stop = ⟨.ok tokens, refusals⟩ := by
  -- Tokens and refusals are fixed before a reader is chosen, so they are the same for all of them.
  by_cases hlt : position < stop
  · obtain ⟨claim, after, hrules, hclaim⟩ := exists_firstClaim hstop chain hlibrary hposition hlt
    have hnext := lt_next_judge position stop claim
    obtain ⟨tokens, refusals, hrun⟩ :=
      exists_tokens ((judge position stop claim).next position) after (hrules ▸ hlibrary)
        (by omega)
    refine ⟨(judge position stop claim).tokens ++ tokens,
      (judge position stop claim).refusals position ++ refusals, ?_⟩
    intro reader hreader
    rw [Chain.tokens_of_claim hlt (hclaim reader hreader), hrun reader hreader]
    rfl
  · exact ⟨[], [], fun reader _ => Chain.tokens_of_le (by omega)⟩
termination_by (stop - position).toNat

end Reads

end ReadsWithin

/-! ## Ranges -/

/-- The cursor with another way to read its source. -/
def Cursor.through (reader : Reader) (cursor : Cursor) : Cursor :=
  { cursor with reader := reader }

theorem Cursor.remaining_through (grammar : Grammar) (reader : Reader) (start : Int)
    (stop : Option Int) :
    ((ofRange grammar reader.source start stop).through reader).remaining =
      ((Chain.fresh grammar.allRules).classify reader start stop).result := rfl

namespace Grammar

variable {grammar : Grammar}

theorem exists_classify (hlibrary : ∀ label claim, Rule.custom label claim ∉ grammar.rules)
    (source : Source) (start : Int) (stop : Option Int) :
    ∃ spans refusals, ∀ reader : Reader, reader.Faithful source (source.stopWithin stop) →
      (Chain.fresh grammar.allRules).classify reader start stop = ⟨.ok spans, refusals⟩ := by
  have hrules : ∀ label claim, Rule.custom label claim ∉ (Chain.fresh grammar.allRules).rules := by
    rw [Chain.rules_fresh]
    exact custom_not_mem_allRules hlibrary
  obtain ⟨tokens, refusals, hrun⟩ := ReadsWithin.exists_tokens (source.stopWithin_le stop)
    (source.startWithin start stop) _ hrules (source.startWithin_nonneg start stop)
  refine ⟨fillGaps source (source.startWithin start stop) (source.stopWithin stop) tokens,
    refusals, ?_⟩
  intro reader hreader
  rw [Chain.classify, hreader.source_eq, hrun reader hreader]
  rfl

/-- With the rules of the library no run over a range fails, and it reads only inside the source
and before the end of its range: a reader that fails everywhere else, also at negative positions,
makes no difference, neither to the run in one pass nor to what a cursor answers request by
request. -/
theorem classifyRange_reads_within (grammar : Grammar)
    (hlibrary : ∀ label claim, Rule.custom label claim ∉ grammar.rules) (source : Source)
    (start : Int) (stop : Option Int) :
    ∃ spans refusals, grammar.classifyRange source start stop = ⟨.ok spans, refusals⟩ ∧
      ∀ reader : Reader, reader.Faithful source (source.stopWithin stop) →
        (Chain.fresh grammar.allRules).classify reader start stop = ⟨.ok spans, refusals⟩ ∧
        ∀ count, ((Cursor.ofRange grammar source start stop).through reader).answers count =
          (spans.take count).map (fun span => .ok (some span)) ++
            List.replicate (count - spans.length) (.ok none) := by
  obtain ⟨spans, refusals, hrun⟩ := exists_classify hlibrary source start stop
  refine ⟨spans, refusals, hrun source.reader (source.faithful_reader _), ?_⟩
  intro reader hreader
  have hremaining :
      ((Cursor.ofRange grammar source start stop).through reader).remaining = .ok spans := by
    rw [← hreader.source_eq, Cursor.remaining_through, hrun reader hreader]
  exact ⟨hrun reader hreader, Cursor.answers_of_remaining hremaining⟩

/-- One range ends between the sign of an exponent and its digits, the other between a backslash and
the mark that it hides.  Both should start in front of the source, where there is nothing to look
back to. -/
theorem classifyRange_reads_within_guarded :
    let source : Source := .ofText "+1e-2 \"\\\"".toList
    (∃ spans refusals, protobuf.classifyRange source (-2) (some 4) = ⟨.ok spans, refusals⟩ ∧
      (Chain.fresh protobuf.allRules).classify (source.guarded 4) (-2) (some 4) =
        ⟨.ok spans, refusals⟩) ∧
    ∃ spans refusals, protobuf.classifyRange source (-2) (some 8) = ⟨.ok spans, refusals⟩ ∧
      (Chain.fresh protobuf.allRules).classify (source.guarded 8) (-2) (some 8) =
        ⟨.ok spans, refusals⟩ := by
  intro source
  have hlibrary : ∀ label claim, Rule.custom label claim ∉ protobuf.rules :=
    custom_not_mem_defaultRules
  constructor
  · obtain ⟨spans, refusals, hrange, hreader⟩ :=
      classifyRange_reads_within protobuf hlibrary source (-2) (some 4)
    exact ⟨spans, refusals, hrange, (hreader _ (source.faithful_guarded 4)).1⟩
  · obtain ⟨spans, refusals, hrange, hreader⟩ :=
      classifyRange_reads_within protobuf hlibrary source (-2) (some 8)
    exact ⟨spans, refusals, hrange, (hreader _ (source.faithful_guarded 8)).1⟩

end Grammar

end CodeHighlight
