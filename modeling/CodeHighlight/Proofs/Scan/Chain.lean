import CodeHighlight.Proofs.Rule.Numeral
import CodeHighlight.Proofs.Rule.Quoted
import CodeHighlight.Proofs.Rule.Word
import CodeHighlight.Scan.Tokens

/-!
# One step of a run

At each position a chain makes its first claim, the claim is judged and the run goes on at the next
position.  What the rules answer without memories (`Rule.answer`, `firstAnswer`) is the plain form
of such a step.  The chain that remembers nothing follows it literally
(`Chain.tokens_forgetful_of_claim`), and all that is proved about runs is proved through it.
-/

namespace CodeHighlight

/-- What a rule answers when it has no memory. -/
def Rule.answer (reader : Reader) (position stop : Int) (rule : Rule) :
    Except Error (Option Span) :=
  (rule.attempt reader none position stop).map Attempt.claim

/-- The first claim at a position, when no rule has a memory. -/
def firstAnswer (reader : Reader) (position stop : Int) :
    List Rule → Except Error (Option Span)
  | [] => .ok none
  | rule :: rest =>
      match rule.answer reader position stop with
      | .error e => .error e
      | .ok (some claim) => .ok (some claim)
      | .ok none => firstAnswer reader position stop rest

/-! ## Answers without a memory -/

/-- Without a memory there is nothing to remember. -/
theorem Reader.memory_of_quotedAt {reader : Reader} {marks : List Char} {position stop : Int}
    {attempt : Attempt} (h : reader.quotedAt marks none position stop = .ok attempt) :
    attempt.memory = none := by
  unfold quotedAt at h
  cases hread : reader.read position with
  | error e =>
      rw [hread] at h
      contradiction
  | ok mark =>
      rw [hread] at h
      change (if mark ∉ marks then _ else _) = _ at h
      split at h
      · obtain rfl := Except.ok.inj h
        rfl
      · change (reader.closing mark (position + 1) stop).bind _ = _ at h
        cases hclosing : reader.closing mark (position + 1) stop with
        | error e =>
            rw [hclosing] at h
            contradiction
        | ok closing =>
            rw [hclosing] at h
            cases closing with
            | found last =>
                obtain rfl := Except.ok.inj h
                rfl
            | missing horizon =>
                obtain rfl := Except.ok.inj h
                rfl

namespace Rule

section Answers

variable (reader : Reader) (memory : Option Horizons) (position stop : Int)

theorem answer_word (keywords literals : List Text) :
    (word keywords literals).answer reader position stop =
      reader.wordAt keywords literals position stop := by
  show ((reader.wordAt keywords literals position stop).bind _).map _ = _
  cases reader.wordAt keywords literals position stop <;> rfl

theorem answer_numeral : numeral.answer reader position stop = reader.numeralAt position stop := by
  show ((reader.numeralAt position stop).bind _).map _ = _
  cases reader.numeralAt position stop <;> rfl

theorem answer_custom (label : Text)
    (claim : Source → Int → Int → Except Error (Option Span)) :
    (custom label claim).answer reader position stop = claim reader.source position stop := by
  show ((claim reader.source position stop).bind _).map _ = _
  cases claim reader.source position stop <;> rfl

/-- A rule that does not track failures answers the same under any memory and leaves it alone. -/
theorem attempt_of_not_tracksFailures {rule : Rule} (h : rule.tracksFailures = false) :
    rule.attempt reader memory position stop =
      (rule.answer reader position stop).map (Attempt.mk · memory) := by
  cases rule with
  | quoted marks => contradiction
  | word keywords literals =>
      rw [answer_word]
      show (reader.wordAt keywords literals position stop).bind _ = _
      cases reader.wordAt keywords literals position stop <;> rfl
  | numeral =>
      rw [answer_numeral]
      show (reader.numeralAt position stop).bind _ = _
      cases reader.numeralAt position stop <;> rfl
  | custom label claim =>
      rw [answer_custom]
      show (claim reader.source position stop).bind _ = _
      cases claim reader.source position stop <;> rfl

theorem attempt_none (rule : Rule) :
    rule.attempt reader none position stop =
      (rule.answer reader position stop).map (Attempt.mk · none) := by
  cases rule with
  | word keywords literals => exact attempt_of_not_tracksFailures reader none position stop rfl
  | numeral => exact attempt_of_not_tracksFailures reader none position stop rfl
  | custom label claim => exact attempt_of_not_tracksFailures reader none position stop rfl
  | quoted marks =>
      unfold answer
      cases hattempt : (quoted marks).attempt reader none position stop with
      | error e => rfl
      | ok attempt =>
          have hmemory : attempt.memory = none := Reader.memory_of_quotedAt hattempt
          show Except.ok attempt = .ok ⟨attempt.claim, none⟩
          rw [← hmemory]

end Answers

theorem answer_quoted {reader : Reader} {position stop : Int} {marks : List Char}
    {attempt : Attempt} (h : reader.quotedAt marks none position stop = .ok attempt) :
    (quoted marks).answer reader position stop = .ok attempt.claim :=
  congrArg (Except.map Attempt.claim) h

/-- What a rule of the library finds at the front of a text: a lexeme of some category, with the
rest of the text behind it.  Of what stands before the text it only matters whether the position is
inside a word. -/
def Finds (inWord : Bool) (lexeme rest : Text) (category : Category) : Rule → Prop
  | word keywords literals =>
      IsWord lexeme ∧ inWord = false ∧ rest.head?.any isWordChar = false ∧
        category = wordCategory keywords literals lexeme
  | quoted marks => IsQuoted marks lexeme ∧ category = .string
  | numeral =>
      Longest numerals lexeme rest ∧ inWord = false ∧ rest.head?.any isWordChar = false ∧
        category = .number
  | custom _ _ => False

/-- The rules of the library never fail, and they claim exactly what they find in the stretch ahead
of the position. -/
theorem answer_exact {source : Source} {position stop : Int} (rule : Rule)
    (hlibrary : ∀ label claim, rule ≠ .custom label claim) (hposition : 0 ≤ position)
    (hlt : position < stop) (hstop : stop ≤ source.length) :
    ∃ claim, rule.answer source.reader position stop = .ok claim ∧
      ∀ span, claim = some span ↔ ∃ category lexeme rest,
        source.slice position stop = lexeme ++ rest ∧
        rule.Finds ((source.behind position).any isWordChar) lexeme rest category ∧
        span = Span.ofLexeme category lexeme position := by
  cases rule with
  | custom label claim => exact absurd rfl (hlibrary label claim)
  | word keywords literals =>
      obtain ⟨claim, hclaim, hexact⟩ :=
        Reader.wordAt_exact source keywords literals hposition hlt hstop
      rw [← answer_word] at hclaim
      refine ⟨claim, hclaim, fun span => (hexact span).trans ?_⟩
      constructor
      · rintro ⟨lexeme, rest, hsplit, hword, hbehind, hrest, rfl⟩
        exact ⟨_, lexeme, rest, hsplit, ⟨hword, hbehind, hrest, rfl⟩, rfl⟩
      · rintro ⟨_, lexeme, rest, hsplit, ⟨hword, hbehind, hrest, rfl⟩, rfl⟩
        exact ⟨lexeme, rest, hsplit, hword, hbehind, hrest, rfl⟩
  | quoted marks =>
      obtain ⟨claim, hclaim, hexact⟩ := Reader.quotedAt_forgetful source marks hposition hlt hstop
      refine ⟨claim, answer_quoted hclaim, fun span => (hexact span).trans ?_⟩
      constructor
      · rintro ⟨lexeme, rest, hsplit, hquoted, rfl⟩
        exact ⟨_, lexeme, rest, hsplit, ⟨hquoted, rfl⟩, rfl⟩
      · rintro ⟨_, lexeme, rest, hsplit, ⟨hquoted, rfl⟩, rfl⟩
        exact ⟨lexeme, rest, hsplit, hquoted, rfl⟩
  | numeral =>
      obtain ⟨claim, hclaim, hexact⟩ := Reader.numeralAt_exact source hposition hlt hstop
      rw [← answer_numeral] at hclaim
      refine ⟨claim, hclaim, fun span => (hexact span).trans ?_⟩
      constructor
      · rintro ⟨lexeme, rest, hsplit, hlongest, hbehind, hrest, rfl⟩
        exact ⟨_, lexeme, rest, hsplit, ⟨hlongest, hbehind, hrest, rfl⟩, rfl⟩
      · rintro ⟨_, lexeme, rest, hsplit, ⟨hlongest, hbehind, hrest, rfl⟩, rfl⟩
        exact ⟨lexeme, rest, hsplit, hlongest, hbehind, hrest, rfl⟩

/-- In particular they claim lexemes that stand at the position. -/
theorem exists_answer {source : Source} {position stop : Int} (rule : Rule)
    (hlibrary : ∀ label claim, rule ≠ .custom label claim) (hposition : 0 ≤ position)
    (hlt : position < stop) (hstop : stop ≤ source.length) :
    ∃ claim, rule.answer source.reader position stop = .ok claim ∧
      ∀ span ∈ claim, ∃ category lexeme rest, source.slice position stop = lexeme ++ rest ∧
        span = Span.ofLexeme category lexeme position := by
  obtain ⟨claim, hclaim, hexact⟩ := answer_exact rule hlibrary hposition hlt hstop
  refine ⟨claim, hclaim, ?_⟩
  intro span hspan
  obtain ⟨category, lexeme, rest, hsplit, -, hlexeme⟩ := (hexact span).1 hspan
  exact ⟨category, lexeme, rest, hsplit, hlexeme⟩

end Rule

/-! ## The first answer -/

section FirstAnswer

variable {reader : Reader} {position stop : Int} {rule : Rule} {rules : List Rule}

theorem firstAnswer_of_some {claim : Span}
    (h : rule.answer reader position stop = .ok (some claim)) :
    firstAnswer reader position stop (rule :: rules) = .ok (some claim) := by
  rw [firstAnswer, h]

theorem firstAnswer_of_none (h : rule.answer reader position stop = .ok none) :
    firstAnswer reader position stop (rule :: rules) = firstAnswer reader position stop rules := by
  rw [firstAnswer, h]

theorem firstAnswer_of_error {e : Error} (h : rule.answer reader position stop = .error e) :
    firstAnswer reader position stop (rule :: rules) = .error e := by
  rw [firstAnswer, h]

/-- A rule that does not decline is the last one to be asked. -/
theorem firstAnswer_of_ne_none (h : rule.answer reader position stop ≠ .ok none) :
    firstAnswer reader position stop (rule :: rules) = rule.answer reader position stop := by
  rw [firstAnswer]
  split
  · next hanswer => exact hanswer.symm
  · next hanswer => exact hanswer.symm
  · next hanswer => exact absurd hanswer h

/-- What is answered, a claim or a failure, is the answer of one of the rules. -/
theorem exists_rule_of_firstAnswer {answer : Except Error (Option Span)}
    (h : firstAnswer reader position stop rules = answer) (hne : answer ≠ .ok none) :
    ∃ rule ∈ rules, rule.answer reader position stop = answer := by
  induction rules with
  | nil => exact absurd h.symm hne
  | cons rule rest ih =>
      by_cases hanswer : rule.answer reader position stop = .ok none
      · rw [firstAnswer_of_none hanswer] at h
        obtain ⟨other, hother, hsame⟩ := ih h
        exact ⟨other, List.mem_cons_of_mem rule hother, hsame⟩
      · rw [firstAnswer_of_ne_none hanswer] at h
        exact ⟨rule, List.mem_cons_self, h⟩

theorem firstAnswer_append_of_none {before : List Rule}
    (h : firstAnswer reader position stop before = .ok none) :
    firstAnswer reader position stop (before ++ rules) =
      firstAnswer reader position stop rules := by
  induction before with
  | nil => rfl
  | cons rule rest ih =>
      by_cases hanswer : rule.answer reader position stop = .ok none
      · rw [firstAnswer_of_none hanswer] at h
        rw [List.cons_append, firstAnswer_of_none hanswer, ih h]
      · rw [firstAnswer_of_ne_none hanswer] at h
        exact absurd h hanswer

theorem firstAnswer_append_of_ne_none {before : List Rule}
    (h : firstAnswer reader position stop before ≠ .ok none) :
    firstAnswer reader position stop (before ++ rules) =
      firstAnswer reader position stop before := by
  induction before with
  | nil => exact absurd rfl h
  | cons rule rest ih =>
      rw [List.cons_append]
      by_cases hanswer : rule.answer reader position stop = .ok none
      · rw [firstAnswer_of_none hanswer] at h ⊢
        rw [firstAnswer_of_none hanswer, ih h]
      · rw [firstAnswer_of_ne_none hanswer, firstAnswer_of_ne_none hanswer]

end FirstAnswer

/-! ## Verdicts -/

/-- The verdict on nothing, on a claim that is not acceptable, on plain text and on a token. -/
theorem judge_cases {motive : Option Span → Verdict → Prop} {position stop : Int}
    (hnone : motive none .unclaimed)
    (hrefused : ∀ span : Span, ¬ span.Acceptable position stop →
      motive (some span) (.refused span))
    (habsorbed : ∀ span : Span, span.Acceptable position stop → span.category = .plain →
      motive (some span) (.absorbed span.stop))
    (htoken : ∀ span : Span, span.Acceptable position stop → span.category ≠ .plain →
      motive (some span) (.token span))
    (claim : Option Span) : motive claim (judge position stop claim) := by
  cases claim with
  | none => exact hnone
  | some span =>
      rw [judge]
      by_cases haccept : span.Acceptable position stop
      · rw [if_pos haccept]
        by_cases hplain : span.category = .plain
        · rw [if_pos hplain]
          exact habsorbed span haccept hplain
        · rw [if_neg hplain]
          exact htoken span haccept hplain
      · rw [if_neg haccept]
        exact hrefused span haccept

/-- A token comes from an acceptable claim; no other verdict finds one. -/
theorem judge_token_or_tokens_eq_nil (position stop : Int) (claim : Option Span) :
    (∃ span, claim = some span ∧ span.Acceptable position stop ∧ span.category ≠ .plain ∧
      judge position stop claim = .token span) ∨ (judge position stop claim).tokens = [] := by
  refine judge_cases (motive := fun claim verdict => (∃ span, claim = some span ∧
    span.Acceptable position stop ∧ span.category ≠ .plain ∧ verdict = .token span) ∨
      verdict.tokens = []) (.inr rfl) (fun _ _ => .inr rfl) (fun _ _ _ => .inr rfl) ?_ claim
  exact fun span haccept hplain => .inl ⟨span, rfl, haccept, hplain, rfl⟩

theorem start_of_mem_tokens_judge {position stop : Int} {claim : Option Span} {token : Span}
    (h : token ∈ (judge position stop claim).tokens) :
    token.start = position ∧ token.category ≠ .plain := by
  rcases judge_token_or_tokens_eq_nil position stop claim with
    ⟨span, -, haccept, hcategory, hjudge⟩ | hnil
  · rw [hjudge] at h
    obtain rfl := List.mem_singleton.1 h
    exact ⟨haccept.1, hcategory⟩
  · rw [hnil] at h
    contradiction

/-- Without an acceptable claim the cursor moves on by one place and finds nothing. -/
theorem judge_passes_or_acceptable (position stop : Int) (claim : Option Span) :
    ((judge position stop claim).tokens = [] ∧
      (judge position stop claim).next position = position + 1) ∨
    ∃ span, claim = some span ∧ span.Acceptable position stop := by
  cases claim with
  | none => exact .inl ⟨rfl, rfl⟩
  | some span =>
      by_cases haccept : span.Acceptable position stop
      · exact .inr ⟨span, rfl, haccept⟩
      · rw [judge, if_neg haccept]
        exact .inl ⟨rfl, rfl⟩

/-- No verdict moves the cursor beyond the bound. -/
theorem next_judge_le {position stop : Int} (hlt : position < stop) (claim : Option Span) :
    (judge position stop claim).next position ≤ stop :=
  judge_cases (motive := fun _ verdict => verdict.next position ≤ stop) hlt (fun _ _ => hlt)
    (fun _ haccept _ => haccept.2.2) (fun _ haccept _ => haccept.2.2) claim

/-! ## The steps of a chain -/

namespace Chain

section FirstClaim

variable {reader : Reader} {position stop : Int} {slot : Slot} {rest : Chain}

theorem firstClaim_of_error {e : Error}
    (h : slot.rule.attempt reader slot.memory position stop = .error e) :
    firstClaim reader position stop (slot :: rest) = .error e := by
  show (slot.rule.attempt reader slot.memory position stop).bind _ = _
  rw [h]
  rfl

theorem firstClaim_of_some {claim : Span} {memory : Option Horizons}
    (h : slot.rule.attempt reader slot.memory position stop = .ok ⟨some claim, memory⟩) :
    firstClaim reader position stop (slot :: rest) =
      .ok (some claim, ⟨slot.rule, memory⟩ :: rest) := by
  show (slot.rule.attempt reader slot.memory position stop).bind _ = _
  rw [h]
  rfl

theorem firstClaim_of_none {memory : Option Horizons}
    (h : slot.rule.attempt reader slot.memory position stop = .ok ⟨none, memory⟩) :
    firstClaim reader position stop (slot :: rest) =
      (firstClaim reader position stop rest).map fun later =>
        (later.1, ⟨slot.rule, memory⟩ :: later.2) := by
  show (slot.rule.attempt reader slot.memory position stop).bind _ = _
  rw [h]
  show (firstClaim reader position stop rest).bind _ = _
  cases firstClaim reader position stop rest <;> rfl

end FirstClaim

section Tokens

variable {reader : Reader} {position stop : Int} {chain : Chain}

theorem tokens_of_le (hle : stop ≤ position) : chain.tokens reader position stop = .done [] := by
  rw [Chain.tokens, if_neg (by omega)]

theorem tokens_of_error (hlt : position < stop) {e : Error}
    (hclaim : chain.firstClaim reader position stop = .error e) :
    chain.tokens reader position stop = .failed e := by
  rw [Chain.tokens, if_pos hlt, hclaim]

theorem tokens_of_claim (hlt : position < stop) {claim : Option Span} {after : Chain}
    (hclaim : chain.firstClaim reader position stop = .ok (claim, after)) :
    chain.tokens reader position stop =
      ((after.tokens reader ((judge position stop claim).next position) stop).map
        ((judge position stop claim).tokens ++ ·)).after
          ((judge position stop claim).refusals position) := by
  rw [Chain.tokens, if_pos hlt, hclaim]

end Tokens

/-! ## Chains without memories -/

section Forgetful

variable (reader : Reader) (position stop : Int) (rules : List Rule)

/-- A chain without memories is left behind as it was. -/
theorem firstClaim_forgetful :
    firstClaim reader position stop (forgetful rules) =
      (firstAnswer reader position stop rules).map (·, forgetful rules) := by
  induction rules with
  | nil => rfl
  | cons rule rest ih =>
      have hattempt := rule.attempt_none reader position stop
      show firstClaim reader position stop (⟨rule, none⟩ :: forgetful rest) = _
      cases hanswer : rule.answer reader position stop with
      | error e =>
          rw [hanswer] at hattempt
          rw [firstClaim_of_error hattempt, firstAnswer_of_error hanswer]
          rfl
      | ok claim =>
          rw [hanswer] at hattempt
          cases claim with
          | some claim =>
              rw [firstClaim_of_some hattempt, firstAnswer_of_some hanswer]
              rfl
          | none =>
              rw [firstClaim_of_none hattempt, firstAnswer_of_none hanswer, ih]
              cases firstAnswer reader position stop rest <;> rfl

variable {position stop rules}

theorem tokens_forgetful_of_error (hlt : position < stop) {e : Error}
    (hanswer : firstAnswer reader position stop rules = .error e) :
    (forgetful rules).tokens reader position stop = .failed e := by
  apply tokens_of_error hlt
  rw [firstClaim_forgetful, hanswer]
  rfl

theorem tokens_forgetful_of_claim (hlt : position < stop) {claim : Option Span}
    (hanswer : firstAnswer reader position stop rules = .ok claim) :
    (forgetful rules).tokens reader position stop =
      (((forgetful rules).tokens reader ((judge position stop claim).next position) stop).map
        ((judge position stop claim).tokens ++ ·)).after
          ((judge position stop claim).refusals position) := by
  apply tokens_of_claim hlt
  rw [firstClaim_forgetful, hanswer]
  rfl

variable {reader}

theorem result_of_claim (hlt : position < stop) {claim : Option Span}
    (hanswer : firstAnswer reader position stop rules = .ok claim) :
    ((forgetful rules).tokens reader position stop).result =
      ((forgetful rules).tokens reader ((judge position stop claim).next position) stop).result.map
        ((judge position stop claim).tokens ++ ·) := by
  rw [tokens_forgetful_of_claim reader hlt hanswer]
  rfl

/-- A run that ends has its first step and a rest that ends. -/
theorem exists_step_of_tokens (hlt : position < stop) {tokens : List Span}
    (h : ((forgetful rules).tokens reader position stop).result = .ok tokens) :
    ∃ claim rest, firstAnswer reader position stop rules = .ok claim ∧
      ((forgetful rules).tokens reader ((judge position stop claim).next position) stop).result =
        .ok rest ∧
      tokens = (judge position stop claim).tokens ++ rest := by
  cases hanswer : firstAnswer reader position stop rules with
  | error e =>
      rw [tokens_forgetful_of_error reader hlt hanswer] at h
      contradiction
  | ok claim =>
      rw [result_of_claim hlt hanswer] at h
      cases hrest : ((forgetful rules).tokens reader
          ((judge position stop claim).next position) stop).result with
      | error e =>
          rw [hrest] at h
          contradiction
      | ok rest =>
          rw [hrest] at h
          exact ⟨claim, rest, rfl, hrest, (Except.ok.inj h).symm⟩

/-- A run finds no token before the position at which it begins, and no plain span. -/
theorem le_start_of_tokens (position : Int) {tokens : List Span}
    (h : ((forgetful rules).tokens reader position stop).result = .ok tokens) :
    ∀ token ∈ tokens, position ≤ token.start ∧ token.category ≠ .plain := by
  by_cases hlt : position < stop
  · obtain ⟨claim, rest, -, hrest, rfl⟩ := exists_step_of_tokens hlt h
    have hnext := lt_next_judge position stop claim
    have ih := le_start_of_tokens ((judge position stop claim).next position) hrest
    intro token htoken
    rcases List.mem_append.1 htoken with htoken | htoken
    · obtain ⟨hstart, hcategory⟩ := start_of_mem_tokens_judge htoken
      exact ⟨Int.le_of_eq hstart.symm, hcategory⟩
    · obtain ⟨hstart, hcategory⟩ := ih token htoken
      exact ⟨by omega, hcategory⟩
  · rw [tokens_of_le (by omega)] at h
    obtain rfl := Except.ok.inj h
    exact nofun
termination_by (stop - position).toNat

end Forgetful

end Chain

end CodeHighlight
