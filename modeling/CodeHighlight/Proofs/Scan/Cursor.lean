import CodeHighlight.Proofs.Scan.Chain
import CodeHighlight.Scan.Cursor

/-!
# What a cursor has left

A cursor scans as it is asked, while `Chain.tokens` finds all tokens in one pass.  The pass goes on
behind the next token just as the search for that token leaves off (`Chain.search_cases`).  So it is
known at any time what a cursor has left to deliver (`Cursor.remaining`), and each request takes the
first span of that (`Cursor.next_of_remaining`): the plain text in front of a token first, where
there is some, and then the token, which is pending in between.
-/

namespace CodeHighlight

/-! ## Searches -/

namespace Chain

variable {reader : Reader} {position stop : Int} {chain : Chain}

theorem search_of_le (hle : stop ≤ position) :
    chain.search reader position stop = .done ⟨none, position, chain⟩ := by
  rw [Chain.search, if_neg (by omega)]

theorem search_of_error (hlt : position < stop) {e : Error}
    (hclaim : chain.firstClaim reader position stop = .error e) :
    chain.search reader position stop = .failed e := by
  rw [Chain.search, if_pos hlt, hclaim]

theorem search_of_token (hlt : position < stop) {claim : Option Span} {after : Chain} {span : Span}
    (hclaim : chain.firstClaim reader position stop = .ok (claim, after))
    (hjudge : judge position stop claim = .token span) :
    chain.search reader position stop = .done ⟨some span, span.stop, after⟩ := by
  rw [Chain.search, if_pos hlt, hclaim]
  dsimp only
  rw [hjudge]

theorem search_of_tokens_eq_nil (hlt : position < stop) {claim : Option Span} {after : Chain}
    (hclaim : chain.firstClaim reader position stop = .ok (claim, after))
    (hnone : (judge position stop claim).tokens = []) :
    chain.search reader position stop =
      (after.search reader ((judge position stop claim).next position) stop).after
        ((judge position stop claim).refusals position) := by
  rw [Chain.search, if_pos hlt, hclaim]
  dsimp only
  split
  · next span hjudge =>
      rw [hjudge] at hnone
      contradiction
  · rfl

/-- A search fails where the pass fails, and otherwise the pass finds the same token and goes on
from where the search ends. -/
theorem search_cases (position : Int) (chain : Chain) :
    (∃ e, (chain.search reader position stop).result = .error e ∧
      (chain.tokens reader position stop).result = .error e) ∨
    ∃ found, (chain.search reader position stop).result = .ok found ∧
      (found.token = none → stop ≤ found.position) ∧
      (chain.tokens reader position stop).result =
        (found.chain.tokens reader found.position stop).result.map (found.token.toList ++ ·) := by
  by_cases hlt : position < stop
  · cases hclaim : chain.firstClaim reader position stop with
    | error e =>
        rw [search_of_error hlt hclaim, tokens_of_error hlt hclaim]
        exact .inl ⟨e, rfl, rfl⟩
    | ok answer =>
        obtain ⟨claim, after⟩ := answer
        have hnext := lt_next_judge position stop claim
        rw [tokens_of_claim hlt hclaim]
        rcases judge_token_or_tokens_eq_nil position stop claim with
          ⟨span, -, -, -, hjudge⟩ | hnone
        · rw [search_of_token hlt hclaim hjudge, hjudge]
          exact .inr ⟨_, rfl, nofun, rfl⟩
        · have hsame : (after.tokens reader ((judge position stop claim).next position)
              stop).result.map (([] : List Span) ++ ·) =
                (after.tokens reader ((judge position stop claim).next position) stop).result := by
            cases (after.tokens reader ((judge position stop claim).next position) stop).result <;>
              rfl
          rw [search_of_tokens_eq_nil hlt hclaim hnone, hnone]
          show (∃ e, _ ∧ Except.map _ _ = _) ∨ ∃ found, _ ∧ _ ∧ Except.map _ _ = _
          rw [hsame]
          exact search_cases ((judge position stop claim).next position) after
  · have hle : stop ≤ position := Int.not_lt.1 hlt
    rw [search_of_le hle]
    refine .inr ⟨⟨none, position, chain⟩, rfl, fun _ => hle, ?_⟩
    rw [tokens_of_le hle]
    rfl
termination_by (stop - position).toNat

end Chain

/-! ## Requests -/

theorem plainBetween_of_le {source : Source} {start stop : Int} (hle : stop ≤ start) :
    plainBetween source start stop = [] :=
  if_neg (by omega)

namespace Cursor

/-- The spans that a cursor has left, unless a rule fails before the end of the stretch. -/
def remaining (cursor : Cursor) : Except Error (List Span) :=
  (cursor.chain.tokens cursor.reader cursor.position cursor.stop).result.map fun tokens =>
    fillGaps cursor.reader.source cursor.plainStart cursor.stop (cursor.pending.toList ++ tokens)

/-- A new cursor has all spans of its stretch left. -/
theorem remaining_ofRange (grammar : Grammar) (source : Source) (start : Int) (stop : Option Int) :
    (ofRange grammar source start stop).remaining =
      (grammar.classifyRange source start stop).result := rfl

variable {tokens : List Span}

theorem remaining_of_tokens (cursor : Cursor)
    (htokens : (cursor.chain.tokens cursor.reader cursor.position cursor.stop).result =
      .ok tokens) :
    cursor.remaining = .ok (fillGaps cursor.reader.source cursor.plainStart cursor.stop
      (cursor.pending.toList ++ tokens)) := by
  rw [remaining, htokens]
  rfl

variable {cursor : Cursor}

/-- Of a token with the plain text in front of it, what comes first is delivered and the rest is
left. -/
theorem deliver_of_tokens (token : Span)
    (htokens : (cursor.chain.tokens cursor.reader cursor.position cursor.stop).result =
      .ok tokens) :
    ∃ rest, fillGaps cursor.reader.source cursor.plainStart cursor.stop (token :: tokens) =
        (cursor.deliver token).1 :: rest ∧
      (cursor.deliver token).2.remaining = .ok rest := by
  rw [fillGaps, deliver]
  by_cases hlt : cursor.plainStart < token.start
  · rw [if_pos hlt, plainBetween, if_pos hlt]
    refine ⟨token :: fillGaps cursor.reader.source token.stop cursor.stop tokens, rfl, ?_⟩
    have hleft := remaining_of_tokens
      { cursor with plainStart := token.start, pending := some token } htokens
    rw [hleft]
    show Except.ok (plainBetween _ token.start token.start ++ token :: _) = _
    rw [plainBetween_of_le (Int.le_refl token.start)]
    rfl
  · rw [if_neg hlt, plainBetween_of_le (Int.not_lt.1 hlt)]
    exact ⟨_, rfl, remaining_of_tokens
      { cursor with plainStart := token.stop, pending := none } htokens⟩

/-- Where a search finds no token, the rest of the plain text is delivered, if there is any. -/
theorem deliverFound_of_tokens {found : Search} (hpending : cursor.pending = none)
    (hstop : found.token = none → cursor.stop ≤ found.position)
    (htokens : (found.chain.tokens cursor.reader found.position cursor.stop).result = .ok tokens)
    {spans : List Span} (hspans : spans = fillGaps cursor.reader.source cursor.plainStart
      cursor.stop (found.token.toList ++ tokens)) :
    (cursor.deliverFound found).1 = spans.head? ∧
      (cursor.deliverFound found).2.remaining = .ok spans.tail := by
  obtain ⟨token, position, chain⟩ := found
  let moved : Cursor := { cursor with position := position, chain := chain }
  have hmoved : (moved.chain.tokens moved.reader moved.position moved.stop).result = .ok tokens :=
    htokens
  cases token with
  | some token =>
      obtain ⟨rest, hsplit, hrest⟩ := deliver_of_tokens token hmoved
      obtain rfl : spans = (moved.deliver token).1 :: rest := hspans.trans hsplit
      exact ⟨rfl, hrest⟩
  | none =>
      obtain rfl : tokens = [] := by
        rw [Chain.tokens_of_le (hstop rfl)] at htokens
        exact (Except.ok.inj htokens).symm
      have hspans : spans =
          plainBetween cursor.reader.source cursor.plainStart cursor.stop := hspans
      unfold deliverFound
      dsimp only
      by_cases hlt : cursor.plainStart < cursor.stop
      · have hleft := remaining_of_tokens { moved with plainStart := cursor.stop } hmoved
        rw [if_pos hlt, hspans, plainBetween, if_pos hlt]
        refine ⟨rfl, hleft.trans ?_⟩
        show Except.ok (fillGaps _ cursor.stop cursor.stop (cursor.pending.toList ++ [])) = _
        rw [hpending]
        exact congrArg Except.ok (plainBetween_of_le (Int.le_refl cursor.stop))
      · have hleft := remaining_of_tokens moved hmoved
        rw [if_neg hlt, hspans, plainBetween_of_le (Int.not_lt.1 hlt)]
        refine ⟨rfl, hleft.trans ?_⟩
        show Except.ok (fillGaps _ cursor.plainStart cursor.stop (cursor.pending.toList ++ [])) = _
        rw [hpending]
        exact congrArg Except.ok (plainBetween_of_le (Int.not_lt.1 hlt))

/-- A request delivers the first of the spans that are left, or none if there are none, and leaves
the others. -/
theorem next_of_remaining {spans : List Span} (h : cursor.remaining = .ok spans) :
    cursor.next.result = .ok spans.head? ∧ cursor.next.cursor.remaining = .ok spans.tail := by
  unfold next
  cases hpending : cursor.pending with
  | some token =>
      -- The token was found at an earlier request, and the pass goes on behind it.
      cases htokens : (cursor.chain.tokens cursor.reader cursor.position cursor.stop).result with
      | error e =>
          rw [remaining, htokens] at h
          contradiction
      | ok tokens =>
          rw [remaining_of_tokens cursor htokens, hpending] at h
          obtain ⟨rest, hsplit, hrest⟩ := deliver_of_tokens token htokens
          obtain rfl := (Except.ok.inj h).symm.trans hsplit
          exact ⟨rfl, hrest⟩
  | none =>
      rcases Chain.search_cases cursor.position cursor.chain with
        ⟨e, hsearch, htokens⟩ | ⟨found, hsearch, hstop, htokens⟩
      · rw [remaining, htokens] at h
        contradiction
      · cases hlater : (found.chain.tokens cursor.reader found.position cursor.stop).result with
        | error e =>
            rw [hlater] at htokens
            rw [remaining, htokens] at h
            contradiction
        | ok tokens =>
            rw [hlater] at htokens
            rw [remaining_of_tokens cursor htokens, hpending] at h
            have hspans := (Except.ok.inj h).symm
            obtain ⟨hfirst, hrest⟩ := deliverFound_of_tokens hpending hstop hlater hspans
            dsimp only
            rw [hsearch]
            exact ⟨congrArg Except.ok hfirst, hrest⟩

/-- The cursor behind some requests. -/
def after (cursor : Cursor) : Nat → Cursor
  | 0 => cursor
  | count + 1 => (cursor.after count).next.cursor

theorem remaining_after {spans : List Span} (h : cursor.remaining = .ok spans) (count : Nat) :
    (cursor.after count).remaining = .ok (spans.drop count) := by
  induction count with
  | zero => exact h
  | succ count ih => rw [after, (next_of_remaining ih).2, List.tail_drop]

/-- The requests to a cursor deliver the spans that it has left one after the other, and then none
for ever. -/
theorem next_after {spans : List Span} (h : cursor.remaining = .ok spans) (count : Nat) :
    (cursor.after count).next.result = .ok spans[count]? := by
  rw [(next_of_remaining (remaining_after h count)).1, List.head?_drop]

/-- What a cursor answers to some requests: a span each time, or that none is left, unless a rule
fails. -/
def answers (cursor : Cursor) : Nat → List (Except Error (Option Span))
  | 0 => []
  | count + 1 => cursor.answers count ++ [(cursor.after count).next.result]

@[simp]
theorem length_answers (cursor : Cursor) (count : Nat) : (cursor.answers count).length = count := by
  induction count with
  | zero => rfl
  | succ count ih => rw [answers, List.length_append, ih, List.length_singleton]

/-- The answers are the spans that are left and, when they are used up, that none is left. -/
theorem answers_of_remaining {spans : List Span} (h : cursor.remaining = .ok spans) (count : Nat) :
    cursor.answers count = (spans.take count).map (fun span => .ok (some span)) ++
      List.replicate (count - spans.length) (.ok none) := by
  induction count with
  | zero => simp [answers]
  | succ count ih =>
      rw [answers, ih, next_after h, List.take_add_one, List.map_append, List.append_assoc,
        List.append_assoc]
      congr 1
      by_cases hlt : count < spans.length
      · have hnone : count - spans.length = 0 := by omega
        have hnone' : count + 1 - spans.length = 0 := by omega
        rw [hnone, hnone', List.getElem?_eq_getElem hlt]
        rfl
      · have hcount : count + 1 - spans.length = count - spans.length + 1 := by omega
        rw [hcount, List.replicate_succ', List.getElem?_eq_none (Nat.not_lt.1 hlt)]
        rfl

end Cursor

end CodeHighlight
