import CodeHighlight.Grammar

/-!
# The chain of rules

During a run over a source, every rule that tracks its failures has a memory of its own.  The chain
holds the rules with their memories.  At each position the first rule of the chain that claims a
span is heard, and `judge` says what becomes of its claim.
-/

namespace CodeHighlight

/-- A rule with what it remembers of the run so far. -/
structure Slot where
  rule : Rule
  memory : Option Horizons

/-- The rules of a run, in the order in which they are tried. -/
abbrev Chain := List Slot

namespace Chain

/-- The chain at the start of a run: the rules that track failures have an empty memory each. -/
def fresh (rules : List Rule) : Chain :=
  rules.map fun rule => ⟨rule, if rule.tracksFailures then some [] else none⟩

/-- The chain in which no rule remembers anything. -/
def forgetful (rules : List Rule) : Chain :=
  rules.map fun rule => ⟨rule, none⟩

/-- The first claim that a rule of the chain makes at a position, with the chain as it is left
behind.  Rules behind the claiming one are not asked. -/
def firstClaim (reader : Reader) (position stop : Int) :
    Chain → Except Error (Option Span × Chain)
  | [] => .ok (none, [])
  | slot :: rest => do
      let attempt ← slot.rule.attempt reader slot.memory position stop
      let asked : Slot := ⟨slot.rule, attempt.memory⟩
      match attempt.claim with
      | some claim => return (some claim, asked :: rest)
      | none =>
          let (claim, rest) ← firstClaim reader position stop rest
          return (claim, asked :: rest)

end Chain

/-- What becomes of the position under the cursor. -/
inductive Verdict where
  /-- No rule claims it. -/
  | unclaimed
  /-- A rule claims it with a span that is not acceptable, and the cursor passes it. -/
  | refused (claim : Span)
  /-- It belongs to plain text up to `stop`. -/
  | absorbed (stop : Int)
  /-- A token starts here. -/
  | token (span : Span)

/-- A claim at a position is acceptable if it starts there, is not empty and ends at `stop` at the
latest. -/
def Span.Acceptable (span : Span) (position stop : Int) : Prop :=
  span.start = position ∧ position < span.stop ∧ span.stop ≤ stop

instance (span : Span) (position stop : Int) : Decidable (span.Acceptable position stop) :=
  inferInstanceAs (Decidable (_ ∧ _))

/-- What becomes of a position at which a claim is made, or none. -/
def judge (position stop : Int) : Option Span → Verdict
  | none => .unclaimed
  | some claim =>
      if claim.Acceptable position stop then
        if claim.category = .plain then .absorbed claim.stop else .token claim
      else
        .refused claim

namespace Verdict

/-- The next position to look at. -/
def next (position : Int) : Verdict → Int
  | unclaimed => position + 1
  | refused _ => position + 1
  | absorbed stop => stop
  | token span => span.stop

end Verdict

/-- Every verdict moves the cursor on. -/
theorem lt_next_judge (position stop : Int) (claim : Option Span) :
    position < (judge position stop claim).next position := by
  cases claim with
  | none => exact Int.lt_succ position
  | some claim =>
      rw [judge]
      split
      · next h =>
          split
          · exact h.2.1
          · exact h.2.1
      · exact Int.lt_succ position

end CodeHighlight
