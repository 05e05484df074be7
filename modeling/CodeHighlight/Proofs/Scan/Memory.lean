import CodeHighlight.Proofs.Scan.Chain

/-!
# Remembered failures change nothing

A chain that remembers the horizons of failed searches finds what the chain of the same rules finds
that remembers nothing.  The invariant is `Horizons.Sound`: every mark before a horizon that the run
has yet to reach is one from which the search fails.  A rule that declines to search from there is
right, and a failed search leaves a sound horizon behind because everything it has passed was hidden
by a backslash (`QuotedSearch.missing_of_passed`).
-/

namespace CodeHighlight

/-! ## Sound horizons -/

/-- A position is blocked by a horizon that lies behind it. -/
theorem Horizons.exists_reach_of_blocks {horizons : Horizons} {mark : Char} {position : Int}
    (hposition : -1 ≤ position) (h : horizons.blocks mark position = true) :
    ∃ horizon, horizons.reach mark = some horizon ∧ position < horizon := by
  have hbefore : position < (horizons.reach mark).getD (-1) := of_decide_eq_true h
  cases hreach : horizons.reach mark with
  | none =>
      rw [hreach, Option.getD_none] at hbefore
      omega
  | some horizon =>
      rw [hreach, Option.getD_some] at hbefore
      exact ⟨horizon, rfl, hbefore⟩

/-- From no mark before its horizon that lies at the position or behind it does a search succeed. -/
def Horizons.Sound (source : Source) (stop position : Int) (horizons : Horizons) : Prop :=
  ∀ mark horizon place, horizons.reach mark = some horizon → position ≤ place → place < horizon →
    source.read place = .ok mark →
      ∃ later, QuotedSearch source mark stop (place + 1) (.missing later)

namespace Horizons.Sound

variable {source : Source} {stop position : Int} {horizons : Horizons}

theorem nil : Sound source stop position [] := by
  intro mark horizon place hreach
  contradiction

theorem mono {later : Int} (h : Sound source stop position horizons) (hle : position ≤ later) :
    Sound source stop later horizons := by
  intro mark horizon place hreach hplace
  exact h mark horizon place hreach (by omega)

/-- A failed search leaves a sound horizon behind. -/
theorem note {mark : Char} {horizon : Int} (h : Sound source stop position horizons)
    (hposition : 0 ≤ position) (hstop : stop ≤ source.length)
    (hsearch : QuotedSearch source mark stop (position + 1) (.missing horizon)) :
    Sound source stop (position + 1) (horizons.note mark horizon) := by
  intro other reach place hreach hplace hbefore hread
  -- The noted mark has the new horizon, every other mark has the one it had.
  rw [reach_note] at hreach
  split at hreach
  · next hsame =>
      obtain rfl := Option.some.inj hreach
      subst hsame
      exact hsearch.missing_of_passed (by omega) (fun _ => hstop) hplace hbefore hread
  · exact h other reach place hreach (by omega) hbefore hread

/-- A sound memory blocks no mark from which a search succeeds. -/
theorem missing_of_blocks {mark : Char} (h : Sound source stop position horizons)
    (hposition : 0 ≤ position) (hread : source.read position = .ok mark)
    (hblocks : horizons.blocks mark position = true) :
    ∃ later, QuotedSearch source mark stop (position + 1) (.missing later) := by
  obtain ⟨horizon, hreach, hbefore⟩ := exists_reach_of_blocks (by omega) hblocks
  exact h mark horizon position hreach (by omega) hbefore hread

end Horizons.Sound

namespace Rule

variable {source : Source} {stop position : Int} {memory : Option Horizons}

/-- The quoted string rule claims under a sound memory what it claims without one, and the memory it
leaves is sound for the positions behind this one. -/
private theorem quotedAt_of_sound (marks : List Char)
    (hsound : ∀ horizons ∈ memory, horizons.Sound source stop position)
    (hposition : 0 ≤ position) (hlt : position < stop) (hstop : stop ≤ source.length) :
    ∃ claim after, source.reader.quotedAt marks none position stop = .ok ⟨claim, none⟩ ∧
      source.reader.quotedAt marks memory position stop = .ok ⟨claim, after⟩ ∧
      ∀ horizons ∈ after, horizons.Sound source stop (position + 1) := by
  have hkept : ∀ horizons ∈ memory, horizons.Sound source stop (position + 1) := by
    intro horizons hmem
    exact (hsound horizons hmem).mono (by omega)
  obtain ⟨mark, hread, -⟩ := source.exists_read_slice hposition hlt hstop
  by_cases hmark : mark ∈ marks
  · obtain ⟨closing, hsearch⟩ :=
      QuotedSearch.exists_search source mark (position + 1) (by omega) hstop
    have hplain := Reader.quotedAt_of_search none hread hmark rfl hsearch
    cases hblocked : (memory.map (·.blocks mark position)).getD false with
    | false =>
        have hanswer := Reader.quotedAt_of_search memory hread hmark hblocked hsearch
        cases closing with
        | found last => exact ⟨_, memory, hplain, hanswer, hkept⟩
        | missing horizon =>
            refine ⟨none, _, hplain, hanswer, ?_⟩
            intro horizons hmem
            obtain ⟨earlier, hearlier, rfl⟩ := Option.map_eq_some_iff.1 hmem
            exact (hsound earlier hearlier).note hposition hstop hsearch
    | true =>
        -- The search that the memory saves would have failed.
        cases memory with
        | none => contradiction
        | some horizons =>
            obtain ⟨later, hmissing⟩ :=
              (hsound horizons rfl).missing_of_blocks hposition hread hblocked
            obtain rfl := hsearch.unique hmissing
            exact ⟨none, some horizons, hplain,
              Reader.quotedAt_of_blocked hread hmark hblocked, hkept⟩
  · exact ⟨none, memory, Reader.quotedAt_of_not_mem hread hmark,
      Reader.quotedAt_of_not_mem hread hmark, hkept⟩

/-- A rule with a sound memory fails where it fails without one, and otherwise claims the same and
leaves a sound memory. -/
theorem attempt_of_sound (rule : Rule)
    (hsound : ∀ horizons ∈ memory, horizons.Sound source stop position)
    (hposition : 0 ≤ position) (hlt : position < stop) (hstop : stop ≤ source.length) :
    (∃ e, rule.answer source.reader position stop = .error e ∧
      rule.attempt source.reader memory position stop = .error e) ∨
    ∃ claim after, rule.answer source.reader position stop = .ok claim ∧
      rule.attempt source.reader memory position stop = .ok ⟨claim, after⟩ ∧
      ∀ horizons ∈ after, horizons.Sound source stop (position + 1) := by
  cases htracks : rule.tracksFailures with
  | false =>
      rw [attempt_of_not_tracksFailures source.reader memory position stop htracks]
      cases rule.answer source.reader position stop with
      | error e => exact .inl ⟨e, rfl, rfl⟩
      | ok claim =>
          refine .inr ⟨claim, memory, rfl, rfl, ?_⟩
          intro horizons hmem
          exact (hsound horizons hmem).mono (by omega)
  | true =>
      cases rule with
      | quoted marks =>
          obtain ⟨claim, after, hplain, hanswer, hafter⟩ :=
            quotedAt_of_sound marks hsound hposition hlt hstop
          refine .inr ⟨claim, after, ?_, hanswer, hafter⟩
          show (source.reader.quotedAt marks none position stop).map _ = _
          rw [hplain]
          rfl
      | word => contradiction
      | numeral => contradiction
      | custom => contradiction

end Rule

/-! ## Sound chains -/

namespace Chain

/-- The rules of a chain. -/
def rules (chain : Chain) : List Rule := chain.map Slot.rule

/-- Every memory of the chain is sound. -/
def Sound (source : Source) (stop position : Int) (chain : Chain) : Prop :=
  ∀ slot ∈ chain, ∀ horizons ∈ slot.memory, horizons.Sound source stop position

variable {source : Source} {stop position : Int} {chain : Chain}

@[simp] theorem rules_fresh (rules : List Rule) : (fresh rules).rules = rules := by
  rw [Chain.rules, fresh, List.map_map]
  exact List.map_id rules

theorem sound_fresh (rules : List Rule) : (fresh rules).Sound source stop position := by
  intro slot hslot horizons hhorizons
  obtain ⟨rule, -, rfl⟩ := List.mem_map.1 hslot
  change horizons ∈ (if rule.tracksFailures = true then some [] else none) at hhorizons
  split at hhorizons
  · obtain rfl := Option.mem_some.1 hhorizons
    exact .nil
  · contradiction

theorem Sound.mono {later : Int} (h : chain.Sound source stop position) (hle : position ≤ later) :
    chain.Sound source stop later := by
  intro slot hslot horizons hhorizons
  exact (h slot hslot horizons hhorizons).mono hle

/-- At one position a sound chain claims what its rules claim without memories, and stays sound. -/
theorem firstClaim_of_sound (hsound : chain.Sound source stop position)
    (hposition : 0 ≤ position) (hlt : position < stop) (hstop : stop ≤ source.length) :
    (∃ e, firstAnswer source.reader position stop chain.rules = .error e ∧
      chain.firstClaim source.reader position stop = .error e) ∨
    ∃ claim after, firstAnswer source.reader position stop chain.rules = .ok claim ∧
      chain.firstClaim source.reader position stop = .ok (claim, after) ∧
      after.rules = chain.rules ∧ after.Sound source stop (position + 1) := by
  induction chain with
  | nil => exact .inr ⟨none, [], rfl, rfl, rfl, nofun⟩
  | cons slot rest ih =>
      have hrest : Chain.Sound source stop position rest :=
        fun other hother => hsound other (List.mem_cons_of_mem slot hother)
      show (∃ e, firstAnswer source.reader position stop (slot.rule :: Chain.rules rest) = _ ∧ _) ∨
        ∃ claim after,
          firstAnswer source.reader position stop (slot.rule :: Chain.rules rest) = _ ∧ _
      -- The slot that was asked is sound; the others are either not asked or sound by induction.
      have hcons : ∀ {memory : Option Horizons} {others : Chain},
          (∀ horizons ∈ memory, horizons.Sound source stop (position + 1)) →
          others.rules = Chain.rules rest → others.Sound source stop (position + 1) →
          Chain.rules (⟨slot.rule, memory⟩ :: others) = Chain.rules (slot :: rest) ∧
            Chain.Sound source stop (position + 1) (⟨slot.rule, memory⟩ :: others) := by
        intro memory others hmemory hrules hothers
        refine ⟨congrArg (slot.rule :: ·) hrules, ?_⟩
        intro other hother
        rcases List.mem_cons.1 hother with rfl | hother
        · exact hmemory
        · exact hothers other hother
      rcases slot.rule.attempt_of_sound (hsound slot List.mem_cons_self) hposition hlt hstop with
        ⟨e, hanswer, hattempt⟩ | ⟨claim, memory, hanswer, hattempt, hmemory⟩
      · rw [firstAnswer_of_error hanswer, firstClaim_of_error hattempt]
        exact .inl ⟨e, rfl, rfl⟩
      · cases claim with
        | some claim =>
            rw [firstAnswer_of_some hanswer, firstClaim_of_some hattempt]
            exact .inr ⟨some claim, _, rfl, rfl, hcons hmemory rfl (hrest.mono (by omega))⟩
        | none =>
            rw [firstAnswer_of_none hanswer, firstClaim_of_none hattempt]
            rcases ih hrest with
              ⟨e, hlater, hclaim⟩ | ⟨claim, others, hlater, hclaim, hrules, hothers⟩
            · rw [hclaim]
              exact .inl ⟨e, hlater, rfl⟩
            · rw [hclaim]
              exact .inr ⟨claim, _, hlater, rfl, hcons hmemory hrules hothers⟩

/-- A run of a sound chain is the run of its rules without memories. -/
theorem tokens_of_sound (position : Int) (chain : Chain)
    (hsound : chain.Sound source stop position)
    (hposition : 0 ≤ position) (hstop : stop ≤ source.length) :
    chain.tokens source.reader position stop =
      (forgetful chain.rules).tokens source.reader position stop := by
  -- Both runs make the same claim here, and the chain that is left is sound from the next position.
  by_cases hlt : position < stop
  · rcases firstClaim_of_sound hsound hposition hlt hstop with
      ⟨e, hanswer, hclaim⟩ | ⟨claim, after, hanswer, hclaim, hrules, hafter⟩
    · rw [tokens_of_error hlt hclaim, tokens_forgetful_of_error _ hlt hanswer]
    · have hnext := lt_next_judge position stop claim
      have hrun := tokens_of_sound ((judge position stop claim).next position) after
        (hafter.mono (by omega)) (by omega) hstop
      rw [tokens_of_claim hlt hclaim, tokens_forgetful_of_claim _ hlt hanswer, hrun, hrules]
  · rw [tokens_of_le (by omega), tokens_of_le (by omega)]
termination_by (stop - position).toNat

end Chain

namespace Source

theorem startWithin_nonneg (source : Source) (start : Int) (stop : Option Int) :
    0 ≤ source.startWithin start stop :=
  Int.le_max_left 0 _

/-- A whole source starts at its front. -/
theorem startWithin_zero (source : Source) : source.startWithin 0 none = 0 := by
  have hlength := source.length_nonneg
  show max 0 (min 0 source.length) = 0
  omega

theorem stopWithin_le (source : Source) (stop : Option Int) :
    source.stopWithin stop ≤ source.length := by
  cases stop with
  | none => exact Int.le_refl _
  | some stop => exact Int.min_le_right stop source.length

end Source

namespace Chain

/-- The tokens of any stretch, through rules without memories. -/
theorem tokens_fresh (source : Source) (rules : List Rule) (start : Int) (stop : Option Int) :
    (fresh rules).tokens source.reader (source.startWithin start stop) (source.stopWithin stop) =
      (forgetful rules).tokens source.reader (source.startWithin start stop)
        (source.stopWithin stop) := by
  rw [tokens_of_sound _ _ (sound_fresh rules) (source.startWithin_nonneg start stop)
    (source.stopWithin_le stop), rules_fresh]

end Chain

/-- Remembering failed searches changes neither the spans of a stretch, nor the claims that are
refused on the way, nor whether and how a rule fails. -/
theorem Grammar.classifyRange_eq_forgetful (grammar : Grammar) (source : Source) (start : Int)
    (stop : Option Int) :
    grammar.classifyRange source start stop =
      (Chain.forgetful grammar.allRules).classify source.reader start stop := by
  exact congrArg (Scanned.map _) (Chain.tokens_fresh source grammar.allRules start stop)

end CodeHighlight
