import CodeHighlight.Proofs.Session.Step

/-!
# Settings in force

A program works on a session: it takes actions, fails, opens blocks under other settings and catches
failures, in any nesting and order (`Program`).  While it runs, what is asked of the settings and
what is shown of them is noted down: a set with the settings that it names, whatever becomes of it,
and a read with its answer.  Such a history tells by itself which settings should be active at any
time: those that were chosen last, by a set, by a reset or by the entry of a block, where all that
happened in blocks that have been left meanwhile does not count (`inForce`).

A computation keeps to its history (`Traced.Keeps`) if it leaves every block that it enters and if
from settings that are in force it comes to settings that are in force, noting nothing else on the
way.  Everything that a program is put together from does so.
-/

namespace CodeHighlight.Session

/-! ## Histories -/

/-- What is asked of the settings and what is shown of them. -/
inductive Event where
  /-- A set asks for the given settings. -/
  | chosen (settings : Settings)
  /-- A reset asks for the default settings. -/
  | reset
  /-- A read has been answered, or has failed. -/
  | read (answer : Except Error Reply)
  /-- A block is entered under the given settings while others are active. -/
  | entered (active settings : Settings)
  /-- A block has been left and the given settings are active. -/
  | left (active : Settings)

/-- All that has happened, the latest event first. -/
abbrev History := List Event

namespace History

/-- The settings in force outside some blocks that have been left, where the history ends inside of
them.  At the start some settings are active. -/
def inForceOutside (first : Settings) : Nat → History → Settings
  | _, [] => first
  | depth, .read _ :: past => inForceOutside first depth past
  | depth, .left _ :: past => inForceOutside first (depth + 1) past
  | 0, .chosen settings :: _ => settings
  | 0, .reset :: _ => .default
  | 0, .entered _ settings :: _ => settings
  | depth + 1, .chosen _ :: past => inForceOutside first (depth + 1) past
  | depth + 1, .reset :: past => inForceOutside first (depth + 1) past
  | depth + 1, .entered _ _ :: past => inForceOutside first depth past

/-- The settings in force at the end of a history: those of the latest set, reset or entry of a
block, apart from what happened in blocks that have been left. -/
def inForce (first : Settings) (history : History) : Settings := history.inForceOutside first 0

/-- Every block that is entered is left, and none is left that was not entered. -/
inductive Balanced : History → Prop
  | nil : Balanced []
  | chosen (settings : Settings) {past : History} (hpast : Balanced past) :
      Balanced (.chosen settings :: past)
  | reset {past : History} (hpast : Balanced past) : Balanced (.reset :: past)
  | read (answer : Except Error Reply) {past : History} (hpast : Balanced past) :
      Balanced (.read answer :: past)
  | block (before settings after : Settings) {body past : History} (hbody : Balanced body)
      (hpast : Balanced past) : Balanced (.left after :: (body ++ .entered before settings :: past))

theorem Balanced.append {later past : History} (h : Balanced later) (hpast : Balanced past) :
    Balanced (later ++ past) := by
  induction h with
  | nil => exact hpast
  | chosen settings _ ih => exact .chosen settings ih
  | reset _ ih => exact .reset ih
  | read answer _ ih => exact .read answer ih
  | block before settings after hbody _ _ ih =>
      rw [List.cons_append, List.append_assoc]
      exact .block before settings after hbody ih

/-- What happens in a block is of no account outside of it. -/
theorem Balanced.inForceOutside_append {body : History} (h : Balanced body) (first : Settings)
    (depth : Nat) (earlier : History) :
    inForceOutside first (depth + 1) (body ++ earlier) =
      inForceOutside first (depth + 1) earlier := by
  induction h generalizing depth earlier with
  | nil => rfl
  | chosen _ _ ih => exact ih depth earlier
  | reset _ ih => exact ih depth earlier
  | read _ _ ih => exact ih depth earlier
  | block before settings after _ _ ihBody ihPast =>
      rw [List.cons_append, List.append_assoc]
      show inForceOutside first (depth + 1 + 1) (_ ++ _) = _
      rw [ihBody]
      exact ihPast depth earlier

/-- An event behind this history shows the settings in force.  A read does so only if it is
answered with them. -/
def Shows (first : Settings) (past : History) : Event → Prop
  | .read answer => answer = .ok (.settings (past.inForce first))
  | .entered active _ => active = past.inForce first
  | .left active => active = past.inForceOutside first 1
  | _ => True

/-- Every event shows the settings in force. -/
def Truthful (first : Settings) : History → Prop
  | [] => True
  | event :: past => Shows first past event ∧ Truthful first past

theorem Truthful.of_append {first : Settings} {later past : History}
    (h : Truthful first (later ++ past)) : Truthful first past := by
  induction later with
  | nil => exact h
  | cons _ _ ih => exact ih h.2

theorem Truthful.read_eq {first : Settings} {answer : Except Error Reply} {later past : History}
    (h : Truthful first (later ++ .read answer :: past)) :
    answer = .ok (.settings (past.inForce first)) :=
  h.of_append.1

/-- A block shows the same settings before it is entered and after it has been left. -/
theorem Truthful.block_eq {first before settings after : Settings} {later body past : History}
    (h : Truthful first (later ++ .left after :: (body ++ .entered before settings :: past)))
    (hbody : Balanced body) : before = past.inForce first ∧ after = before := by
  have hleft := h.of_append
  have hbefore : before = past.inForce first := hleft.2.of_append.1
  have hafter : after = past.inForce first :=
    hleft.1.trans (hbody.inForceOutside_append first 0 _)
  exact ⟨hbefore, hafter.trans hbefore.symm⟩

end History

/-! ## Computations that note down what happens -/

/-- Steps of a session with a history. -/
abbrev Traced := ExceptT Error (StateT History (StateM State))

/-- What a computation comes to, with the history and the state that it leaves behind. -/
structure Outcome (α : Type) where
  result : Except Error α
  history : History
  state : State

/-- What an action asks of the settings when it is taken in a state.  A set whose settings are not to
be had asks for nothing. -/
def Action.asked (state : State) : Action → List Event
  | setSettings reference =>
      match reference.meant state with
      | .ok settings => [.chosen settings]
      | .error _ => []
  | resetSettings => [.reset]
  | _ => []

/-- What the answer to an action shows of the settings. -/
def Action.shown (answer : Except Error Reply) : Action → List Event
  | showSettings => [.read answer]
  | _ => []

namespace Traced

variable {α β : Type}

/-- A step of which nothing is noted. -/
def ofStep (step : Step α) : Traced α :=
  ExceptT.mk (liftM step.run)

/-- The outcome of a step, which does not fail even if the step does. -/
def outcome (step : Step α) : Traced (Except Error α) :=
  ExceptT.mk (liftM (Except.ok <$> step.run))

/-- Notes down events, the latest one first. -/
def note (events : List Event) : Traced Unit := modifyThe History (events ++ ·)

/-- Runs a computation in a block under other settings. -/
def within (settings : Settings) (body : Traced α) : Traced α := do
  note [.entered (← getThe Settings) settings]
  try
    Settings.within settings body
  finally
    -- Noted in any case, with the settings that are active by now, whatever these are.
    note [.left (← getThe Settings)]

/-- Runs a computation and gives out its failure if it fails. -/
def failure? (body : Traced α) : Traced (Option Error) := do
  try
    let _ ← body
    return none
  catch e =>
    return some e

/-- Takes an action.  What it asks of the settings is noted before it is taken, and what it shows
of them behind it, whether it fails or not. -/
def ofAction (action : Action) : Traced Reply := do
  note (action.asked (← getThe State))
  let answer ← outcome action.run
  note (action.shown answer)
  ExceptT.mk (pure answer)

/-- What a computation comes to from a history and a state. -/
def on (computation : Traced α) (history : History) (state : State) : Outcome α :=
  let ((result, history), state) := (computation.run.run history).run state
  ⟨result, history, state⟩

theorem on_bind (computation : Traced α) (next : α → Traced β) (history : History)
    (state : State) :
    (computation >>= next).on history state =
      match computation.on history state with
      | ⟨.ok a, history', state'⟩ => (next a).on history' state'
      | ⟨.error e, history', state'⟩ => ⟨.error e, history', state'⟩ := by
  change (match (computation.run.run history).run state with
    | ((outcome, history'), state') =>
      on (ExceptT.mk (ExceptT.bindCont next outcome)) history' state') = _
  unfold on
  generalize (computation.run.run history).run state = result
  obtain ⟨⟨a | e, history'⟩, state'⟩ := result
  · rfl
  · rfl

theorem on_tryCatch (body : Traced α) (handler : Error → Traced α) (history : History)
    (state : State) :
    (tryCatch body handler).on history state =
      match body.on history state with
      | ⟨.ok a, history', state'⟩ => ⟨.ok a, history', state'⟩
      | ⟨.error e, history', state'⟩ => (handler e).on history' state' := by
  simp only [on, tryCatch, tryCatchThe, MonadExceptOf.tryCatch, ExceptT.tryCatch, ExceptT.run,
    ExceptT.mk, StateT.run, bind, StateT.bind]
  generalize body history state = inner
  obtain ⟨⟨a | e, history'⟩, state'⟩ := inner
  · rfl
  · rfl

/-- What is done in the end is done in any case, and it may itself fail. -/
theorem on_tryFinally (body : Traced α) (last : Traced β) (history : History) (state : State) :
    (tryFinally body last).on history state =
      match body.on history state with
      | ⟨result, history', state'⟩ =>
        match last.on history' state' with
        | ⟨.ok _, history'', state''⟩ => ⟨result, history'', state''⟩
        | ⟨.error e, history'', state''⟩ => ⟨.error e, history'', state''⟩ := by
  simp only [on, tryFinally, tryFinally', ExceptT.run, ExceptT.mk, StateT.run, Functor.map,
    ExceptT.map, bind, StateT.bind]
  generalize body history state = inner
  obtain ⟨⟨a | e, history'⟩, state'⟩ := inner
  · dsimp only
    generalize last history' state' = outer
    obtain ⟨⟨b | e', history''⟩, state''⟩ := outer
    · rfl
    · rfl
  · dsimp only
    generalize last history' state' = outer
    obtain ⟨⟨b | e', history''⟩, state''⟩ := outer
    · rfl
    · rfl

theorem on_ofStep (step : Step α) (history : History) (state : State) :
    (ofStep step).on history state = ⟨(step.on state).1, history, (step.on state).2⟩ := rfl

theorem on_ofAction (action : Action) (history : History) (state : State) :
    (ofAction action).on history state =
      ⟨(action.run.on state).1,
        action.shown (action.run.on state).1 ++ (action.asked state ++ history),
        (action.run.on state).2⟩ := rfl

theorem on_note (events : List Event) (history : History) (state : State) :
    (note events).on history state = ⟨.ok (), events ++ history, state⟩ := rfl

theorem on_active (history : History) (state : State) :
    (getThe Settings : Traced Settings).on history state = ⟨.ok state.settings, history, state⟩ :=
  rfl

theorem on_set (settings : Settings) (history : History) (state : State) :
    (set settings : Traced PUnit).on history state =
      ⟨.ok (), history, { state with settings := settings }⟩ :=
  rfl

/-- However the block ends, it is left with the settings that were active when it was entered. -/
theorem on_within (settings : Settings) (body : Traced α) (history : History) (state : State) :
    (within settings body).on history state =
      match body.on (.entered state.settings settings :: history)
        { state with settings := settings } with
      | ⟨result, history', state'⟩ =>
        ⟨result, .left state.settings :: history',
          { state' with settings := state.settings }⟩ := by
  simp only [within, Settings.within, on_bind, on_tryFinally, on_active, on_set, on_note]
  rfl

theorem on_failure? (body : Traced α) (history : History) (state : State) :
    (failure? body).on history state =
      match body.on history state with
      | ⟨.ok _, history', state'⟩ => ⟨.ok none, history', state'⟩
      | ⟨.error e, history', state'⟩ => ⟨.ok (some e), history', state'⟩ := by
  simp only [failure?, on_tryCatch, on_bind]
  generalize body.on history state = inner
  obtain ⟨a | e, history', state'⟩ := inner
  · rfl
  · rfl

end Traced

/-! ## Steps that leave the settings as they are -/

/-- The step leaves the active settings as they are, whether it fails or not. -/
def Step.KeepsSettings {α : Type} (step : Step α) : Prop :=
  ∀ state, (step.on state).2.settings = state.settings

namespace Step.KeepsSettings

variable {α β : Type}

theorem pure (a : α) : (Pure.pure a : Step α).KeepsSettings := fun _ => rfl

theorem throw (e : Error) : (MonadExcept.throw e : Step α).KeepsSettings := fun _ => rfl

theorem get : (MonadState.get : Step State).KeepsSettings := fun _ => rfl

theorem ofExcept (outcome : Except Error α) : (Step.ofExcept outcome).KeepsSettings := fun _ => rfl

theorem logged (computation : Logged α) : (Step.logged computation).KeepsSettings := fun _ => rfl

theorem modify {f : State → State} (h : ∀ state, (f state).settings = state.settings) :
    (modify f : Step Unit).KeepsSettings := h

theorem bind {step : Step α} {next : α → Step β} (h : step.KeepsSettings)
    (hnext : ∀ a, (next a).KeepsSettings) : (step >>= next).KeepsSettings := by
  intro state
  have hstep := h state
  rw [on_bind]
  generalize step.on state = result at hstep
  obtain ⟨a | e, state'⟩ := result
  · exact hstep
  · exact (hnext _ state').trans hstep

theorem find (table : State → Table Id α) (id : Id) : (Step.find table id).KeepsSettings := by
  refine get.bind ?_
  intro state
  cases (table state).find? id with
  | some object => exact pure object
  | none => exact throw _

theorem registry (id : Option Id) : KeepsSettings <| Step.findRegistry? id := by
  cases id with
  | none => exact pure none
  | some id => exact (find State.registries id).bind fun registry => pure (some registry)

theorem delivered (id : Id) (delivery : Delivery α) :
    (Step.delivered id delivery).KeepsSettings :=
  (modify fun _ => rfl).bind fun _ => ofExcept delivery.result

theorem mapM {f : α → Step β} (h : ∀ a, (f a).KeepsSettings) (items : List α) :
    (items.mapM f).KeepsSettings := by
  induction items with
  | nil => exact pure []
  | cons a rest ih =>
      rw [List.mapM_cons]
      exact (h a).bind fun b => ih.bind fun bs => pure (b :: bs)

theorem candidate (reference : GrammarRef) : reference.candidate.KeepsSettings := by
  intro state
  rw [reference.on_candidate]

theorem grammar (reference : GrammarRef) : reference.grammar.KeepsSettings := by
  refine (candidate reference).bind ?_
  rintro ((grammar | name) | kind)
  · exact pure grammar
  · exact throw _
  · dsimp only
    split
    · exact pure _
    · exact throw _

theorem settings (reference : SettingsRef) : reference.settings.KeepsSettings := by
  intro state
  rw [reference.on_settings]

theorem highlighter (reference : HighlighterRef) : reference.highlighter.KeepsSettings := by
  cases reference with
  | standard => exact pure _
  | builtin id => exact (registry id).bind fun _ => pure _
  | own highlighter => exact pure highlighter

end Step.KeepsSettings

/-- Only a set and a reset have an effect on the active settings. -/
theorem Action.keepsSettings (action : Action)
    (hset : ∀ reference, action ≠ .setSettings reference) (hreset : action ≠ .resetSettings) :
    action.run.KeepsSettings := by
  cases action with
  | makeGrammar id spec =>
      exact .bind (.ofExcept _) fun _ => .bind (.modify fun _ => rfl) fun _ => .pure _
  | makeBuilder id defaults => exact .bind (.modify fun _ => rfl) fun _ => .pure _
  | register id reference =>
      exact .bind (.candidate reference) fun _ => .bind (.find _ _) fun _ =>
        .bind (.ofExcept _) fun _ => .bind (.modify fun _ => rfl) fun _ => .pure _
  | registerAll id references =>
      refine .bind (.mapM .candidate references) fun candidates => .bind (.find _ _) fun builder => ?_
      refine .bind (.modify fun _ => rfl) fun _ => ?_
      cases (builder.registerAll candidates).2 with
      | some e => exact .throw e
      | none => exact .pure _
  | builderSize id => exact .bind (.find _ _) fun _ => .pure _
  | build id registryId =>
      exact .bind (.find _ _) fun _ => .bind (.logged _) fun _ =>
        .bind (.modify fun _ => rfl) fun _ => .pure _
  | defaultRegistry id => exact .bind (.modify fun _ => rfl) fun _ => .pure _
  | showRegistry id => exact .bind (.find _ _) fun _ => .pure _
  | lookUp id name => exact .bind (.find _ _) fun _ => .pure _
  | setSettings reference => exact absurd rfl (hset reference)
  | resetSettings => exact absurd rfl hreset
  | showSettings => exact .bind .get fun _ => .pure _
  | setHighlighter reference =>
      exact .bind (.highlighter reference) fun _ => .bind (.modify fun _ => rfl) fun _ => .pure _
  | showHighlighter => exact .bind .get fun _ => .pure _
  | highlight request => exact .bind .get fun _ => .bind (.logged _) fun _ => .pure _
  | supports language => exact .bind .get fun _ => .pure _
  | resolve registry language =>
      exact .bind (.registry registry) fun _ => .bind .get fun _ => .pure _
  | tokenizeRange registry source start stop language =>
      exact .bind (.registry registry) fun _ => .bind .get fun _ =>
        .bind (.logged _) fun _ => .pure _
  | render source reference options =>
      exact .bind (.grammar reference) fun _ => .bind .get fun _ => .bind (.logged _) fun _ =>
        .bind (.ofExcept _) fun _ => .pure _
  | makeStyle id options =>
      exact .bind .get fun _ => .bind (.modify fun _ => rfl) fun _ => .pure _
  | renderWith id source =>
      exact .bind (.find _ _) fun _ => .bind (.logged _) fun _ => .bind (.ofExcept _) fun _ =>
        .pure _
  | makeCursor id source reference =>
      exact .bind (.grammar reference) fun _ => .bind (.modify fun _ => rfl) fun _ => .pure _
  | next id count => exact .bind (.find _ _) fun _ => .bind (.delivered _ _) fun _ => .pure _
  | rest id => exact .bind (.find _ _) fun _ => .bind (.delivered _ _) fun _ => .pure _
  | takeLog => exact .bind .get fun _ => .bind (.modify fun _ => rfl) fun _ => .pure _

/-- Blocks and threads of commands leave the active settings as they are, whatever is done in
them. -/
theorem Command.settings_run {command : Command} (h : ∀ action, command ≠ .act action)
    (state : State) : (command.run state).2.settings = state.settings := by
  cases command with
  | act action => exact absurd rfl (h action)
  | within reference body failure =>
      rw [run_within]
      cases reference.meant state with
      | error e => rfl
      | ok settings => rfl
  | thread body =>
      rw [run_thread]
      rfl

/-! ## Programs -/

/-- What can be done with a session.  What comes next may depend on the answers so far. -/
inductive Program where
  | done
  | fail (error : Error)
  | act (action : Action) (next : Reply → Program)
  /-- Runs a block under other settings.  A failure in it is passed on behind it. -/
  | within (settings : SettingsRef) (body next : Program)
  /-- Runs a part and goes on behind it with its failure, if it fails. -/
  | attempt (body : Program) (next : Option Error → Program)

/-- Runs a program up to its end or to the first failure that is not caught. -/
def Program.run : Program → Traced Unit
  | done => return
  | fail error => throw error
  | act action next => do
      let reply ← Traced.ofAction action
      (next reply).run
  | within reference body next => do
      let settings ← Traced.ofStep reference.settings
      Traced.within settings body.run
      next.run
  | attempt body next => do
      let failure ← Traced.failure? body.run
      (next failure).run

/-! ## What a program keeps to -/

/-- Every event shows the settings in force, and those at the end are active. -/
structure History.LeadsTo (first : Settings) (history : History) (active : Settings) : Prop where
  truthful : history.Truthful first
  active_eq : active = history.inForce first

/-- From settings in force the computation comes to settings in force, showing nothing else on the
way, and every block that it enters it also leaves. -/
def Traced.Keeps {α : Type} (computation : Traced α) : Prop :=
  ∀ (first : Settings) (history : History) (state : State), history.LeadsTo first state.settings →
    (∃ body, History.Balanced body ∧
      (computation.on history state).history = body ++ history) ∧
    (computation.on history state).history.LeadsTo first
      (computation.on history state).state.settings

namespace Traced.Keeps

variable {α β : Type}

theorem pure (a : α) : (Pure.pure a : Traced α).Keeps :=
  fun _ _ _ h => ⟨⟨[], .nil, rfl⟩, h⟩

theorem throw (e : Error) : (MonadExcept.throw e : Traced α).Keeps :=
  fun _ _ _ h => ⟨⟨[], .nil, rfl⟩, h⟩

theorem ofStep {step : Step α} (hstep : step.KeepsSettings) : (Traced.ofStep step).Keeps := by
  intro first history state h
  rw [on_ofStep]
  refine ⟨⟨[], .nil, rfl⟩, h.truthful, ?_⟩
  exact (hstep state).trans h.active_eq

theorem bind {computation : Traced α} {next : α → Traced β} (h : computation.Keeps)
    (hnext : ∀ a, (next a).Keeps) : (computation >>= next).Keeps := by
  intro first history state hlead
  obtain ⟨⟨body, hbody, hhistory⟩, hinner⟩ := h first history state hlead
  rw [on_bind]
  generalize computation.on history state = inner at hhistory hinner
  obtain ⟨a | e, history', state'⟩ := inner
  · exact ⟨⟨body, hbody, hhistory⟩, hinner⟩
  · obtain ⟨⟨later, hlater, hhistory'⟩, houter⟩ := hnext _ first history' state' hinner
    refine ⟨⟨later ++ body, hlater.append hbody, ?_⟩, houter⟩
    rw [List.append_assoc, ← hhistory]
    exact hhistory'

theorem failure? {body : Traced α} (h : body.Keeps) : (Traced.failure? body).Keeps := by
  intro first history state hlead
  have hbody := h first history state hlead
  rw [on_failure?]
  generalize body.on history state = inner at hbody
  obtain ⟨a | e, history', state'⟩ := inner
  · exact hbody
  · exact hbody

/-- However a block ends, what was in force in front of it is in force again. -/
theorem within (settings : Settings) {body : Traced α} (h : body.Keeps) :
    (Traced.within settings body).Keeps := by
  intro first history state hlead
  have hentered : History.LeadsTo first (.entered state.settings settings :: history) settings :=
    ⟨⟨hlead.active_eq, hlead.truthful⟩, rfl⟩
  obtain ⟨⟨inside, hinside, hhistory⟩, hinner⟩ :=
    h first _ { state with settings := settings } hentered
  rw [on_within]
  generalize body.on (.entered state.settings settings :: history)
    { state with settings := settings } = inner at hhistory hinner
  obtain ⟨result, history', state'⟩ := inner
  change history' = inside ++ .entered state.settings settings :: history at hhistory
  -- The body is balanced, so seen from outside the history ends where the block was entered.
  have houtside : state.settings = history'.inForceOutside first 1 := by
    rw [hhistory, hinside.inForceOutside_append]
    exact hlead.active_eq
  refine ⟨⟨.left state.settings :: (inside ++ [.entered state.settings settings]),
    .block _ _ _ hinside .nil, ?_⟩, ⟨houtside, hinner.truthful⟩, houtside⟩
  show .left state.settings :: history' = _
  rw [hhistory]
  simp

/-- What is noted of an action says what it did. -/
theorem ofAction (action : Action) : (Traced.ofAction action).Keeps := by
  intro first history state hlead
  rw [on_ofAction]
  by_cases hset : ∃ reference, action = .setSettings reference
  · obtain ⟨reference, rfl⟩ := hset
    rw [Action.on_setSettings, Action.asked]
    cases reference.meant state with
    | ok settings =>
        exact ⟨⟨[.chosen settings], .chosen settings .nil, rfl⟩, ⟨trivial, hlead.truthful⟩, rfl⟩
    | error e => exact ⟨⟨[], .nil, rfl⟩, hlead⟩
  by_cases hreset : action = .resetSettings
  · subst hreset
    exact ⟨⟨[.reset], .reset .nil, rfl⟩, ⟨trivial, hlead.truthful⟩, rfl⟩
  by_cases hread : action = .showSettings
  · subst hread
    have hanswer : (Except.ok (.settings state.settings) : Except Error Reply) =
        .ok (.settings (history.inForce first)) := by
      rw [hlead.active_eq]
    exact ⟨⟨[.read _], .read _ .nil, rfl⟩, ⟨hanswer, hlead.truthful⟩, hlead.active_eq⟩
  -- Any other action leaves the settings as they are, and nothing is noted of it.
  have hasked : action.asked state = [] := by
    unfold Action.asked
    split
    · exact absurd ⟨_, rfl⟩ hset
    · exact absurd rfl hreset
    · rfl
  have hshown : action.shown (action.run.on state).1 = [] := by
    unfold Action.shown
    split
    · exact absurd rfl hread
    · rfl
  have hkeeps := action.keepsSettings (fun reference h => hset ⟨reference, h⟩) hreset state
  rw [hasked, hshown]
  exact ⟨⟨[], .nil, rfl⟩, hlead.truthful, hkeeps.trans hlead.active_eq⟩

end Traced.Keeps

theorem Program.keeps (program : Program) : program.run.Keeps := by
  induction program with
  | done => exact .pure ()
  | fail error => exact .throw error
  | act action next ih => exact .bind (.ofAction action) ih
  | within reference body next ihBody ihNext =>
      exact .bind (.ofStep (.settings reference)) fun settings =>
        .bind (.within settings ihBody) fun _ => ihNext
  | attempt body next ihBody ihNext => exact .bind (.failure? ihBody) ihNext

/-- In every run of a program each read is answered, and with the settings in force; a block that
has been left has the same settings active as before it was entered, however it ended; and at the
end those settings are active that are in force by then. -/
theorem Program.settings_in_force (program : Program) (state : State) :
    let outcome := program.run.on [] state
    outcome.history.Balanced ∧
      (∀ (later : History) (answer : Except Error Reply) (past : History),
        outcome.history = later ++ .read answer :: past →
          answer = .ok (.settings (past.inForce state.settings))) ∧
      (∀ (later : History) (before settings after : Settings) (body past : History),
        outcome.history = later ++ .left after :: (body ++ .entered before settings :: past) →
          body.Balanced → before = past.inForce state.settings ∧ after = before) ∧
      outcome.state.settings = outcome.history.inForce state.settings := by
  intro outcome
  obtain ⟨⟨events, hevents, hhistory⟩, hlead⟩ :=
    program.keeps state.settings [] state ⟨trivial, rfl⟩
  have hbalanced : outcome.history.Balanced := by
    rw [show outcome.history = events ++ [] from hhistory, List.append_nil]
    exact hevents
  have htruthful : outcome.history.Truthful state.settings := hlead.truthful
  refine ⟨hbalanced, ?_, ?_, hlead.active_eq⟩
  · intro later answer past hsplit
    rw [hsplit] at htruthful
    exact htruthful.read_eq
  · intro later before settings after body past hsplit hbody
    rw [hsplit] at htruthful
    exact htruthful.block_eq hbody

/-- Settings are set and read in a block, and a failure leaves two blocks at once. -/
example :
    let meant (classPrefix : Text) : SettingsRef := ⟨classPrefix, true, none, none⟩
    let settings (classPrefix : Text) : Settings := ⟨classPrefix, true, none, none⟩
    let program : Program :=
      .attempt (.within (meant ['a'])
        (.act (.setSettings (meant ['b'])) fun _ =>
          .act .showSettings fun _ => .within (meant ['c']) (.fail .languageMissing) .done) .done)
        fun _ => .act .showSettings fun _ => .done
    (program.run.on [] .initial).history =
      [.read (.ok (.settings .default)), .left .default, .left (settings ['b']),
        .entered (settings ['b']) (settings ['c']), .read (.ok (.settings (settings ['b']))),
        .chosen (settings ['b']), .entered .default (settings ['a'])] :=
  rfl

end CodeHighlight.Session
