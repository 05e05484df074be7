import CodeHighlight.Session.Run

/-!
# Steps of a session

A step is taken from a state: it answers or fails, and leaves a state behind (`Step.on`).  The
lemmas of this file say what the parts of a step do, so that an action is read by rewriting with
them.
-/

namespace CodeHighlight.Session

section Outcomes

variable {α β : Type}

theorem mapM_cons_eq_ok_iff {g : α → Except Error β} {a : α} {rest : List α} {results : List β} :
    (a :: rest).mapM g = .ok results ↔
      ∃ b bs, g a = .ok b ∧ rest.mapM g = .ok bs ∧ results = b :: bs := by
  rw [List.mapM_cons]
  cases g a with
  | error e => simp [bind, Except.bind]
  | ok b =>
      cases rest.mapM g with
      | error e => simp [bind, Except.bind]
      | ok bs => simp [bind, Except.bind, pure, Except.pure, eq_comm]

theorem exists_of_mapM_eq_error {g : α → Except Error β} {items : List α} {e : Error}
    (h : items.mapM g = .error e) : ∃ a ∈ items, g a = .error e := by
  induction items with
  | nil => cases h
  | cons a rest ih =>
      rw [List.mapM_cons] at h
      cases hhead : g a with
      | error e' =>
          rw [hhead] at h
          cases h
          exact ⟨a, List.mem_cons_self, hhead⟩
      | ok b =>
          rw [hhead] at h
          cases hrest : rest.mapM g with
          | error e' =>
              rw [hrest] at h
              cases h
              obtain ⟨a', ha', hfails⟩ := ih hrest
              exact ⟨a', List.mem_cons_of_mem a ha', hfails⟩
          | ok bs =>
              rw [hrest] at h
              cases h

end Outcomes

namespace Step

variable {α β : Type}

/-! ## The parts of a step -/

/-- What a step comes to from a state, and the state that it leaves behind. -/
def on (step : Step α) (state : State) : Except Error α × State := step.run state

theorem on_bind (step : Step α) (next : α → Step β) (state : State) :
    (step >>= next).on state =
      match step.on state with
      | (.ok a, state') => (next a).on state'
      | (.error e, state') => (.error e, state') := by
  change (match step.on state with
    | (outcome, state') => ExceptT.bindCont next outcome state') = _
  generalize step.on state = result
  obtain ⟨a | e, state'⟩ := result
  · rfl
  · rfl

@[simp]
theorem on_pure (a : α) (state : State) : (pure a : Step α).on state = (.ok a, state) := rfl

@[simp]
theorem on_throw (e : Error) (state : State) : (throw e : Step α).on state = (.error e, state) :=
  rfl

@[simp]
theorem on_get (state : State) : (get : Step State).on state = (.ok state, state) := rfl

@[simp]
theorem on_modify (f : State → State) (state : State) :
    (modify f : Step Unit).on state = (.ok (), f state) := rfl

@[simp]
theorem on_ofExcept (outcome : Except Error α) (state : State) :
    (ofExcept outcome).on state = (outcome, state) := rfl

@[simp]
theorem on_logged (computation : Logged α) (state : State) :
    (logged computation).on state =
      (computation.result, { state with log := state.log ++ computation.records }) := rfl

theorem on_find_of_some {table : State → Table Id α} {id : Id} {state : State} {object : α}
    (h : (table state).find? id = some object) :
    (find table id).on state = (.ok object, state) := by
  rw [find, on_bind, on_get]
  simp only [h, on_pure]

theorem on_find_of_none {table : State → Table Id α} {id : Id} {state : State}
    (h : (table state).find? id = none) :
    (find table id).on state = (.error (.unknownName id), state) := by
  rw [find, on_bind, on_get]
  simp only [h, on_throw]

/-- Steps that answer by the state and leave it as it is do so one after the other. -/
theorem on_mapM {f : α → Step β} {g : α → Except Error β} {state : State}
    (h : ∀ a, (f a).on state = (g a, state)) (items : List α) :
    (items.mapM f).on state = (items.mapM g, state) := by
  induction items with
  | nil => rfl
  | cons a rest ih =>
      rw [List.mapM_cons, List.mapM_cons, on_bind, h]
      cases g a with
      | error e => rfl
      | ok b =>
          change ((rest.mapM f >>= fun bs => pure (b :: bs)) : Step (List β)).on state = _
          rw [on_bind, ih]
          cases rest.mapM g with
          | error e => rfl
          | ok bs => rfl

end Step

/-! ## Commands -/

theorem run_act (action : Action) (state : State) :
    (Command.act action).run state =
      match action.run.on state with
      | (.ok reply, state') => (reply, state')
      | (.error e, state') => (.failed e, state') := by
  rw [Command.run, Step.reply, Step.on]
  simp only [bind, StateT.bind]
  generalize action.run.run state = result
  obtain ⟨reply | e, state'⟩ := result
  · rfl
  · rfl

@[simp]
theorem runAll_nil (state : State) : runAll [] state = ([], state) := by
  rw [runAll]
  rfl

theorem runAll_cons (command : Command) (rest : List Command) (state : State) :
    runAll (command :: rest) state =
      ((command.run state).1 :: (runAll rest (command.run state).2).1,
        (runAll rest (command.run state).2).2) := by
  rw [runAll]
  rfl

/-! ## What commands take for grammars -/

namespace GrammarRef

/-- What is meant in a state. -/
def meant (state : State) (reference : GrammarRef) : Except Error Candidate :=
  (reference.candidate.on state).1

/-- To look up what is meant leaves the state as it is. -/
theorem on_candidate (reference : GrammarRef) (state : State) :
    reference.candidate.on state = (reference.meant state, state) := by
  refine Prod.ext rfl ?_
  cases reference with
  | named id =>
      rw [candidate, Step.on_bind]
      cases hfound : state.grammars.find? id with
      | some grammar =>
          rw [Step.on_find_of_some hfound]
          rfl
      | none => rw [Step.on_find_of_none hfound]
  | written spec =>
      rw [candidate, Step.on_bind, Step.on_ofExcept]
      cases spec.build with
      | ok grammar => rfl
      | error e => rfl
  | bare name => rfl
  | foreign kind => rfl

/-- What is meant depends on the grammars of the session alone. -/
theorem meant_congr {state state' : State} (h : state.grammars = state'.grammars)
    (reference : GrammarRef) : reference.meant state = reference.meant state' := by
  cases reference with
  | named id =>
      rw [meant, meant, candidate, Step.on_bind, Step.on_bind]
      cases hfound : state.grammars.find? id with
      | some grammar =>
          rw [Step.on_find_of_some hfound, Step.on_find_of_some (h ▸ hfound)]
          rfl
      | none => rw [Step.on_find_of_none hfound, Step.on_find_of_none (h ▸ hfound)]
  | written spec =>
      rw [meant, meant, candidate, Step.on_bind, Step.on_bind, Step.on_ofExcept, Step.on_ofExcept]
      cases spec.build with
      | ok grammar => rfl
      | error e => rfl
  | bare name => rfl
  | foreign kind => rfl

end GrammarRef

/-! ## What commands take for settings -/

namespace SettingsRef

/-- The settings that are meant in a state: the choices as they are given, with the registry that
has the given name by then. -/
def meant (state : State) (reference : SettingsRef) : Except Error Settings :=
  match reference.registry with
  | none => .ok ⟨reference.classPrefix, reference.wrapPlain, none, reference.tabWidth⟩
  | some id =>
      match state.registries.find? id with
      | none => .error (.unknownName id)
      | some registry =>
          .ok ⟨reference.classPrefix, reference.wrapPlain, some registry, reference.tabWidth⟩

/-- To look up what is meant leaves the state as it is. -/
theorem on_settings (reference : SettingsRef) (state : State) :
    reference.settings.on state = (reference.meant state, state) := by
  obtain ⟨classPrefix, wrapPlain, registry, tabWidth⟩ := reference
  cases registry with
  | none => rfl
  | some id =>
      rw [settings, Step.on_bind, Step.findRegistry?, Step.on_bind, meant]
      cases hfound : state.registries.find? id with
      | none => simp only [Step.on_find_of_none hfound, hfound]
      | some registry => simp only [Step.on_find_of_some hfound, Step.on_pure, hfound]

end SettingsRef

/-! ## What is done to the settings -/

/-- A set puts exactly the settings that are meant in force, if there are such. -/
theorem Action.on_setSettings (reference : SettingsRef) (state : State) :
    (setSettings reference).run.on state =
      match reference.meant state with
      | .ok settings => (.ok (.settings settings), { state with settings })
      | .error e => (.error e, state) := by
  rw [Action.run, Step.on_bind, reference.on_settings]
  cases reference.meant state with
  | ok settings => rfl
  | error e => rfl

/-! ## Blocks of commands -/

/-- The commands of a block run under the settings that are meant, and behind it those are active
again that were active in front of it. -/
theorem run_within (reference : SettingsRef) (body : List Command) (failure : Option Text)
    (state : State) :
    (Command.within reference body failure).run state =
      match reference.meant state with
      | .error e => (.failed e, state)
      | .ok settings =>
          let (inner, state') := runAll body { state with settings }
          (.block inner failure state.settings, { state' with settings := state.settings }) := by
  have hmeant : reference.settings.run state = (reference.meant state, state) :=
    reference.on_settings state
  rw [Command.run]
  simp only [bind, StateT.bind, hmeant]
  cases reference.meant state with
  | error e => rfl
  | ok settings => rfl

/-- The commands of a thread start with the default settings, and what they choose stays with
them. -/
theorem run_thread (body : List Command) (state : State) :
    (Command.thread body).run state =
      let (inner, state') := runAll body { state with settings := .default }
      (.threadEnded inner, { state' with settings := state.settings }) := by
  rw [Command.run]
  rfl

end CodeHighlight.Session
