import CodeHighlight.Proofs.Registry.Builder
import CodeHighlight.Proofs.Session.Step

/-!
# Calls on a registry builder

A session makes a builder and then calls its methods in any order, some calls failing.  After every
such sequence of calls the builder keeps its contract (`BuilderContract`): what it holds is sound, a
registration fails exactly for a name that is taken and then changes nothing, a batch stops where a
registration fails, and a registry that was built stays as it was built.

Soundness is kept by every call (`exists_sound_run`), hence by every sequence of calls
(`exists_sound_runAll`); the rest of the contract is read off the equations of the three calls.
-/

namespace CodeHighlight.Session

/-- The calls of a builder's methods. -/
inductive BuilderCall where
  | register (grammar : GrammarRef)
  | registerAll (grammars : List GrammarRef)
  | build (registry : Id)

namespace BuilderCall

/-- The command that makes a call on the builder of a name. -/
def command (id : Id) : BuilderCall → Command
  | register grammar => .act (.register id grammar)
  | registerAll grammars => .act (.registerAll id grammars)
  | build registry => .act (.build id registry)

/-- The reply to a call on the builder of a name, and the state behind it. -/
def run (id : Id) (call : BuilderCall) (state : State) : Reply × State :=
  (call.command id).run state

/-- The replies to some calls on the builder of a name, and the state behind them. -/
def runAll (id : Id) (calls : List BuilderCall) (state : State) : List Reply × State :=
  Session.runAll (calls.map (command id)) state

theorem runAll_cons (id : Id) (call : BuilderCall) (rest : List BuilderCall) (state : State) :
    runAll id (call :: rest) state =
      ((call.run id state).1 :: (runAll id rest (call.run id state).2).1,
        (runAll id rest (call.run id state).2).2) :=
  Session.runAll_cons ..

end BuilderCall

namespace State

/-- The state with a builder under a name. -/
def withBuilder (state : State) (id : Id) (builder : RegistryBuilder) : State :=
  { state with builders := state.builders.put id builder }

@[simp]
theorem find?_withBuilder (state : State) (id : Id) (builder : RegistryBuilder) :
    (state.withBuilder id builder).builders.find? id = some builder :=
  Table.find?_put_self ..

@[simp]
theorem withBuilder_withBuilder (state : State) (id : Id) (old new : RegistryBuilder) :
    (state.withBuilder id old).withBuilder id new = state.withBuilder id new := by
  simp only [withBuilder, Table.put_put]

theorem withBuilder_of_find? {state : State} {id : Id} {builder : RegistryBuilder}
    (h : state.builders.find? id = some builder) : state.withBuilder id builder = state := by
  rw [withBuilder, Table.put_of_find? h]

end State

theorem meant_withBuilder (state : State) (id : Id) (builder : RegistryBuilder) :
    GrammarRef.meant (state.withBuilder id builder) = GrammarRef.meant state := by
  have hgrammars : (state.withBuilder id builder).grammars = state.grammars := rfl
  exact funext (GrammarRef.meant_congr hgrammars)

section Calls

variable {id : Id} {state : State} {builder : RegistryBuilder}

/-! ## The equations of the calls -/

theorem run_register_of_meant_error (reference : GrammarRef) {e : Error}
    (hmeant : reference.meant state = .error e) :
    BuilderCall.run id (.register reference) state = (.failed e, state) := by
  rw [BuilderCall.run, BuilderCall.command, run_act, Action.run, Step.on_bind,
    GrammarRef.on_candidate, hmeant]

theorem run_register (hfound : state.builders.find? id = some builder) {reference : GrammarRef}
    {candidate : Candidate} (hmeant : reference.meant state = .ok candidate) :
    BuilderCall.run id (.register reference) state =
      match builder.register candidate with
      | .error e => (.failed e, state)
      | .ok builder' => (.registered builder'.entries.length, state.withBuilder id builder') := by
  rw [BuilderCall.run, BuilderCall.command, run_act, Action.run, Step.on_bind,
    GrammarRef.on_candidate, hmeant]
  simp only [Step.on_bind, Step.on_find_of_some hfound, Step.on_ofExcept, Step.on_modify,
    Step.on_pure]
  cases builder.register candidate with
  | error e => rfl
  | ok builder' => rfl

theorem run_registerAll_of_meant_error {references : List GrammarRef} {e : Error}
    (hmeant : references.mapM (GrammarRef.meant state) = .error e) :
    BuilderCall.run id (.registerAll references) state = (.failed e, state) := by
  rw [BuilderCall.run, BuilderCall.command, run_act, Action.run, Step.on_bind,
    Step.on_mapM fun reference => reference.on_candidate state, hmeant]

theorem run_registerAll (hfound : state.builders.find? id = some builder)
    {references : List GrammarRef} {candidates : List Candidate}
    (hmeant : references.mapM (GrammarRef.meant state) = .ok candidates) :
    BuilderCall.run id (.registerAll references) state =
      match builder.registerAll candidates with
      | (builder', some e) => (.failed e, state.withBuilder id builder')
      | (builder', none) =>
          (.registered builder'.entries.length, state.withBuilder id builder') := by
  rw [BuilderCall.run, BuilderCall.command, run_act, Action.run, Step.on_bind,
    Step.on_mapM fun reference => reference.on_candidate state, hmeant]
  simp only [Step.on_bind, Step.on_find_of_some hfound, Step.on_modify]
  obtain ⟨builder', failure⟩ := builder.registerAll candidates
  cases failure with
  | some e => rfl
  | none => rfl

theorem run_build (hfound : state.builders.find? id = some builder) (registry : Id) :
    BuilderCall.run id (.build registry) state =
      (.registry builder.toRegistry,
        { state with
          registries := state.registries.put registry builder.toRegistry
          log := state.log ++ builder.build.records }) := by
  rw [BuilderCall.run, BuilderCall.command, run_act, Action.run, Step.on_bind,
    Step.on_find_of_some hfound]
  simp only [Step.on_bind, Step.on_logged]
  rfl

/-! ## What a call does -/

/-- A call either leaves the state as it is, or puts a sound builder in place, or builds a
registry. -/
theorem run_cases (hfound : state.builders.find? id = some builder) (hsound : builder.Sound)
    (call : BuilderCall) :
    (call.run id state).2 = state ∨
      (∃ builder', builder'.Sound ∧ (call.run id state).2 = state.withBuilder id builder') ∨
      ∃ registry log, call = .build registry ∧ (call.run id state).2 =
        { state with registries := state.registries.put registry builder.toRegistry, log } := by
  cases call with
  | register reference =>
      cases hmeant : reference.meant state with
      | error e =>
          rw [run_register_of_meant_error reference hmeant]
          exact .inl rfl
      | ok candidate =>
          rw [run_register hfound hmeant]
          split
          · exact .inl rfl
          · next builder' hregister => exact .inr (.inl ⟨builder', hsound.register hregister, rfl⟩)
  | registerAll references =>
      cases hmeant : references.mapM (GrammarRef.meant state) with
      | error e =>
          rw [run_registerAll_of_meant_error hmeant]
          exact .inl rfl
      | ok candidates =>
          have hall := hsound.registerAll candidates
          rw [run_registerAll hfound hmeant]
          split
          · next builder' e hbatch =>
              rw [hbatch] at hall
              exact .inr (.inl ⟨builder', hall, rfl⟩)
          · next builder' hbatch =>
              rw [hbatch] at hall
              exact .inr (.inl ⟨builder', hall, rfl⟩)
  | build registry =>
      rw [run_build hfound]
      exact .inr (.inr ⟨registry, _, rfl, rfl⟩)

/-- A call leaves a sound builder under the name, whether it fails or not. -/
theorem exists_sound_run (hfound : state.builders.find? id = some builder) (hsound : builder.Sound)
    (call : BuilderCall) :
    ∃ builder', (call.run id state).2.builders.find? id = some builder' ∧ builder'.Sound := by
  obtain hsame | ⟨builder', hsound', hput⟩ | ⟨registry, log, -, hbuilt⟩ :=
    run_cases hfound hsound call
  · rw [hsame]
    exact ⟨builder, hfound, hsound⟩
  · rw [hput]
    exact ⟨builder', State.find?_withBuilder .., hsound'⟩
  · rw [hbuilt]
    exact ⟨builder, hfound, hsound⟩

theorem exists_sound_runAll (hfound : state.builders.find? id = some builder)
    (hsound : builder.Sound) (calls : List BuilderCall) :
    ∃ builder', (BuilderCall.runAll id calls state).2.builders.find? id = some builder' ∧
      builder'.Sound := by
  induction calls generalizing state builder with
  | nil =>
      refine ⟨builder, ?_, hsound⟩
      rw [BuilderCall.runAll, List.map_nil, runAll_nil]
      exact hfound
  | cons call rest ih =>
      obtain ⟨builder', hfound', hsound'⟩ := exists_sound_run hfound hsound call
      rw [BuilderCall.runAll_cons]
      exact ih hfound' hsound'

/-- A call touches no registry but the one that it builds. -/
theorem find?_registries_run (hfound : state.builders.find? id = some builder)
    (hsound : builder.Sound) {registry : Id} {call : BuilderCall} (hcall : call ≠ .build registry) :
    (call.run id state).2.registries.find? registry = state.registries.find? registry := by
  obtain hsame | ⟨builder', -, hput⟩ | ⟨other, log, rfl, hbuilt⟩ := run_cases hfound hsound call
  · rw [hsame]
  · rw [hput]
    rfl
  · rw [hbuilt]
    exact Table.find?_put_of_ne _ _ fun hsame => hcall (congrArg BuilderCall.build hsame)

theorem find?_registries_runAll (hfound : state.builders.find? id = some builder)
    (hsound : builder.Sound) {registry : Id} {calls : List BuilderCall}
    (hcalls : ∀ call ∈ calls, call ≠ .build registry) :
    (BuilderCall.runAll id calls state).2.registries.find? registry =
      state.registries.find? registry := by
  induction calls generalizing state builder with
  | nil => rw [BuilderCall.runAll, List.map_nil, runAll_nil]
  | cons call rest ih =>
      obtain ⟨hcall, hrest⟩ := List.forall_mem_cons.1 hcalls
      obtain ⟨builder', hfound', hsound'⟩ := exists_sound_run hfound hsound call
      rw [BuilderCall.runAll_cons, ih hfound' hsound' hrest,
        find?_registries_run hfound hsound hcall]

/-! ## Batches, one registration at a time -/

/-- A batch does what registrations one by one do: all of them if it does not fail, and otherwise
those in front of the one that fails. -/
theorem runAll_register_of_registerAll {references : List GrammarRef} {candidates : List Candidate}
    (hmeant : references.mapM (GrammarRef.meant state) = .ok candidates)
    (hfound : state.builders.find? id = some builder) {builder' : RegistryBuilder}
    {failure : Option Error} (hbatch : builder.registerAll candidates = (builder', failure)) :
    ∃ done rest, ∃ sizes : List Nat, references = done ++ rest ∧
      BuilderCall.runAll id (done.map .register) state =
        (sizes.map .registered, state.withBuilder id builder') ∧
      (failure = none → rest = []) ∧
      ∀ e, failure = some e → ∃ failing back, rest = failing :: back ∧
        BuilderCall.run id (.register failing) (state.withBuilder id builder') =
          (.failed e, state.withBuilder id builder') := by
  induction references generalizing state builder candidates with
  | nil =>
      cases hmeant
      obtain ⟨rfl, rfl⟩ := Prod.mk.inj hbatch
      refine ⟨[], [], [], rfl, ?_, fun _ => rfl,
        fun e hsome => absurd hsome.symm (Option.some_ne_none e)⟩
      rw [State.withBuilder_of_find? hfound]
      exact runAll_nil state
  | cons reference references ih =>
      obtain ⟨candidate, candidates, hcandidate, hrest, rfl⟩ := mapM_cons_eq_ok_iff.1 hmeant
      have hrun := run_register hfound hcandidate
      rw [RegistryBuilder.registerAll] at hbatch
      cases hregister : builder.register candidate with
      | error e =>
          simp only [hregister] at hrun hbatch
          obtain ⟨rfl, rfl⟩ := Prod.mk.inj hbatch
          rw [State.withBuilder_of_find? hfound]
          refine ⟨[], reference :: references, [], rfl, runAll_nil state,
            fun hnone => absurd hnone (Option.some_ne_none e), ?_⟩
          rintro e' ⟨⟩
          exact ⟨reference, references, rfl, hrun⟩
      | ok next =>
          simp only [hregister] at hrun hbatch
          -- The other references mean the same after a registration, which makes no grammars.
          rw [← meant_withBuilder state id next] at hrest
          obtain ⟨done, rest, sizes, rfl, hdone, hfailure⟩ :=
            ih hrest (State.find?_withBuilder ..) hbatch
          rw [State.withBuilder_withBuilder] at hdone hfailure
          refine ⟨reference :: done, rest, next.entries.length :: sizes, rfl, ?_, hfailure⟩
          rw [List.map_cons, BuilderCall.runAll_cons, hrun, hdone]
          rfl

end Calls

/-! ## The contract -/

/-- What holds of the builder of a name between two calls, and what the next call does. -/
structure BuilderContract (id : Id) (state : State) (builder : RegistryBuilder) : Prop where
  found : state.builders.find? id = some builder
  /-- The index is a map from the names of the entries, in normal form, to the entries that have
  them, and no two entries share a name. -/
  sound : builder.Sound
  /-- A registration fails for a taken name exactly if one of the names asked for is taken. -/
  register_fails_iff : ∀ reference entry, reference.meant state = .ok (.entry entry) →
    ((∃ key holder, (BuilderCall.run id (.register reference) state).1 =
        .failed (.nameTaken key holder)) ↔
      ∃ key ∈ entry.keys, key ∈ builder.index.keys)
  /-- Its failure names the first such name and the one entry that holds it. -/
  register_refuses : ∀ reference entry e, reference.meant state = .ok (.entry entry) →
    (BuilderCall.run id (.register reference) state).1 = .failed e → builder.Refuses entry e
  /-- A registration that fails, for whatever cause, changes nothing. -/
  register_failed : ∀ reference e, (BuilderCall.run id (.register reference) state).1 = .failed e →
    (BuilderCall.run id (.register reference) state).2 = state
  /-- A registration that does not fail adds the entry behind the others. -/
  register_added : ∀ reference entry, reference.meant state = .ok (.entry entry) →
    (∀ key ∈ entry.keys, key ∉ builder.index.keys) →
    ∃ builder', builder'.entries = builder.entries ++ [entry] ∧
      BuilderCall.run id (.register reference) state =
        (.registered builder'.entries.length, state.withBuilder id builder')
  /-- A batch that does not fail registers its grammars one by one. -/
  registerAll_done : ∀ references size state',
    BuilderCall.run id (.registerAll references) state = (.registered size, state') →
    ∃ sizes : List Nat, BuilderCall.runAll id (references.map .register) state =
      (sizes.map .registered, state')
  /-- A batch that fails, when all its grammars are there, registers those in front of one whose
  registration fails, and fails like that. -/
  registerAll_failed : ∀ references e state',
    BuilderCall.run id (.registerAll references) state = (.failed e, state') →
    (∃ reference ∈ references, reference.meant state = .error e) ∧ state' = state ∨
    ∃ done failing back, ∃ sizes : List Nat, references = done ++ failing :: back ∧
      BuilderCall.runAll id (done.map .register) state = (sizes.map .registered, state') ∧
      BuilderCall.run id (.register failing) state' = (.failed e, state')
  /-- A registry has the contents of the builder at the time when it is built, and keeps them. -/
  build_kept : ∀ registry later, (∀ call ∈ later, call ≠ .build registry) →
    (BuilderCall.run id (.build registry) state).1 =
        .registry ⟨builder.entries, builder.index⟩ ∧
      (BuilderCall.runAll id later
        (BuilderCall.run id (.build registry) state).2).2.registries.find? registry =
        some ⟨builder.entries, builder.index⟩

theorem builderContract_of_sound {id : Id} {state : State} {builder : RegistryBuilder}
    (hfound : state.builders.find? id = some builder) (hsound : builder.Sound) :
    BuilderContract id state builder where
  found := hfound
  sound := hsound
  register_fails_iff reference entry hmeant := by
    have hrun := run_register hfound hmeant
    cases hregister : builder.register (.entry entry) with
    | error e =>
        have hrefuses := (RegistryBuilder.register_eq_error_iff hsound).1 hregister
        refine iff_of_true ?_ (hrefuses.exists_taken hsound)
        rw [hrun, hregister]
        obtain @⟨key, holder⟩ := hrefuses
        exact ⟨key, holder.name, rfl⟩
    | ok builder' =>
        have hfree := (RegistryBuilder.register_eq_ok_iff.1 hregister).1
        refine iff_of_false ?_ ?_
        · rw [hrun, hregister]
          rintro ⟨key, holder, ⟨⟩⟩
        · rintro ⟨key, hkey, htaken⟩
          exact hfree key hkey htaken
  register_refuses reference entry e hmeant hfails := by
    rw [run_register hfound hmeant] at hfails
    split at hfails
    · next e' hregister =>
        obtain rfl := Reply.failed.inj hfails
        exact (RegistryBuilder.register_eq_error_iff hsound).1 hregister
    · cases hfails
  register_failed reference e hfails := by
    cases hmeant : reference.meant state with
    | error e' => rw [run_register_of_meant_error reference hmeant]
    | ok candidate =>
        rw [run_register hfound hmeant] at hfails ⊢
        split at hfails
        · rfl
        · cases hfails
  register_added reference entry hmeant hfree := by
    refine ⟨⟨builder.entries ++ [entry], builder.index.give entry entry.keys⟩, rfl, ?_⟩
    rw [run_register hfound hmeant, RegistryBuilder.register_eq_ok_iff.2 ⟨hfree, rfl⟩]
  registerAll_done references size state' hrun := by
    cases hmeant : references.mapM (GrammarRef.meant state) with
    | error e =>
        rw [run_registerAll_of_meant_error hmeant] at hrun
        cases hrun
    | ok candidates =>
        rw [run_registerAll hfound hmeant] at hrun
        split at hrun
        · cases hrun
        · next builder' hbatch =>
            obtain ⟨done, rest, sizes, rfl, hdone, hrest, -⟩ :=
              runAll_register_of_registerAll hmeant hfound hbatch
            obtain ⟨-, rfl⟩ := Prod.mk.inj hrun
            rw [hrest rfl, List.append_nil]
            exact ⟨sizes, hdone⟩
  registerAll_failed references e state' hrun := by
    cases hmeant : references.mapM (GrammarRef.meant state) with
    | error e' =>
        rw [run_registerAll_of_meant_error hmeant] at hrun
        obtain ⟨hsame, rfl⟩ := Prod.mk.inj hrun
        obtain rfl := Reply.failed.inj hsame
        exact .inl ⟨exists_of_mapM_eq_error hmeant, rfl⟩
    | ok candidates =>
        rw [run_registerAll hfound hmeant] at hrun
        split at hrun
        · next builder' e' hbatch =>
            obtain ⟨hsame, rfl⟩ := Prod.mk.inj hrun
            obtain rfl := Reply.failed.inj hsame
            obtain ⟨done, rest, sizes, rfl, hdone, -, hfailure⟩ :=
              runAll_register_of_registerAll hmeant hfound hbatch
            obtain ⟨failing, back, rfl, hfailing⟩ := hfailure e' rfl
            exact .inr ⟨done, failing, back, sizes, rfl, hdone, hfailing⟩
        · cases hrun
  build_kept registry later hlater := by
    obtain ⟨builder', hfound', hsound'⟩ := exists_sound_run hfound hsound (.build registry)
    rw [find?_registries_runAll hfound' hsound' hlater, run_build hfound]
    exact ⟨rfl, Table.find?_put_self ..⟩

/-- After every sequence of calls on a builder, it keeps its contract. -/
theorem builder_contract (start : State) (id : Id) (defaults : Bool) (calls : List BuilderCall) :
    ∃ builder, BuilderContract id
      (runAll (.act (.makeBuilder id defaults) :: calls.map (BuilderCall.command id)) start).2
      builder := by
  have hmade : ∃ builder, ((Command.act (.makeBuilder id defaults)).run start).2.builders.find? id =
      some builder ∧ builder.Sound := by
    rw [run_act, Action.run]
    cases defaults with
    | true => exact ⟨_, Table.find?_put_self .., RegistryBuilder.sound_withDefaults⟩
    | false => exact ⟨_, Table.find?_put_self .., RegistryBuilder.sound_empty⟩
  obtain ⟨builder, hfound, hsound⟩ := hmade
  obtain ⟨builder', hfound', hsound'⟩ := exists_sound_runAll hfound hsound calls
  rw [runAll_cons]
  exact ⟨builder', builderContract_of_sound hfound' hsound'⟩

/-- A batch that fails at its second grammar has registered the first and not the third, and the
name of the first stays taken. -/
theorem builder_contract_batch :
    ∃ builder state,
      (runAll [.act (.makeBuilder ['b'] false),
        .act (.registerAll ['b'] [.bare ['a'], .bare [' ', 'A'], .bare ['c']])] State.initial).2 =
        state ∧
      BuilderContract ['b'] state builder ∧ builder.entries = [.bare ['a']] ∧
      ∃ key holder, (BuilderCall.run ['b'] (.register (.bare ['A'])) state).1 =
        .failed (.nameTaken key holder) := by
  obtain ⟨builder, hcontract⟩ := builder_contract State.initial ['b'] false
    [.registerAll [.bare ['a'], .bare [' ', 'A'], .bare ['c']]]
  have hbuilder : some builder = some ⟨[.bare ['a']], [(['a'], .bare ['a'])]⟩ :=
    hcontract.found.symm.trans rfl
  obtain rfl := Option.some.inj hbuilder
  exact ⟨_, _, rfl, hcontract, rfl,
    (hcontract.register_fails_iff (.bare ['A']) (.bare ['A']) rfl).2 ⟨['a'], by decide, by decide⟩⟩

end CodeHighlight.Session
