import ScriptEngine.Proofs.Machine.Isolation
import ScriptEngine.Proofs.Machine.Executing
import ScriptEngine.Proofs.Machine.Tables

/-!
# Slots of compiled code

Compiled code addresses the variables of its module by slot.  The slots were there
when the code was compiled (`Function.Fits`), and they keep their names for as long
as the machine exists, so the code never addresses another variable or one that is
not there.

The main theorem puts this together with what `Tables` says about the modules.  The
place of a frame matters for it: compiled code is only executed at the beginnings of
its instructions (`Machine.Executes.boundary`).
-/

namespace ScriptEngine

/-- The variable of the module that an instruction addresses. -/
def Instruction.moduleSlot? : Instruction → Option Nat
  | getModule slot | setModule slot | defineModule slot => some slot.toNat
  | _ => none

/-- A function has a shape at the beginnings of its instructions only. -/
theorem Function.ShapeAt.boundary
    {function : Function}
    {offset : Nat}
    {shape : Shape}
    (shaped : function.ShapeAt offset shape) :
    Boundary function.chunk.code offset := by
  rcases shaped with ⟨⟨slots, code, annotation⟩, shaped⟩
  rcases Annotated.exists_of_shapeAt (shaped slots code annotation) with
    ⟨before, instruction, after, split, rfl⟩
  exact Function.WellTyped.boundary_of_split annotation.encoded split

/-! ## Functions and the tables of their modules -/

theorem Registry.Extends.size_names_le
    {before after : Registry}
    (extension : before.Extends after)
    (id : Nat) :
    (before.moduleAt id).names.size ≤ (after.moduleAt id).names.size := by
  by_cases inside : id < before.modules.size
  · simpa using (extension.moduleAt inside).names.length_le
  · unfold Registry.moduleAt
    rw [Array.getD_eq_getD_getElem?, Array.getElem?_eq_none (Nat.le_of_not_lt inside)]
    exact Nat.zero_le _

/-- The slots that a function addresses belong to the table of its module. -/
structure Function.Fits (registry : Registry) (function : Function) : Prop where
  home : function.home < registry.modules.size
  typed : ∃ known, function.WellTyped (registry.moduleAt function.home).names.size known

namespace Function.Fits

variable {before after registry : Registry} {function : Function}

theorem mono (fits : function.Fits before) (extension : before.Extends after) :
    function.Fits after := by
  rcases fits with ⟨home, known, typed⟩
  rcases extension.modules _ _ (Array.getElem?_eq_getElem home) with ⟨later, here, -⟩
  exact ⟨(Array.getElem?_eq_some_iff.mp here).1, known,
    typed.mono (extension.size_names_le function.home) fun _ => id⟩

/-- A slot is there, unless it is that of the class of arrays in an empty table. -/
theorem slot
    (fits : function.Fits registry)
    {offset slot : Nat}
    {instruction : Instruction}
    (boundary : Boundary function.chunk.code offset)
    (decoded : Instruction.decode function.chunk.code offset = .complete instruction)
    (addresses : instruction.moduleSlot? = some slot) :
    slot < (registry.moduleAt function.home).names.size ∨
      instruction = .getModule 0 ∧ (registry.moduleAt function.home).names.size = 0 := by
  rcases fits.typed with ⟨known, typed⟩
  rcases typed.accepts_of_boundary boundary decoded with ⟨height, rfl | admitted⟩
  · cases addresses
    rcases Nat.eq_zero_or_pos (registry.moduleAt function.home).names.size with isEmpty | some_
    · exact .inr ⟨rfl, isEmpty⟩
    · exact .inl some_
  · cases instruction with
    | getModule | setModule | defineModule =>
        cases addresses
        exact .inl admitted
    | _ => cases addresses

end Function.Fits

/-- Modules are in order, and all code fits its module. -/
structure State.Compiled (state : State) : Prop where
  registry : state.registry.Consistent
  functions : ∀ function ∈ state.heap.functions, function.Fits state.registry
  frames :
    ∀ frame ∈ state.frames,
      frame.function.chunk.code = #[] ∨ frame.function.Fits state.registry

namespace State

/-- A text is compiled into functions that fit the module. -/
theorem Compiled.addSource
    {state : State}
    (compiled : state.Compiled)
    (mode : CompileMode)
    {id : Nat}
    (inside : id < state.registry.modules.size)
    (source : String) :
    (state.addSource mode id source).2.Compiled := by
  have advances := advances_addSource state mode id source
  have table := compiled.registry.moduleAt inside
  have grows := grows_compile mode source (state.registry.moduleAt id) id
    state.heap.functions.size
  have moduleAfter :
      (state.addSource mode id source).2.registry.moduleAt id =
        (compile mode source (state.registry.moduleAt id) id state.heap.functions.size).table := by
    rw [registry_addSource]
    simp [Registry.moduleAt, Registry.replace, inside]
  refine ⟨advances.consistent compiled.registry, ?_, ?_⟩
  · have old : ∀ function ∈ state.heap.functions,
        function.Fits (state.addSource mode id source).2.registry :=
      fun function member => (compiled.functions function member).mono advances.extension
    intro function member
    rcases outcome : (compile mode source (state.registry.moduleAt id) id
        state.heap.functions.size).functions with error | functions
    · apply old
      unfold State.addSource at member
      simp only [outcome] at member
      exact member
    · have isMember : function ∈ state.heap.functions ++ functions := by
        unfold State.addSource at member
        simp only [outcome] at member
        exact member
      rcases Array.mem_append.mp isMember with isOld | new
      · exact old function isOld
      · have typed := (compile_wellTyped table.toIndexed outcome).functions function new
        have home := home_of_compile outcome function new
        constructor
        · rw [home, registry_addSource, Registry.size_replace]
          exact inside
        · rw [home, moduleAfter, (grows.indexed table.toIndexed).counted]
          exact ⟨_, typed⟩
  · intro frame member
    rw [(frames_addSource state mode id source).2] at member
    exact (compiled.frames frame member).imp_right fun fits => fits.mono advances.extension

/-- Whatever changes the state, code fits its module. -/
theorem compiled_invariant (limits : Limits) :
    State.Invariant limits (fun _ => True) Compiled where
  each := fun {state} _ => .of_forall (fun _ => trivial) state
  change := by
    intro before after compiled change
    cases change with
    | stack | journal => exact ⟨compiled.registry, compiled.functions, compiled.frames⟩
    | frames known =>
        refine ⟨compiled.registry, compiled.functions, ?_⟩
        intro frame member
        rcases known frame member with ⟨old, isOld, same⟩ | ⟨id, same⟩
        · rw [same]
          exact compiled.frames old isOld
        · rw [same]
          unfold Heap.function
          rw [Array.getD_eq_getD_getElem?]
          rcases found : before.heap.functions[id]? with _ | function
          · exact .inl rfl
          · exact .inr (compiled.functions function (Array.mem_of_getElem? found))
    | heap functions =>
        refine ⟨compiled.registry, ?_, compiled.frames⟩
        rw [functions]
        exact compiled.functions
    | registry change =>
        have extension := change.advances.extension
        exact ⟨change.advances.consistent compiled.registry,
          fun function member => (compiled.functions function member).mono extension,
          fun frame member =>
            (compiled.frames frame member).imp_right fun fits => fits.mono extension⟩
    | compile mode found source =>
        exact compiled.addSource mode (compiled.registry.inside found) source

end State

/-! ## Histories of compiled code -/

namespace Machine

variable {environment : Environment} {machine : Machine}

/--
The machine is at rest or in a call that the embedding program has made, and its
functions come from the compiler.
-/
def InOrder (environment : Environment) (machine : Machine) : Prop :=
  machine.state.Orderly ∧
    (machine.control.isEnded = true ∨
      ∃ call : OuterCall,
        call.around = [] ∧
          call.awaiting = none ∧
          call.state.Orderly ∧
          call.Reaches environment machine)

theorem step_of_isEnded (ended : machine.control.isEnded = true) :
    machine.step environment = machine := by
  rcases machine with ⟨state, control, subRuns⟩
  cases control with
  | ended outcome => rfl
  | script | host | stuck => cases ended

theorem InOrder.step (inOrder : machine.InOrder environment) :
    (machine.step environment).InOrder environment := by
  rcases inOrder with ⟨orderly, ended | ⟨call, around, awaiting, begins, reaches⟩⟩
  · rw [step_of_isEnded ended]
    exact ⟨orderly, .inl ended⟩
  · rcases reaches.proper with goesOn | ⟨outcome, final, rfl⟩
    · have next := reaches.step goesOn.lasts
      exact ⟨next.orderly begins, .inr ⟨call, around, awaiting, begins, next⟩⟩
    · have ended : (call.returned outcome final).control.isEnded = true := by
        unfold OuterCall.returned OuterCall.deliver
        rw [awaiting]
        rfl
      rw [step_of_isEnded ended]
      exact ⟨orderly, .inl ended⟩

theorem Event.inOrder
    {after : Machine}
    (event : machine.Event environment .compiled after)
    (inOrder : machine.InOrder environment) :
    after.InOrder environment := by
  cases event with
  | step => exact inOrder.step
  | @call idle callee arguments =>
      have reaches :
          (OuterCall.outermost machine.state callee arguments).Reaches environment
            (start environment machine.state [] callee arguments none) :=
        .entered
      exact ⟨reaches.orderly inOrder.1, .inr ⟨_, rfl, rfl, inOrder.1, reaches⟩⟩
  | request idle => exact ⟨inOrder.1.perform _, .inl idle⟩
  | assign idle _ assigned =>
      exact ⟨inOrder.1.withRegistry (inOrder.1.registry.assign assigned), .inl idle⟩
  | write _ supplied => exact supplied.elim
  | takeRecords idle => exact ⟨inOrder.1.of_same rfl rfl, .inl idle⟩

theorem Fresh.orderly (fresh : machine.Fresh) : machine.state.Orderly := by
  cases fresh with
  | bare => exact ⟨nofun, 0, Engine.sound_initial 0⟩
  | equipped => exact Engine.orderly_create { settings := {}, host := Host.empty }

theorem Leads.inOrder
    {first : Machine}
    (fresh : first.Fresh)
    (leads : first.Leads environment .compiled machine) :
    machine.InOrder environment := by
  induction leads with
  | refl =>
      refine ⟨fresh.orderly, .inl ?_⟩
      cases fresh <;> rfl
  | tail _ event induction => exact event.inOrder induction

/-- Compiled code is executed at the beginnings of its instructions. -/
theorem Executes.boundary
    {frame : Frame}
    {instruction : Instruction}
    (executes : machine.Executes frame instruction)
    (inOrder : machine.InOrder environment) :
    Boundary frame.function.chunk.code frame.offset := by
  rcases inOrder.2 with ended | ⟨call, -, awaiting, begins, reaches⟩
  · rw [executes.control] at ended
    cases ended
  · rcases reaches.corresponds begins with ⟨relative, corresponds⟩
    cases corresponds with
    | returned _ _ isActual =>
        have control := executes.control
        rw [isActual] at control
        unfold OuterCall.returned OuterCall.deliver at control
        rw [awaiting] at control
        cases control
    | lasts carries control _ steady =>
        rcases relative with ⟨state, relativeControl, subRuns⟩
        rw [executes.control] at control
        cases relativeControl with
        | host | ended | stuck => cases control
        | script =>
            rcases steady with ⟨other, rest, height, active, startable⟩
            have innermost := carries.back_frames active.nonempty
            rw [executes.innermost, active.back, Option.getD_some] at innermost
            have decoded := executes.decoded
            rw [innermost] at decoded ⊢
            rcases startable with isEmpty | ⟨shape, -, shaped⟩
            · change Instruction.decode other.function.chunk.code other.offset = _ at decoded
              rw [isEmpty] at decoded
              simp [Instruction.decode] at decoded
            · exact shaped.boundary

/-- In histories without code written by hand, all code fits its module. -/
theorem Leads.compiled
    {first : Machine}
    (fresh : first.Fresh)
    (leads : first.Leads environment .compiled machine) :
    machine.state.Compiled := by
  have begins : first.state.Compiled := by
    refine ⟨fresh.consistent, ?_, ?_⟩ <;> cases fresh <;> exact nofun
  have admits : Admits .compiled State.Compiled := fun _ _ supplied => False.elim supplied
  exact (leads.keeps (State.compiled_invariant _) admits
    (holds_of_forall (fun _ => trivial) begins)).state

/-- With the built-in classes, the class of arrays is the first variable of every module. -/
theorem Leads.firstVariable
    {supply : Supply}
    (leads : equipped.Leads environment supply machine)
    {table : Module}
    (member : table ∈ machine.state.registry.modules) :
    table.variableName? 0 = some "Array" := by
  rcases leads.advances.descends Fresh.equipped.consistent table member with ⟨seed, isSeed, longer⟩
  have names : equipped.state.registry.modules.map Module.names = #[#["Array", "Map"]] := by
    cbv
  have isFirst : seed.names = #["Array", "Map"] := by
    apply Array.mem_singleton.mp
    rw [← names]
    exact Array.mem_map_of_mem isSeed
  rw [isFirst] at longer
  unfold Module.variableName?
  rw [← Array.getElem?_toList]
  exact List.prefix_iff_getElem?.mp longer 0 Nat.two_pos

/-- A slot has a name and keeps it, whatever happens to the machine. -/
def KeepsName (environment : Environment) (machine : Machine) (id slot : Nat) : Prop :=
  ∃ name, ∀ after,
    machine.Leads environment .compiled after →
      (after.state.registry.moduleAt id).variableName? slot = some name

/-- The slots of compiled code keep their names. -/
theorem Leads.keepsName
    {first : Machine}
    (fresh : first.Fresh)
    (leads : first.Leads environment .compiled machine)
    {function : Function}
    (member : function ∈ machine.state.heap.functions)
    {offset slot : Nat}
    {instruction : Instruction}
    (boundary : Boundary function.chunk.code offset)
    (decoded : Instruction.decode function.chunk.code offset = .complete instruction)
    (addresses : instruction.moduleSlot? = some slot) :
    machine.KeepsName environment function.home slot ∨
      first = bare ∧
        instruction = .getModule 0 ∧
        (machine.state.registry.moduleAt function.home).names.size = 0 := by
  have fits := (leads.compiled fresh).functions function member
  rcases fits.slot boundary decoded addresses with inside | ⟨isArray, isEmpty⟩
  · refine .inl ⟨(machine.state.registry.moduleAt function.home).names[slot], ?_⟩
    intro after later
    exact later.advances.extension.variableName (Array.getElem?_eq_getElem inside)
  · refine .inr ⟨?_, isArray, isEmpty⟩
    cases fresh with
    | bare => rfl
    | equipped =>
        have named := leads.firstVariable (Array.getElem_mem fits.home)
        rw [← Registry.moduleAt_eq fits.home] at named
        have inside := (Array.getElem?_eq_some_iff.mp named).1
        omega

/-- Compiled code defines variables that are there. -/
theorem Executes.defines_inside
    {first : Machine}
    (fresh : first.Fresh)
    (leads : first.Leads environment .compiled machine)
    {frame : Frame}
    {slot : UInt16}
    (executes : machine.Executes frame (.defineModule slot)) :
    slot.toNat < (machine.state.registry.moduleAt frame.function.home).values.size := by
  have compiled := leads.compiled fresh
  rcases compiled.frames frame (Array.mem_of_back? executes.innermost) with isEmpty | fits
  · have decoded := executes.decoded
    rw [isEmpty] at decoded
    simp [Instruction.decode] at decoded
  · rcases fits.slot (executes.boundary (leads.inOrder fresh)) executes.decoded rfl with
      inside | ⟨isArray, -⟩
    · rw [(compiled.registry.moduleAt fits.home).counted] at inside
      exact inside
    · cases isArray

end Machine

/--
In every history without code written by hand, names and slots of variables and names
and positions of modules agree, no module is removed and no variable is moved or
renamed.  A compilation, whether it succeeds or not, touches no value and appends
variables without one.  The slots that compiled code addresses keep their names, and
compiled code defines variables that are there.  The one slot that may be missing is
that of the class of arrays, in a machine that was begun without built-in classes.
-/
theorem module_tables_stay_consistent
    {environment : Environment}
    {first machine : Machine}
    (fresh : first.Fresh)
    (leads : first.Leads environment .compiled machine) :
    (∀ table ∈ machine.state.registry.modules,
        table.values.size = table.names.size ∧
          table.names.size ≤ 65536 ∧
          table.names.toList.Nodup ∧
          ∀ (name : String) (slot : Nat),
            table.index[name]? = some slot ↔ table.names[slot]? = some name) ∧
      (∀ (name : String) (id : Nat),
        machine.state.registry.index[name]? = some id ↔
          ∃ table : Module,
            machine.state.registry.modules[id]? = some table ∧ table.name = name) ∧
      (∀ after,
        machine.Leads environment .compiled after →
          machine.state.registry.Extends after.state.registry) ∧
      (∀ (state : State) mode id source (position : Nat) (table : Module),
        state.registry.modules[position]? = some table →
          ∃ later,
            (state.addSource mode id source).2.registry.modules[position]? = some later ∧
              table.Declares later) ∧
      (∀ function ∈ machine.state.heap.functions,
        ∀ offset instruction slot,
          Boundary function.chunk.code offset →
          Instruction.decode function.chunk.code offset = .complete instruction →
          instruction.moduleSlot? = some slot →
            machine.KeepsName environment function.home slot ∨
              first = .bare ∧
                instruction = .getModule 0 ∧
                (machine.state.registry.moduleAt function.home).names.size = 0) ∧
      ∀ frame slot,
        machine.Executes frame (.defineModule slot) →
          slot.toNat < (machine.state.registry.moduleAt frame.function.home).values.size := by
  have consistent := (leads.compiled fresh).registry
  refine ⟨?_, consistent.found, fun after later => later.advances.extension, ?_, ?_, ?_⟩
  · intro table member
    have isConsistent := consistent.modules table member
    refine ⟨isConsistent.counted.symm, ?_, isConsistent.nodup_names, ?_⟩
    · rw [isConsistent.counted]
      exact isConsistent.bounded
    · exact fun name slot => isConsistent.find?_eq_some_iff
  · exact fun state mode id source position table here =>
      state.addSource_declares mode id source here
  · exact fun function member offset instruction slot boundary decoded addresses =>
      leads.keepsName fresh member boundary decoded addresses
  · exact fun frame slot executes => executes.defines_inside fresh leads

/-! ## The operand of an array literal -/

/-- A machine without the built-in classes into which an array literal has been compiled. -/
def bareLiteralMachine : Machine :=
  { Machine.bare with
    state := ((HostRequest.compile .run "" "[];").perform Machine.bare.state).2 }

/-- The same machine when the module of the literal has been given a variable. -/
def namedLiteralMachine : Machine :=
  { bareLiteralMachine with
    state :=
      ((HostRequest.defineVariable "" "x" .null).perform bareLiteralMachine.state).2 }

theorem bareLiteralMachine_leads :
    Machine.bare.Leads quietEnvironment .compiled bareLiteralMachine ∧
      bareLiteralMachine.Leads quietEnvironment .compiled namedLiteralMachine := by
  have compiled : Machine.bare.Event quietEnvironment .compiled bareLiteralMachine :=
    .request rfl trivial
  have named : bareLiteralMachine.Event quietEnvironment .compiled namedLiteralMachine :=
    .request rfl trivial
  exact ⟨.single compiled, .single named⟩

/--
Without the built-in classes, the literal is compiled to read the first slot of a module that
has none.  The variable that comes first gives this slot a name, which it did not have.
-/
theorem bareLiteralMachine_changes_meaning :
    Machine.bare.Leads quietEnvironment .compiled bareLiteralMachine ∧
      bareLiteralMachine.Leads quietEnvironment .compiled namedLiteralMachine ∧
      ∃ function ∈ bareLiteralMachine.state.heap.functions,
        Boundary function.chunk.code 0 ∧
          Instruction.decode function.chunk.code 0 = .complete (.getModule 0) ∧
          (bareLiteralMachine.state.registry.moduleAt function.home).variableName? 0 = none ∧
          (namedLiteralMachine.state.registry.moduleAt function.home).variableName? 0 =
            some "x" ∧
          ¬ bareLiteralMachine.KeepsName quietEnvironment function.home 0 := by
  obtain ⟨leads, later⟩ := bareLiteralMachine_leads
  have isBody :
      bareLiteralMachine.state.heap.functions[0]?.map
          (fun function : Function => (function.home, function.chunk.code)) =
        some (0, #[8, 0, 0, 25, 0, 5, 2, 27]) := by
    cbv
  have before :
      (bareLiteralMachine.state.registry.moduleAt 0).variableName? 0 = none := by
    cbv
  have after :
      (namedLiteralMachine.state.registry.moduleAt 0).variableName? 0 = some "x" := by
    cbv
  obtain ⟨function, isFirst, same⟩ := Option.map_eq_some_iff.mp isBody
  obtain ⟨home, code⟩ := Prod.mk.inj same
  refine ⟨leads, later, function, Array.mem_of_getElem? isFirst, .first, ?_, ?_, ?_, ?_⟩
  · rw [code]
    rfl
  · rw [home]
    exact before
  · rw [home]
    exact after
  · rintro ⟨name, keeps⟩
    have named := keeps bareLiteralMachine .refl
    rw [home, before] at named
    cases named

/-! ## Compiled definitions -/

/-- A machine into which a text with a variable has been compiled. -/
def declaringMachine : Machine :=
  { Machine.equipped with
    state := ((HostRequest.compile .run "main" "var a;").perform Machine.equipped.state).2 }

/-- The body of the text has been called and is about to define the variable. -/
def definingMachine : Machine :=
  (Machine.start quietEnvironment declaringMachine.state [] (.function 0) [] none).step
    quietEnvironment

theorem definingMachine_leads :
    Machine.equipped.Leads quietEnvironment .compiled definingMachine := by
  have compiled : Machine.equipped.Event quietEnvironment .compiled declaringMachine :=
    .request rfl trivial
  have called :
      declaringMachine.Event quietEnvironment .compiled
        (.start quietEnvironment declaringMachine.state [] (.function 0) [] none) :=
    .call rfl trivial (List.forall_mem_nil _)
  exact .tail (.tail (.single compiled) called)
    (.step (Machine.supplied_of_forall (fun _ => trivial) _))

/-- The variable is the third of its module, behind the built-in classes. -/
theorem definingMachine_defines_inside :
    ∃ frame,
      definingMachine.Executes frame (.defineModule 2) ∧
        2 < (definingMachine.state.registry.moduleAt frame.function.home).values.size := by
  have executes :
      definingMachine.Executes (definingMachine.state.frames.back?.getD default)
        (.defineModule 2) := by
    constructor <;> cbv
  rcases module_tables_stay_consistent .equipped definingMachine_leads with
    ⟨-, -, -, -, -, inside⟩
  exact ⟨_, executes, inside _ 2 executes⟩

end ScriptEngine
