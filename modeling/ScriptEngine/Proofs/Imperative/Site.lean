import ScriptEngine.Proofs.Code.Flow
import ScriptEngine.Proofs.Imperative.Code
import ScriptEngine.Proofs.Imperative.Locals
import ScriptEngine.Proofs.Machine.Call

/-!
# Executing the body of a module

While the body of a module without calls is executed, the frames beneath it, the
values beneath it, the heap and all other modules stay what they are: they are its
site.  What changes is the place in the code, the values above the callee, the
variables of the module and what has been written.

`Site.At` says that a state of the machine is that of a store of the interpreter, at
an offset of the code, with some intermediate values above the local variables.
`Site.Performs` says that the machine does what a computation of the interpreter
does, unless the stack gets too large on the way.
-/

namespace ScriptEngine

/-! ## Stacks -/

/-- The stack that holds values, topmost first. -/
def stackOf (values : List Value) : Array Value :=
  values.reverse.toArray

section Stack

variable {value : Value} {upper lower values : List Value}

@[simp]
theorem size_stackOf (values : List Value) : (stackOf values).size = values.length := by
  simp [stackOf]

@[simp]
theorem push_stackOf (values : List Value) (value : Value) :
    (stackOf values).push value = stackOf (value :: values) := by
  simp [stackOf]

@[simp]
theorem back?_stackOf_cons (value : Value) (values : List Value) :
    (stackOf (value :: values)).back? = some value := by
  simp [stackOf]

@[simp]
theorem pop_stackOf_cons (value : Value) (values : List Value) :
    (stackOf (value :: values)).pop = stackOf values := by
  simp [stackOf]

theorem getElem?_stackOf (upper : List Value) (value : Value) (lower : List Value) :
    (stackOf (upper ++ value :: lower))[lower.length]? = some value := by
  simp [stackOf]

theorem set_stackOf (upper : List Value) (value new : Value) (lower : List Value) :
    (stackOf (upper ++ value :: lower)).setIfInBounds lower.length new =
      stackOf (upper ++ new :: lower) := by
  simp [stackOf]

theorem shrink_stackOf (upper lower : List Value) :
    (stackOf (upper ++ lower)).shrink lower.length = stackOf lower := by
  apply Array.toList_inj.mp
  simp [stackOf]

theorem stackOf_reverse_toList (stack : Array Value) : stackOf stack.toList.reverse = stack := by
  simp [stackOf]

end Stack

/-! ## Code -/

/-- Instructions stand at an offset of the code of a function. -/
def Function.CodeAt (function : Function) (offset : Nat) (code : List Instruction) : Prop :=
  ∃ before after,
    function.chunk.code.toList = Instruction.encode (before ++ (code ++ after)) ∧
      Instruction.totalLength before = offset

namespace Function.CodeAt

variable {function : Function} {offset : Nat} {first second : List Instruction}

theorem left (codeAt : function.CodeAt offset (first ++ second)) :
    function.CodeAt offset first := by
  rcases codeAt with ⟨before, after, encoded, located⟩
  exact ⟨before, second ++ after, by rw [encoded, List.append_assoc], located⟩

theorem right (codeAt : function.CodeAt offset (first ++ second)) :
    function.CodeAt (offset + Instruction.totalLength first) second := by
  rcases codeAt with ⟨before, after, encoded, rfl⟩
  exact ⟨before ++ first, after, by rw [encoded]; simp, by simp⟩

theorem head {instruction : Instruction} (codeAt : function.CodeAt offset (instruction :: second)) :
    function.CodeAt offset [instruction] :=
  @left function offset [instruction] second codeAt

theorem tail {instruction : Instruction} (codeAt : function.CodeAt offset (instruction :: second)) :
    function.CodeAt (offset + instruction.length) second :=
  @right function offset [instruction] second codeAt

theorem relocated
    {target : Nat}
    (codeAt : function.CodeAt offset first)
    (same : offset = target) :
    function.CodeAt target first :=
  same ▸ codeAt

theorem afterPop (codeAt : function.CodeAt offset (.pop :: second)) :
    function.CodeAt (offset + 1) second :=
  codeAt.tail

theorem afterJump
    {distance : UInt16}
    (codeAt : function.CodeAt offset (.jump distance :: second)) :
    function.CodeAt (offset + 3) second :=
  codeAt.tail

theorem afterJumpIfFalse
    {distance : UInt16}
    (codeAt : function.CodeAt offset (.jumpIfFalse distance :: second)) :
    function.CodeAt (offset + 3) second :=
  codeAt.tail

theorem afterLoop
    {distance : UInt16}
    (codeAt : function.CodeAt offset (.loop distance :: second)) :
    function.CodeAt (offset + 3) second :=
  codeAt.tail

theorem decode {instruction : Instruction} (codeAt : function.CodeAt offset [instruction]) :
    Instruction.decode function.chunk.code offset = .complete instruction := by
  rcases codeAt with ⟨before, after, encoded, rfl⟩
  exact Instruction.decode_encode encoded

end Function.CodeAt

/-! ## Sites -/

namespace Imperative

open Syntax

/-- Where the body of a module is executed, and what stays the same meanwhile. -/
structure Site where
  environment : Environment
  function : Function
  /-- The frames beneath that of the body. -/
  below : Array Frame
  callee : Value
  /-- The values beneath the callee, topmost first. -/
  ground : List Value
  heap : Heap
  /-- All modules, with the variables as they were at the beginning. -/
  registry : Registry
  /-- The journal at the beginning. -/
  journal : Journal
  home : function.home < registry.modules.size
  indexed : (registry.moduleAt function.home).Indexed

namespace Site

variable (site : Site)

/-- The module of the body as it was at the beginning. -/
def table : Module :=
  site.registry.moduleAt site.function.home

/-- The module of the body with other contents. -/
def tableWith (contents : Array Value) : Module :=
  { site.table with values := contents }

/-- The constants and module variables of the body. -/
def book : Resources where
  pool := site.function.chunk.pool
  table := site.table

/-- Number of frames beneath that of the body. -/
def depth : Nat :=
  site.below.size

/-- Largest number of values on the stack. -/
abbrev capacity : Nat :=
  site.environment.settings.limits.stackCapacity

/-- The frame of the body. -/
def frame (offset : Nat) : Frame where
  function := site.function
  offset := offset
  base := site.ground.length
  initializer := false

/-- What changes while the body is executed. -/
structure Present where
  offset : Nat
  /-- The values above the callee, topmost first. -/
  values : List Value
  /-- The contents of the variables of the module. -/
  contents : Array Value
  texts : Array String
  steps : Array String

/-- The state of the machine. -/
def state (present : Present) : State where
  stack := stackOf (present.values ++ site.callee :: site.ground)
  frames := site.below.push (site.frame present.offset)
  heap := site.heap
  registry := site.registry.replace site.function.home (site.tableWith present.contents)
  journal := { site.journal with texts := present.texts, steps := present.steps }

/-- Number of values on the stack. -/
def height (values : List Value) : Nat :=
  values.length + (site.ground.length + 1)

theorem size_stack (present : Present) :
    (site.state present).stack.size = site.height present.values := by
  simp [state, height]

theorem height_cons (value : Value) (values : List Value) :
    site.height (value :: values) = site.height values + 1 := by
  simp only [height, List.length_cons]
  omega

/-! ## Actions at a site -/

section Actions

open Action

variable
  {site : Site}
  {offset : Nat}
  {value : Value}
  {values : List Value}
  {contents : Array Value}
  {texts steps : Array String}

theorem pop_state :
    pop (site.state ⟨offset, value :: values, contents, texts, steps⟩) =
      (.ok value, site.state ⟨offset, values, contents, texts, steps⟩) := by
  simp [pop, state]

theorem peek_state :
    peek 0 (site.state ⟨offset, value :: values, contents, texts, steps⟩) =
      (.ok value, site.state ⟨offset, value :: values, contents, texts, steps⟩) := by
  simp [peek, state, stackOf]

theorem push_state (room : site.height values < site.capacity) :
    push site.environment.settings.limits value
        (site.state ⟨offset, values, contents, texts, steps⟩) =
      (.ok (), site.state ⟨offset, value :: values, contents, texts, steps⟩) := by
  rw [← site.size_stack ⟨offset, values, contents, texts, steps⟩] at room
  unfold push
  rw [if_pos room]
  simp [state]

theorem push_state_of_full (full : site.capacity ≤ site.height values) :
    push site.environment.settings.limits value
        (site.state ⟨offset, values, contents, texts, steps⟩) =
      (.error (.fault .stackOverflow), site.state ⟨offset, values, contents, texts, steps⟩) := by
  rw [← site.size_stack ⟨offset, values, contents, texts, steps⟩] at full
  unfold push
  rw [if_neg (Nat.not_lt.mpr full)]

theorem frame_state (present : Present) :
    Action.frame (site.state present) = (.ok (site.frame present.offset), site.state present) := by
  simp [Action.frame, look, state]

theorem home_state (present : Present) :
    Action.home (site.state present) = (.ok site.function.home, site.state present) := by
  simp [Action.home, look, state, frame]

theorem moveTo_state (target : Nat) :
    moveTo target (site.state ⟨offset, values, contents, texts, steps⟩) =
      (.ok (), site.state ⟨target, values, contents, texts, steps⟩) := by
  have moved :
      (site.below.push (site.frame offset)).modify ((site.below.push (site.frame offset)).size - 1)
          (fun frame => { frame with offset := target }) =
        site.below.push (site.frame target) := by
    apply Array.toList_inj.mp
    have last := State.modify_last site.below.toList (site.frame offset)
      fun frame => { frame with offset := target }
    simpa [frame] using last
  simp only [moveTo, change, state, moved]

theorem moduleAt_state (present : Present) :
    (site.state present).registry.moduleAt site.function.home =
      site.tableWith present.contents := by
  simp [state, Registry.moduleAt, Registry.replace, site.home]

end Actions

/-! ## States of the machine and stores of the interpreter -/

/-- The variables of the module have the values that they have in a store. -/
structure Mirrors (globals : String → Option Value) (contents : Array Value) : Prop where
  size : contents.size = site.table.size
  reads : ∀ name, (site.tableWith contents).assignedByName? name = globals name

/-- The texts of a store have been written since the beginning. -/
def written (texts : List String) : Array String :=
  site.journal.texts ++ texts.toArray

/-- The machine has written what a store says and has its variables of the module. -/
def Shows (store : Store) (state : State) : Prop :=
  state.journal.texts = site.written store.texts ∧
    ∃ contents,
      site.Mirrors store.globals contents ∧
        state.registry = site.registry.replace site.function.home (site.tableWith contents)

/--
The machine is at an offset of the code, with the local variables of a store and some
intermediate values above them.
-/
structure At (scope : Scope) (offset : Nat) (temporaries : List Value) (store : Store)
    (state : State) : Prop where
  inScope : scopeOf store.blocks = scope
  few : scope.locals.length ≤ Scope.maxLocals
  assigned : ∀ value ∈ temporaries ++ valuesOf store.blocks, value.isUndefined = false
  room : site.height (temporaries ++ valuesOf store.blocks) ≤ site.capacity
  present :
    ∃ contents steps,
      site.Mirrors store.globals contents ∧
        state =
          site.state
            ⟨offset, temporaries ++ valuesOf store.blocks, contents, site.written store.texts,
              steps⟩

section Mirrors

variable
  {site : Site}
  {globals : String → Option Value}
  {contents : Array Value}
  {name : String}
  {slot : Nat}

theorem Mirrors.assigned
    (mirrors : site.Mirrors globals contents)
    (found : site.table.find? name = some slot) :
    (site.tableWith contents).assigned? slot = globals name := by
  rw [← mirrors.reads name]
  show _ = (site.table.find? name).bind (site.tableWith contents).assigned?
  rw [found]
  rfl

theorem Mirrors.defined
    (mirrors : site.Mirrors globals contents)
    {value : Value}
    (isValue : globals name = some value) :
    value.isUndefined = false := by
  rw [← mirrors.reads name] at isValue
  rcases Option.bind_eq_some_iff.mp isValue with ⟨slot, -, isAssigned⟩
  simpa using (Option.filter_eq_some_iff.mp isAssigned).2

/-- Assigning a variable of the module in both places. -/
theorem Mirrors.define
    (mirrors : site.Mirrors globals contents)
    (found : site.table.find? name = some slot)
    {value : Value}
    (isAssigned : value.isUndefined = false) :
    site.Mirrors (fun other => if other = name then some value else globals other)
      (contents.setIfInBounds slot value) where
  size := by
    rw [Array.size_setIfInBounds]
    exact mirrors.size
  reads := by
    intro other
    have inside : slot < contents.size := by
      rw [mirrors.size]
      exact site.indexed.inside name slot found
    show (site.table.find? other).bind
      (site.tableWith (contents.setIfInBounds slot value)).assigned? = _
    by_cases same : other = name
    · subst same
      rw [found, if_pos rfl]
      simp [Module.assigned?, Module.get?, tableWith, inside, isAssigned]
    · rw [if_neg same, ← mirrors.reads other]
      show _ = (site.table.find? other).bind (site.tableWith contents).assigned?
      cases place : site.table.find? other with
      | none => rfl
      | some position =>
          have apart : slot ≠ position := by
            rintro rfl
            exact same (site.indexed.name_eq place found)
          simp [Module.assigned?, Module.get?, tableWith, Array.getElem?_setIfInBounds_ne apart]

end Mirrors

theorem At.relocated
    {site : Site}
    {scope : Scope}
    {offset target : Nat}
    {temporaries : List Value}
    {store : Store}
    {state : State}
    (isAt : site.At scope offset temporaries store state)
    (same : offset = target) :
    site.At scope target temporaries store state :=
  same ▸ isAt

/-! ## Runs -/

/-- The machine gets to a goal, unless the stack gets too large on the way. -/
inductive Leads (goal : State → Prop) : State → Prop where
  | here {state : State} (reached : goal state) : Leads goal state
  | step
      {state next : State}
      (proceeds :
        Action.step site.environment site.depth state = (.ok .proceed, next))
      (inside : site.depth < next.frames.size)
      (rest : Leads goal next) :
      Leads goal state
  | overflow
      {state after : State}
      (full : site.capacity ≤ state.stack.size)
      (faults :
        Action.step site.environment site.depth state = (.error (.fault .stackOverflow), after)) :
      Leads goal state

/-- The next step fails, with the variables and texts of a store. -/
def Fails (fault : Fault) (store : Store) (state : State) : Prop :=
  ∃ after,
    Action.step site.environment site.depth state = (.error (.fault fault), after) ∧
      site.Shows store after

/-- How a computation of the interpreter shows in the machine. -/
def Ends (arrives : α → Store → State → Prop) : Except Fault α → Store → State → Prop
  | .ok value => arrives value
  | .error fault => site.Fails fault

/--
From a state that belongs to a store, the machine gets to what a computation on the
store ends with, provided that it ends.
-/
def Performs (before : Store → State → Prop) (action : Interpreter α)
    (after : α → Store → State → Prop) : Prop :=
  ∀ store state,
    before store state →
      ∀ outcome final,
        action store = some (outcome, final) → site.Leads (site.Ends after outcome final) state

section Runs

variable {site : Site} {goal other : State → Prop} {state : State}

theorem Leads.bind
    (leads : site.Leads goal state)
    (next : ∀ between, goal between → site.Leads other between) :
    site.Leads other state := by
  induction leads with
  | here reached => exact next _ reached
  | step proceeds inside _ induction => exact .step proceeds inside induction
  | overflow full faults => exact .overflow full faults

theorem Leads.mono
    (leads : site.Leads goal state)
    (weaker : ∀ between, goal between → other between) :
    site.Leads other state :=
  leads.bind fun between reached => .here (weaker between reached)

variable
  {before between : Store → State → Prop}
  {after : β → Store → State → Prop}
  {middle : α → Store → State → Prop}
  {action : Interpreter α}
  {next : α → Interpreter β}

theorem Performs.bind
    (first : site.Performs before action middle)
    (second : ∀ value, site.Performs (middle value) (next value) after) :
    site.Performs before (action >>= next) after := by
  intro store state holds outcome final ends
  change (action store).bind _ = _ at ends
  rcases Option.bind_eq_some_iff.mp ends with ⟨⟨result, between⟩, isResult, rest⟩
  refine (first store state holds result between isResult).bind ?_
  cases result with
  | ok value => exact fun reached arrives => second value between reached arrives outcome final rest
  | error fault =>
      cases rest
      exact fun reached fails => .here fails

/-- A result that takes only steps of the machine. -/
theorem Performs.returns
    {value : α}
    (leads : ∀ store state, before store state → site.Leads (middle value store) state) :
    site.Performs before (pure value) middle := by
  intro store state holds outcome final ends
  cases ends
  exact leads store state holds

/-- Steps of the machine before a computation. -/
theorem Performs.afterSteps
    (steps : ∀ store state, before store state → site.Leads (between store) state)
    (rest : site.Performs between action middle) :
    site.Performs before action middle := by
  intro store state holds outcome final ends
  exact (steps store state holds).bind fun reached here =>
    rest store reached here outcome final ends

/-- Steps of the machine after a computation. -/
theorem Performs.thenSteps
    {last : α → Store → State → Prop}
    (first : site.Performs before action middle)
    (steps : ∀ value store state, middle value store state → site.Leads (last value store) state) :
    site.Performs before action last := by
  intro store state holds outcome final ends
  refine (first store state holds outcome final ends).bind ?_
  cases outcome with
  | ok value => exact fun reached arrives => steps value final reached arrives
  | error fault => exact fun reached fails => .here fails

end Runs

end Site

end Imperative

end ScriptEngine
