import ScriptEngine.Proofs.Compiler.Statements
import ScriptEngine.Proofs.Machine.ArrayClass
import ScriptEngine.Proofs.Machine.Constructors
import ScriptEngine.Proofs.Machine.Operands

/-!
# Array literals

The code of a literal makes an instance of the class of arrays and calls its method `push` with
the value of one element after the other.  Each of these calls adds an element
(`Site.adds_element`), and the expressions in between do not get to the instance
(`Site.Passage.fills`).  So the literal gives an array of the values of its expressions
(`array_literals_build_arrays`).
-/

namespace ScriptEngine

/-- An instance of the class of arrays. -/
def Object.ofElements (elements : Array Value) : Object where
  classId := 0
  data := some (.sequence elements)

/-- The state in which an instance has elements and the stack has been cut. -/
def State.withElements (state : State) (id : Nat) (lower elements : Array Value) : State :=
  { state with
    heap :=
      { state.heap with
        objects := state.heap.objects.setIfInBounds id (.ofElements elements) }
    stack := lower }

/-! ## The class of arrays -/

namespace State.KeepsArrays

variable {state : State} (keeps : state.KeepsArrays)

include keeps

/-- New instances have no elements. -/
theorem template : (state.heap.classAt 0).template = some (.sequence #[]) := by
  rw [keeps.classAt]
  cbv

/-- The class has no initialiser. -/
theorem init : (state.heap.classAt 0).methods["init"]? = none := by
  rw [keeps.classAt]
  cbv

/-- The method `push` is the first native callable. -/
theorem push : (state.heap.classAt 0).methods["push"]? = some (.hostMethod 0) := by
  rw [keeps.classAt]
  cbv

/-- The first native callable adds an element. -/
theorem native :
    state.heap.native 0 =
      { name := "push", arity := .exactly 1, routine := .sequence .push } := by
  have first :
      Machine.equipped.state.heap.natives.toList[0]? =
        some { name := "push", arity := .exactly 1, routine := .sequence .push } := by
    cbv
  rcases keeps.kinds.natives with ⟨added, split⟩
  unfold Heap.native
  rw [Array.getD_eq_getD_getElem?, ← Array.getElem?_toList, ← split,
    List.getElem?_append_left (List.getElem?_eq_some_iff.mp first).1, first]
  rfl

/-- What an instance of the class has by the name `push`. -/
theorem lookup_push
    {id : Nat}
    {elements : Array Value}
    (kept : state.heap.objects[id]? = some (.ofElements elements)) :
    state.lookup (.object id) "push" = .method (.hostMethod 0) := by
  have object : state.heap.objectAt id = .ofElements elements := by
    unfold Heap.objectAt
    rw [Array.getD_eq_getD_getElem?, kept]
    rfl
  have noField : state.heap.field? id "push" = none := by
    unfold Heap.field?
    rw [object]
    exact Std.TreeMap.getElem?_emptyc
  have method : (state.heap.classOf id).methods["push"]? = some (.hostMethod 0) := by
    unfold Heap.classOf
    rw [object]
    exact keeps.push
  simp only [State.lookup, noField, method]

end State.KeepsArrays

/-! ## Instructions -/

namespace Action

variable {environment : Environment} {state : State} {lower : Array Value}

/-- The content of a variable of the present module. -/
theorem moduleSlot_eq
    {frame : Frame}
    (innermost : state.frames.back? = some frame)
    {slot : Nat}
    {value : Value}
    (content : (state.registry.moduleAt frame.function.home).assigned? slot = some value) :
    moduleSlot slot state = (.ok value, state) := by
  unfold moduleSlot home
  rw [look_bind, innermost, Option.getD_some, look_bind, content]
  rfl

/-- A class without an initialiser makes an instance, which takes its place. -/
theorem construct_eq
    {classId : Nat}
    (stack : state.stack = lower.push (.classObject classId))
    (missing : (state.heap.classAt classId).methods["init"]? = none) :
    callValue environment (.classObject classId) 0 state =
      (.ok .proceed, state.withInstance classId lower #[]) := by
  have below : state.stack = lower.push (.classObject classId) ++ #[] := by
    rw [stack, Array.append_empty]
  have adds :
      updateHeap (fun heap => heap.addObject classId) state =
        (.ok (state.heap.addObject classId).1,
          { state with heap := (state.heap.addObject classId).2 }) :=
    rfl
  have sets :
      setSlot lower.size (.object (state.heap.addObject classId).1)
          { state with heap := (state.heap.addObject classId).2 } =
        (.ok (), state.withInstance classId lower #[]) := by
    show (Except.ok (), { state with
      heap := (state.heap.addObject classId).2
      stack := state.stack.setIfInBounds lower.size _ }) = _
    rw [below, setIfInBounds_below]
    rfl
  have sameClass :
      (state.withInstance classId lower #[]).heap.classAt classId = state.heap.classAt classId :=
    rfl
  show construct environment classId (#[] : Array Value).size state = _
  unfold construct
  rw [bind_of_ok (calleeSlot_below below), bind_of_ok adds]
  dsimp only
  rw [bind_of_ok sets, look_bind, sameClass, missing]
  rfl

/-- An element is added to an instance, which is the result. -/
theorem push_eq
    (keeps : state.KeepsArrays)
    {id : Nat}
    {elements : Array Value}
    {value : Value}
    (stack : state.stack = lower.push (.object id) ++ #[value])
    (kept : state.heap.objects[id]? = some (.ofElements elements)) :
    callValue environment (.hostMethod 0) 1 state =
      (do
        push environment.settings.limits (.object id)
        return .proceed : Action Transition)
        (state.withElements id lower (elements.push value)) := by
  have room : (#[value] : Array Value).size = 1 := rfl
  have object : state.heap.objectAt id = .ofElements elements := by
    unfold Heap.objectAt
    rw [Array.getD_eq_getD_getElem?, kept]
    rfl
  have adds :
      updateHeap (Container.runSequence .push (.object id) [value]) state =
        (.ok (.ok (.object id)),
          { state with
            heap :=
              { state.heap with
                objects :=
                  state.heap.objects.setIfInBounds id (.ofElements (elements.push value)) } }) := by
    show (Except.ok (Heap.updateData _ _ _ _).1,
      { state with heap := (Heap.updateData _ _ _ _).2 }) = _
    unfold Heap.updateData
    rw [object]
    simp only [Object.ofElements, Array.setIfInBounds_setIfInBounds]
    rfl
  have slot := calleeSlot_below stack
  rw [room] at slot
  show (look _ >>= _) state = _
  rw [look_bind, keeps.native]
  unfold callNative
  simp only [ne_eq, not_true_eq_false, if_false]
  rw [bind_of_ok slot, look_bind, look_bind, getD_below stack, extract_below stack]
  dsimp only
  rw [bind_of_ok adds]
  have cut : state.stack.shrink lower.size = lower := by
    rw [stack, ← Array.toList_inj, Array.toList_shrink]
    simp
  show ((do
    cutStack lower.size
    push environment.settings.limits (.object id)
    pure ()) >>= fun _ => return .proceed : Action Transition) _ = _
  simp only [bind_assoc, pure_bind]
  show (push environment.settings.limits (.object id) >>= fun _ => return Transition.proceed)
    { state with heap := _, stack := state.stack.shrink lower.size } = _
  rw [cut]
  rfl

end Action

/-! ## Steps -/

namespace Site

open Machine

section Steps

variable
  {environment : Environment}
  {call : OuterCall}
  {machine : Machine}
  {site : Site}
  {frame : Frame}

/-- An instruction fails, and so does the call in which it is carried out. -/
theorem breaks_of_fault
    {instruction : Instruction}
    (executes : machine.Executes frame instruction)
    (named :
      ∀ index argumentCount,
        instruction = .invoke index argumentCount → ∃ name, frame.HasName index name)
    (outer : machine.subRuns = site.around)
    {fault : Fault}
    {after : State}
    (failed :
      Action.execute environment machine.entryDepth instruction
          (machine.state.fetched environment frame instruction) =
        (.error (.fault fault), after)) :
    site.Breaks (machine.step environment) := by
  rw [executes.step_eq named, failed, outer]
  exact .inl (.raise after .script fault)

/-- The function of a frame goes on behind an instruction that has been carried out. -/
theorem stands_after
    (stands : machine.StandsAt site.depth frame)
    (instruction : Instruction)
    (after : State)
    (frames : after.frames = (machine.state.fetched environment frame instruction).frames)
    (subRuns : List SubRun) :
    StandsAt site.depth { frame with offset := frame.offset + instruction.length }
      { state := after, control := .script, subRuns } where
  control := rfl
  size := by
    show after.frames.size = _
    rw [frames, State.size_frames_fetched]
    exact stands.size
  innermost := by
    show after.frames.back? = _
    rw [frames]
    exact State.back?_fetched stands.innermost

variable
  (reaches : call.Reaches environment machine)
  (stands : machine.StandsAt site.depth frame)
  (outer : machine.subRuns = site.around)

include reaches stands outer

omit outer in
theorem deeper_after
    {instruction : Instruction}
    {after : State}
    (frames : after.frames = (machine.state.fetched environment frame instruction).frames) :
    machine.entryDepth < after.frames.size := by
  rw [frames, State.size_frames_fetched]
  exact reaches.inFrame stands.control

/-- The class of arrays is pushed. -/
theorem reads_class
    (decoded : Instruction.decode frame.function.chunk.code frame.offset = .complete (.getModule 0))
    (keeps : machine.state.KeepsArrays)
    (home : frame.function.home < machine.state.registry.modules.size) :
    site.Breaks (machine.step environment) ∨
      (machine.step environment).StandsAt site.depth { frame with offset := frame.offset + 3 } ∧
        (machine.step environment).subRuns = site.around ∧
        (machine.step environment).state.stack =
          machine.state.stack.push (.classObject 0) ∧
        (machine.step environment).state.heap = machine.state.heap := by
  have executes : machine.Executes frame (.getModule 0) :=
    ⟨stands.control, stands.innermost, decoded⟩
  let fetched := machine.state.fetched environment frame (.getModule 0)
  have sameStack : fetched.stack = machine.state.stack := State.stack_fetched
  have sameHeap : fetched.heap = machine.state.heap := State.heap_fetched
  have content :
      (fetched.registry.moduleAt frame.function.home).assigned? 0 = some (.classObject 0) := by
    have has : (machine.state.registry.moduleAt frame.function.home).get? 0 = _ :=
      keeps.registry.moduleAt home
    show ((machine.state.fetched environment frame _).registry.moduleAt _).assigned? 0 = _
    rw [State.registry_fetched]
    unfold Module.assigned?
    rw [has]
    rfl
  have innermost : fetched.frames.back? = some { frame with offset := frame.offset + 3 } :=
    State.back?_fetched stands.innermost
  have reads :
      Action.execute environment machine.entryDepth (.getModule 0) fetched =
        (do
          Action.push environment.settings.limits (.classObject 0)
          return .proceed : Action Transition) fetched := by
    have slot : Action.moduleSlot 0 fetched = (.ok (.classObject 0), fetched) :=
      Action.moduleSlot_eq innermost content
    show ((Action.moduleSlot 0 >>= fun value => Action.push environment.settings.limits value) >>=
      fun _ => return Transition.proceed : Action Transition) fetched = _
    rw [bind_assoc, Action.bind_of_ok slot]
  rcases Action.push_cases environment.settings.limits (.classObject 0) fetched with pushed | full
  · rw [Action.bind_of_ok pushed] at reads
    have isNext := executes.proceeds nofun reads (deeper_after reaches stands rfl)
    rw [isNext, outer]
    let pushed : State := { fetched with stack := fetched.stack.push (.classObject 0) }
    exact .inr ⟨stands_after stands (.getModule 0) pushed rfl _, rfl,
      congrArg (Array.push · _) sameStack, sameHeap⟩
  · rw [Action.bind_of_error full] at reads
    exact .inl (breaks_of_fault executes nofun outer reads)

end Steps

/--
The function of a frame goes on, and on top of the stack is an instance under construction that
is mentioned nowhere else.  It has some elements.
-/
structure Fills (site : Site) (frame : Frame) (slot id : Nat) (elements : Array Value)
    (machine : Machine) : Prop where
  stands : machine.StandsAt site.depth frame
  outer : machine.subRuns = site.around
  size : machine.state.stack.size = slot + 1
  hides : machine.Hides slot id (.ofElements elements)

end Site

open Machine

/-- What lies in the slot, and the one value above it. -/
theorem Machine.Hides.exists_operand
    {machine : Machine}
    {slot id : Nat}
    {object : Object}
    (hides : machine.Hides slot id object)
    (size : machine.state.stack.size = slot + 2) :
    ∃ (lower : Array Value) (value : Value),
      lower.size = slot ∧ machine.state.stack = lower.push (.object id) ++ #[value] := by
  have notEmpty : machine.state.stack.size ≠ 0 := by omega
  rcases Array.eq_push_of_size_ne_zero notEmpty with ⟨upper, value, isUpper⟩
  have upperSize : upper.size = slot + 1 := by
    rw [isUpper, Array.size_push] at size
    omega
  have upperNotEmpty : upper.size ≠ 0 := by omega
  rcases Array.eq_push_of_size_ne_zero upperNotEmpty with ⟨lower, occupant, rfl⟩
  have isSlot : lower.size = slot := by
    rw [Array.size_push] at upperSize
    omega
  subst isSlot
  have held := hides.held
  rw [isUpper, Array.getElem?_push, if_neg (by rw [Array.size_push]; omega),
    Array.getElem?_push_size] at held
  cases held
  exact ⟨lower, value, rfl, isUpper⟩

/-- An instance that is mentioned nowhere else gets the operand above it as an element. -/
theorem State.Guards.add
    {state : State}
    {id : Nat}
    {lower elements : Array Value}
    {value : Value}
    (guards : Guards id (.ofElements elements) (state.veiled lower.size .null))
    (stack : state.stack = lower.push (.object id) ++ #[value]) :
    Guards id (.ofElements (elements.push value))
      (State.veiled lower.size .null
        { state.withElements id lower (elements.push value) with
          stack := lower.push (.object id) }) := by
  have kept : state.heap.objects[id]? = some (.ofElements elements) := guards.kept
  have covered : state.stack.setIfInBounds lower.size .null = lower.push .null ++ #[value] := by
    rw [stack, Action.setIfInBounds_below]
  have stackLacks : ∀ other ∈ lower.push .null ++ #[value], other.Lacks id := by
    rw [← covered]
    exact guards.each.stack
  have elementsLack : ∀ other ∈ elements, other.Lacks id :=
    (guards.each.heap.objects _ (Array.mem_of_getElem? kept)).data _ rfl
  have objectEach : (Object.ofElements (elements.push value)).Each (Value.Lacks id) := by
    refine ⟨.empty, ?_⟩
    rintro _ ⟨⟩
    exact forall_mem_push elementsLack (stackLacks value (by simp))
  refine ⟨⟨?_, guards.each.frames, guards.each.functions,
    ⟨guards.each.heap.classes, forall_mem_setIfInBounds guards.each.heap.objects objectEach _⟩,
    guards.each.modules⟩, guards.consistent, ?_⟩
  · show ∀ other ∈ (lower.push (.object id)).setIfInBounds lower.size .null, Value.Lacks id other
    have uncovered :
        (lower.push (.object id) ++ #[]).setIfInBounds lower.size .null =
          lower.push .null ++ #[] :=
      Action.setIfInBounds_below _ _
    rw [Array.append_empty, Array.append_empty] at uncovered
    rw [uncovered]
    exact fun other member => stackLacks other (Array.mem_append_left _ member)
  · show (state.heap.objects.setIfInBounds id _)[id]? = _
    exact Array.getElem?_setIfInBounds_self_of_lt (Array.getElem?_eq_some_iff.mp kept).1

namespace Site

section Filling

variable
  {environment : Environment}
  {call : OuterCall}
  {machine : Machine}
  {site : Site}
  {frame : Frame}
  (reaches : call.Reaches environment machine)
  (stands : machine.StandsAt site.depth frame)
  (outer : machine.subRuns = site.around)
  (keeps : machine.state.KeepsArrays)

include reaches stands outer keeps

/-- An instance without elements takes the place of the class. -/
theorem makes_instance
    (decoded : Instruction.decode frame.function.chunk.code frame.offset = .complete (.call 0))
    {lower : Array Value}
    (stack : machine.state.stack = lower.push (.classObject 0))
    (unaware :
      machine.Unaware machine.state.heap.objects.size
        (State.Awaits machine.state.heap.objects.size)) :
    site.Fills { frame with offset := frame.offset + 2 } lower.size
      machine.state.heap.objects.size #[] (machine.step environment) := by
  have executes : machine.Executes frame (.call 0) := ⟨stands.control, stands.innermost, decoded⟩
  let fetched := machine.state.fetched environment frame (.call 0)
  have sameStack : fetched.stack = lower.push (.classObject 0) := State.stack_fetched.trans stack
  have sameHeap : fetched.heap = machine.state.heap := State.heap_fetched
  have constructs :
      Action.execute environment machine.entryDepth (.call 0) fetched =
        (.ok .proceed, fetched.withInstance 0 lower #[]) := by
    have below : fetched.stack = lower.push (.classObject 0) ++ #[] := by
      rw [sameStack, Array.append_empty]
    show (Action.peek (#[] : Array Value).size >>= _) fetched = _
    rw [Action.bind_of_ok (Action.peek_below below)]
    refine Action.construct_eq sameStack ?_
    rw [sameHeap]
    exact keeps.init
  have isNext := executes.proceeds nofun constructs (deeper_after reaches stands rfl)
  rw [isNext, outer]
  have isId : (fetched.heap.addObject 0).1 = machine.state.heap.objects.size := by
    rw [sameHeap]
    rfl
  have awaits :
      State.Awaits machine.state.heap.objects.size fetched :=
    (State.awaits_invariant _ environment.settings.limits).fetched unaware.holds.state frame _
  have lacks : ∀ value ∈ lower, value.Lacks machine.state.heap.objects.size := by
    intro value member
    refine awaits.each.stack value ?_
    rw [sameStack]
    exact Array.mem_push_of_mem _ member
  refine ⟨stands_after stands (.call 0) (fetched.withInstance 0 lower #[]) rfl _, rfl, ?_, ?_, ?_,
    ?_⟩
  · show (lower.push _ ++ #[]).size = _
    simp
  · show (lower.push (.object (fetched.heap.addObject 0).1) ++ #[])[lower.size]? = _
    rw [isId, Array.append_empty, Array.getElem?_push_size]
  · refine ⟨⟨⟨?_, awaits.each.frames, awaits.each.functions, awaits.each.heap.addObject 0,
      awaits.each.modules⟩, awaits.consistent, ?_⟩, trivial, ?_⟩
    · show ∀ value ∈ (lower.push (.object (fetched.heap.addObject 0).1) ++ #[]).setIfInBounds
        lower.size .null, Value.Lacks _ value
      rw [Action.setIfInBounds_below, Array.append_empty]
      exact forall_mem_push lacks trivial
    · show (fetched.heap.objects.push _)[machine.state.heap.objects.size]? = _
      rw [sameHeap, Array.getElem?_push_size, keeps.template]
      rfl
    · rw [← outer]
      exact unaware.holds.subRuns
  · refine ⟨trivial, ?_⟩
    rw [← outer]
    exact unaware.discreet.subRuns

omit reaches outer in
/-- The method `push` is called on an instance, which gets one more element. -/
theorem calls_push
    {index : UInt16}
    (named : frame.HasName index "push")
    {lower : Array Value}
    {id : Nat}
    {elements : Array Value}
    {value : Value}
    (stack : machine.state.stack = lower.push (.object id) ++ #[value])
    (kept : machine.state.heap.objects[id]? = some (.ofElements elements)) :
    Action.execute environment machine.entryDepth (.invoke index 1)
        (machine.state.fetched environment frame (.invoke index 1)) =
      (do
        Action.push environment.settings.limits (.object id)
        return .proceed : Action Transition)
        ((machine.state.fetched environment frame (.invoke index 1)).withElements id lower
          (elements.push value)) := by
  let fetched := machine.state.fetched environment frame (.invoke index 1)
  have below : fetched.stack = lower.push (.object id) ++ #[value] :=
    State.stack_fetched.trans stack
  have sameHeap : fetched.heap = machine.state.heap := State.heap_fetched
  have keepsFetched : fetched.KeepsArrays :=
    keeps.of_same State.registry_fetched
      (.of_same (congrArg (fun heap : Heap => (heap.classes, heap.natives)) sameHeap))
  have keptFetched : fetched.heap.objects[id]? = some (.ofElements elements) := by
    rw [sameHeap]
    exact kept
  have innermost : fetched.frames.back? = some { frame with offset := frame.offset + 4 } :=
    State.back?_fetched stands.innermost
  have reads : Action.name index fetched = (.ok "push", fetched) :=
    Action.name_of_hasName innermost named
  show (Action.name index >>= fun name =>
    Action.invoke environment name (#[value] : Array Value).size) fetched = _
  rw [Action.bind_of_ok reads, Action.invoke_eq below, keepsFetched.lookup_push keptFetched]
  exact Action.push_eq keepsFetched below keptFetched

/-- The value on top of the stack becomes one more element of the instance beneath it. -/
theorem adds_element
    {index : UInt16}
    (decoded :
      Instruction.decode frame.function.chunk.code frame.offset = .complete (.invoke index 1))
    (named : frame.HasName index "push")
    {slot id : Nat}
    {elements : Array Value}
    (hides : machine.Hides slot id (.ofElements elements))
    (size : machine.state.stack.size = slot + 2) :
    ∃ value,
      machine.state.stack.back? = some value ∧
        (site.Breaks (machine.step environment) ∨
          site.Fills { frame with offset := frame.offset + 4 } slot id (elements.push value)
            (machine.step environment)) := by
  have executes : machine.Executes frame (.invoke index 1) :=
    ⟨stands.control, stands.innermost, decoded⟩
  have isPush :
      ∀ other count,
        Instruction.invoke index 1 = .invoke other count → ∃ name, frame.HasName other name := by
    rintro other count ⟨⟩
    exact ⟨"push", named⟩
  rcases hides.exists_operand size with ⟨lower, value, rfl, stack⟩
  refine ⟨value, by rw [stack]; simp, ?_⟩
  let fetched := machine.state.fetched environment frame (.invoke index 1)
  have calls :
      Action.execute environment machine.entryDepth (.invoke index 1) fetched = _ :=
    calls_push stands keeps named stack hides.kept
  let after := fetched.withElements id lower (elements.push value)
  rcases Action.push_cases environment.settings.limits (.object id) after with pushed | full
  · rw [Action.bind_of_ok pushed] at calls
    have isNext := executes.proceeds isPush calls (deeper_after reaches stands rfl)
    rw [isNext, outer]
    have guards :
        State.Guards id (.ofElements elements) (fetched.veiled lower.size .null) :=
      guards_fetched hides.unaware.holds.state frame _
    refine .inr ⟨stands_after stands (.invoke index 1)
      { after with stack := lower.push (.object id) } rfl _, rfl, Array.size_push _,
      Array.getElem?_push_size, ⟨guards.add (State.stack_fetched.trans stack), trivial, ?_⟩,
      trivial, ?_⟩
    · rw [← outer]
      exact hides.unaware.holds.subRuns
    · rw [← outer]
      exact hides.unaware.discreet.subRuns
  · rw [Action.bind_of_error full] at calls
    exact .inl (breaks_of_fault executes isPush outer calls)

end Filling

end Site

/-! ## Literals -/

/--
The code of an expression stands in a function between two offsets.  The local variables that
the expression can name lie beneath what it pushes.
-/
structure Function.HasExpression (function : Function) (surroundings : Syntax.Surroundings)
    (tree : Syntax.Expr) (start finish : Nat) : Prop where
  assigns : tree.Assigns IsVariableName
  fits : ∀ shape, function.ShapeAt start shape → surroundings.scope.Fits shape.height
  compiled :
    ∃ before after instructions,
      before.Sound ∧
        tree.code surroundings before = some (instructions, after) ∧
        after.pool.constants.toList <+: function.chunk.constants.toList ∧
        function.HasCodeAt start instructions ∧
        finish = start + Instruction.totalLength instructions

/-- The callee of a function is always on the stack. -/
theorem Function.ShapeAt.positive
    {function : Function}
    {offset : Nat}
    {shape : Shape}
    (shaped : function.ShapeAt offset shape) :
    1 ≤ shape.height := by
  rcases shaped.steps with ⟨instruction, steps⟩
  exact Nat.lt_of_le_of_lt (Nat.zero_le _) steps.takes

/-- Every part of the expression of a statement has its code in a function. -/
def Function.HasParts (function : Function) (tokens : List TokenKind) : Prop :=
  ∃ opening consumed closing tree surroundings,
    tokens = opening ++ consumed ++ closing ∧
      OpensExpression opening ∧
      (closing = [] ∨ closing = [.punctuation .semicolon]) ∧
      Syntax.Derives .assignment consumed tree ∧
      ∀ part,
        tree.Contains part →
          ∃ start finish, function.HasExpression surroundings part start finish

/-- The parts of an expression have their code where the whole has its code. -/
theorem Chunk.HasStatement.hasParts
    {function : Function}
    {tokens : List TokenKind}
    (has : function.chunk.HasStatement tokens) :
    function.HasParts tokens := by
  rcases has with @⟨opening, consumed, closing, tree, surroundings, code, first, last, earlier,
    later, split, opens, closes, derived, fits, assigns, sound, generated, constants, written⟩
  refine ⟨opening, consumed, closing, tree, surroundings, split, opens, closes, derived,
    fun part contains => ?_⟩
  rcases contains.hasCodeIn fits assigns sound generated with
    @⟨before, own, behind, start, finish, parts, ownAssigns, ownSound, ownGenerated, grows⟩
  refine ⟨earlier.length + Instruction.totalLength before, _, ownAssigns,
    fun shape shaped => fits.mono shaped.positive, start, finish, own, ownSound, ownGenerated,
    grows.context.constants.trans constants, ?_, rfl⟩
  have whole : function.HasCodeAt earlier.length (before ++ own ++ behind) :=
    ⟨earlier, later, parts ▸ written, rfl⟩
  exact whole.left.right

/--
The body of a text that compiles has the code of every part of the expressions that the text
drops, prints or stores in a new variable outside of blocks and functions.  The parts that are
array literals are among them.
-/
theorem exists_parts_of_compile
    {mode : CompileMode}
    {source : String}
    {table : Module}
    {home firstFunction : Nat}
    {functions : Array Function}
    (indexed : table.Indexed)
    (success : (compile mode source table home firstFunction).functions = .ok functions) :
    ∃ (tokens : Array Token) (statements : List (List TokenKind)) (body : Function),
      Token.scan source = .ok tokens ∧
        tokens.toList.map Token.kind = statements.flatten ++ [.endOfInput] ∧
        functions.back? = some body ∧
        ∀ statement ∈ statements,
          Compiler.IsStatement Compiler.maxNesting statement ∧
            (takesExpression statement = true → body.HasParts statement) := by
  rcases exists_statements_of_compile indexed success with
    ⟨tokens, statements, body, scanned, split, last, covered⟩
  refine ⟨tokens, statements, body, scanned, split, last, fun statement member => ?_⟩
  rcases covered statement member with ⟨isStatement, written⟩
  exact ⟨isStatement, fun takes => (written takes).hasParts⟩

/--
The expressions of a list are evaluated one after the other, each of them once.  While one is
evaluated, its function stands inside its code.  At the end of the code the value is one more
value on the stack, and the next instruction takes it.
-/
inductive Machine.EvaluatesInTurn (run : Nat → Machine) (place : Nat) (frame : Frame)
    (surroundings : Syntax.Surroundings) :
    Nat → Nat → List Syntax.Expr → List Value → Nat → Nat → Prop where
  | done (offset time : Nat) :
      EvaluatesInTurn run place frame surroundings offset time [] [] offset time
  | next
      {offset ending finish first last ended : Nat}
      {tree : Syntax.Expr}
      {trees : List Syntax.Expr}
      {value : Value}
      {values : List Value}
      (written : frame.function.HasExpression surroundings tree offset ending)
      (order : first ≤ last)
      (begins : (run first).StandsAt place { frame with offset })
      (confined :
        ∀ time,
          first ≤ time → time < last →
            ∀ other,
              (run time).StandsAt place { frame with offset := other } →
                offset ≤ other ∧ other < ending)
      (ends : (run last).StandsAt place { frame with offset := ending })
      (size : (run last).state.stack.size = (run first).state.stack.size + 1)
      (top : (run last).state.stack.back? = some value)
      (others :
        EvaluatesInTurn run place frame surroundings (ending + 4) (last + 1) trees values finish
          ended) :
      EvaluatesInTurn run place frame surroundings offset first (tree :: trees) (value :: values)
        finish ended

/-- A frame has one offset. -/
theorem Machine.StandsAt.offset_eq
    {place : Nat}
    {frame : Frame}
    {machine : Machine}
    {first second : Nat}
    (stands : machine.StandsAt place { frame with offset := first })
    (again : machine.StandsAt place { frame with offset := second }) :
    first = second :=
  congrArg Frame.offset (Option.some.inj (stands.innermost.symm.trans again.innermost))

namespace Site

open Machine Syntax Syntax.Generator

section Elements

variable
  {environment : Environment}
  {call : OuterCall}
  {machine : Machine}
  {site : Site}
  {frame : Frame}
  {slot id locals offset ending : Nat}
  {elements : Array Value}

section Beginning

variable
  (orderly : call.state.Orderly)
  (reaches : call.Reaches environment machine)
  (lasts : call.Lasts machine)
  (fills : site.Fills { frame with offset } slot id elements machine)
  (climbs : frame.function.ClimbsAt locals 1 0 offset ending)

include orderly reaches lasts fills climbs

/-- The instance is the last value of the function. -/
theorem Fills.height_eq
    {shape : Shape}
    (shaped : frame.function.ShapeAt offset shape) :
    frame.base + shape.height = slot + 1 := by
  rcases climbs.cases with ⟨-, isOne⟩ | ⟨instruction, onward⟩
  · cases isOne
  · have executes : machine.Executes { frame with offset } instruction :=
      ⟨fills.stands.control, fills.stands.innermost, onward.decoded⟩
    rcases reaches.steps orderly lasts executes with ⟨other, isOther, -, size⟩
    rw [shaped.unique isOther]
    exact size.symm.trans fills.size

/-- The function of a frame begins to evaluate an expression. -/
theorem Fills.evaluates :
    site.Evaluates frame slot id (.ofElements elements) locals offset ending [] machine where
  inside := by
    refine ⟨fills.outer, nofun, ⟨Nat.le_of_eq fills.stands.size.symm, ?_⟩, ?_⟩
    · intro place other above found
      have inside := (Array.getElem?_eq_some_iff.mp found).1
      rw [fills.stands.size] at inside
      omega
    · intro caller program isHost
      cases isHost.symm.trans fills.stands.control
  hides := fills.hides
  reads := by
    have here := fills.stands.innermost
    rw [Array.back?_eq_getElem?, fills.stands.size, Nat.add_sub_cancel] at here
    exact ⟨offset, 0, here, Nat.le_refl _, climbs,
      fun _ shaped => fills.height_eq orderly reaches lasts climbs shaped⟩

end Beginning

end Elements

section Runs

variable
  {environment : Environment}
  {call : OuterCall}
  {site : Site}
  {run : Nat → Machine}
  {frame : Frame}
  {surroundings : Surroundings}
  {slot id height start finish left ended : Nat}
  {push : UInt16}

omit site run frame in
/-- The code of the elements only adds constants. -/
theorem grows_of_elements
    {trees : List Expr}
    (assigns : AllAssign IsVariableName trees)
    (fits : surroundings.scope.Fits height)
    {before after : Resources}
    (sound : before.Sound)
    (isName : before.context.HasName push)
    {instructions : List Instruction}
    (generated :
      itemsCode surroundings [.invoke push 1] trees before = some (instructions, after)) :
    before.Grows after := by
  have positive := fits.positive
  refine (itemsCode_generates trees assigns 0 [.invoke push 1] (fits.mono (Nat.le_succ height))
    sound ?_ generated).grows
  intro later higher extends_ bound
  refine .single rfl ?_ (extends_.hasName isName) ?_
  · show 2 < higher + 1
    omega
  · show higher + 1 - 2 + 1 = higher + 0
    omega

omit surroundings in
/-- The last moment is outside, so the function stands inside before it. -/
theorem lt_of_inside
    (leaves : (run ended).StandsAt site.depth { frame with offset := left })
    (isOutside : ¬ (start ≤ left ∧ left < finish))
    {time offset : Nat}
    (atMost : time ≤ ended)
    (stands : (run time).StandsAt site.depth { frame with offset })
    (inside : start ≤ offset ∧ offset < finish) :
    time < ended := by
  refine Nat.lt_of_le_of_ne atMost ?_
  rintro rfl
  rw [leaves.offset_eq stands] at isOutside
  exact isOutside inside

/-- The elements of a literal are evaluated in turn, and each becomes one of the instance. -/
theorem Passage.fills
    (passage : Passage environment call site run ended)
    (keeps : ∀ time ≤ ended, (run time).state.KeepsArrays)
    (fits : surroundings.scope.Fits height)
    (beneath : frame.base + height ≤ slot)
    (named : frame.function.chunk.constants[push.toNat]? = some (.string "push"))
    (confined :
      ∀ time < ended,
        ∀ offset,
          (run time).StandsAt site.depth { frame with offset } → start ≤ offset ∧ offset < finish)
    (leaves : (run ended).StandsAt site.depth { frame with offset := left })
    (isOutside : ¬ (start ≤ left ∧ left < finish))
    (trees : List Expr)
    (assigns : AllAssign IsVariableName trees)
    {before after : Resources}
    (sound : before.Sound)
    (isName : before.context.HasName push)
    {instructions : List Instruction}
    (generated : itemsCode surroundings [.invoke push 1] trees before = some (instructions, after))
    (constants : after.pool.constants.toList <+: frame.function.chunk.constants.toList)
    {offset : Nat}
    (written : frame.function.HasCodeAt offset instructions)
    (total : offset + Instruction.totalLength instructions = finish)
    (behind : start ≤ offset)
    {time : Nat}
    (bound : time ≤ ended)
    {elements : Array Value}
    (filled : site.Fills { frame with offset } slot id elements (run time)) :
    ∃ values,
      EvaluatesInTurn run site.depth frame surroundings offset time trees values finish ended ∧
        site.Fills { frame with offset := finish } slot id (elements ++ values.toArray)
          (run ended) := by
  induction trees generalizing before instructions offset time elements with
  | nil =>
      simp only [itemsCode, pure_apply, Option.some.injEq, Prod.mk.injEq] at generated
      obtain ⟨rfl, rfl⟩ := generated
      obtain rfl : offset = finish := total
      rcases Nat.lt_or_eq_of_le bound with earlier | rfl
      · exact absurd (confined time earlier offset filled.stands).2 (Nat.lt_irrefl _)
      · exact ⟨[], .done _ _, by rw [Array.append_empty]; exact filled⟩
  | cons tree others induction =>
      simp only [itemsCode, bind_apply, Option.bind_eq_some_iff, pure_apply, Option.some.injEq,
        Prod.mk.injEq] at generated
      obtain ⟨⟨firstCode, between⟩, firstFound, ⟨restCode, _⟩, restFound, rfl, rfl⟩ := generated
      rw [List.append_assoc, List.singleton_append] at written total
      let ending := offset + Instruction.totalLength firstCode
      have inside : ending + 4 + Instruction.totalLength restCode = finish := by
        rw [← total, Instruction.totalLength_append, Instruction.totalLength_cons,
          ← Nat.add_assoc, ← Nat.add_assoc]
        rfl
      have pushes : frame.function.HasCodeAt ending (.invoke push 1 :: restCode) := written.right
      have grows := (tree.code_generates assigns.1 fits sound firstFound).grows
      have later := grows_of_elements assigns.2 fits grows.sound
        (grows.context.hasName isName) restFound
      have climbs : frame.function.ClimbsAt height 1 0 offset ending :=
        .of_expression (.of_fits fits) firstFound written.left
      have orderly := passage.orderly
      have earlier := lt_of_inside leaves isOutside bound filled.stands ⟨behind, by omega⟩
      have reaches := passage.reaches time bound
      have lasts := passage.lasts time earlier
      have isCode : frame.function.HasExpression surroundings tree offset ending := by
        refine ⟨assigns.1, fun shape shaped => fits.mono ?_, before, between, firstCode, sound,
          firstFound, later.context.constants.trans constants, written.left, rfl⟩
        have height := filled.height_eq orderly reaches lasts climbs shaped
        omega
      have begins := filled.evaluates orderly reaches lasts climbs
      rcases passage.evaluates beneath begins bound (Nat.le_refl ended) with
        ⟨last, order, atMost, stands, evaluates⟩ | evaluates
      · have isBefore := lt_of_inside leaves isOutside atMost stands ⟨by omega, by omega⟩
        rcases (evaluates last order (Nat.le_refl _)).1 with ⟨inner, goesOn⟩
        have reachesLast := passage.reaches last atMost
        rcases goesOn.ended orderly reachesLast (passage.lasts last isBefore) stands pushes.decoded
          with ⟨outer, size⟩
        rcases adds_element reachesLast stands outer (keeps last atMost) pushes.decoded named
          goesOn.hides size with ⟨value, top, outcome⟩
        rw [← passage.next] at outcome
        have added := outcome.resolve_left (passage.unbroken last isBefore)
        rcases induction assigns.2 grows.sound (grows.context.hasName isName) restFound
          pushes.tail inside (by omega) isBefore added with ⟨values, inTurn, filledAll⟩
        refine ⟨value :: values, ?_, ?_⟩
        · exact .next isCode order filled.stands
            (fun moment behind bound other stands => evaluates.confined behind bound stands) stands
            (by rw [size, filled.size]) top inTurn
        · have same :
              elements ++ (value :: values).toArray = elements.push value ++ values.toArray := by
            simp
          rw [same]
          exact filledAll
      · rcases (evaluates ended bound (Nat.le_refl _)).1 with ⟨inner, goesOn⟩
        have within := goesOn.confined leaves
        exact absurd ⟨by omega, by omega⟩ isOutside

/-- A literal makes an instance and adds the values of its elements. -/
theorem Passage.builds
    (passage : Passage environment call site run ended)
    (keeps : ∀ time ≤ ended, (run time).state.KeepsArrays)
    (unaware :
      ∀ time ≤ ended,
        (run time).Unaware (run time).state.heap.objects.size
          (State.Awaits (run time).state.heap.objects.size))
    (stands : (run 0).StandsAt site.depth frame)
    (outer : (run 0).subRuns = site.around)
    (compiled :
      frame.function.chunk.code = #[] ∨ frame.function.Fits (run 0).state.registry)
    {trees : List Expr}
    (literal : frame.function.HasExpression surroundings (.array trees) frame.offset finish)
    (confined :
      ∀ time < ended,
        ∀ offset,
          (run time).StandsAt site.depth { frame with offset } →
            frame.offset ≤ offset ∧ offset < finish)
    (leaves : (run ended).StandsAt site.depth { frame with offset := left })
    (isOutside : ¬ (frame.offset ≤ left ∧ left < finish)) :
    ∃ values,
      EvaluatesInTurn run site.depth frame surroundings (frame.offset + 5) 2 trees values finish
          ended ∧
        site.Fills { frame with offset := finish } (run 0).state.stack.size
          (run 0).state.heap.objects.size values.toArray (run ended) := by
  rcases literal with ⟨assigns, fits, before, after, instructions, sound, generated, constants,
    written, isFinish⟩
  simp only [Expr.code, bind_apply, Option.bind_eq_some_iff, pure_apply, Option.some.injEq,
    Prod.mk.injEq] at generated
  obtain ⟨⟨push, between⟩, pushFound, ⟨filling, _⟩, filled, rfl, rfl⟩ := generated
  have isFetch :
      Instruction.decode frame.function.chunk.code frame.offset = .complete (.getModule 0) :=
    written.decoded
  have isCall :
      Instruction.decode frame.function.chunk.code (frame.offset + 3) = .complete (.call 0) :=
    written.tail.decoded
  have total : frame.offset + 5 + Instruction.totalLength filling = finish := by
    rw [isFinish, Instruction.totalLength_cons, Instruction.totalLength_cons, Nat.add_assoc,
      ← Nat.add_assoc (Instruction.length _)]
    rfl
  -- The class is read.
  have first := lt_of_inside leaves isOutside (Nat.zero_le ended) stands ⟨Nat.le_refl _, by omega⟩
  have executes : (run 0).Executes frame (.getModule 0) :=
    ⟨stands.control, stands.innermost, isFetch⟩
  rcases (passage.reaches 0 (Nat.zero_le _)).steps passage.orderly (passage.lasts 0 first) executes
    with ⟨shape, shaped, -, size⟩
  have scope := fits shape shaped
  rcases nameIndex_found sound pushFound with ⟨grows, isPush⟩
  have isName : between.context.HasName push := ⟨"push", isPush⟩
  have later := grows_of_elements assigns scope grows.sound isName filled
  have named : frame.function.chunk.constants[push.toNat]? = some (.string "push") := by
    have longer := later.context.constants.trans constants
    have found : between.pool.constants.toList[push.toNat]? = some (.string "push") := by
      rw [Array.getElem?_toList]
      exact isPush
    rcases List.getElem?_eq_some_iff.mp found with ⟨inside, same⟩
    rw [← Array.getElem?_toList, List.prefix_iff_getElem?.mp longer _ inside]
    exact congrArg some same
  have home : frame.function.home < (run 0).state.registry.modules.size := by
    rcases compiled with isEmpty | belongs
    · rw [isEmpty] at isFetch
      simp [Instruction.decode] at isFetch
    · exact belongs.home
  have reads := reads_class (passage.reaches 0 (Nat.zero_le _)) stands outer isFetch
    (keeps 0 (Nat.zero_le _)) home
  rw [← passage.next] at reads
  rcases reads.resolve_left (passage.unbroken 0 first) with ⟨standsNext, outerNext, stack, heap⟩
  -- The instance is made.
  have second := lt_of_inside leaves isOutside first standsNext ⟨by omega, by omega⟩
  have made := makes_instance (passage.reaches 1 first) standsNext outerNext (keeps 1 first) isCall
    stack (unaware 1 first)
  rw [← passage.next] at made
  have others := passage.fills keeps scope (Nat.le_of_eq size.symm) named confined leaves isOutside
    trees assigns grows.sound isName filled constants written.tail.tail total (by omega) second
    made
  rcases others with ⟨values, inTurn, filledAll⟩
  refine ⟨values, inTurn, ?_⟩
  rw [← heap]
  simpa using filledAll

end Runs

end Site

/-! ## Histories -/

namespace Machine

/-- The machine after a number of steps. -/
def after (environment : Environment) (machine : Machine) (count : Nat) : Machine :=
  (step environment)^[count] machine

/-- The host is not about to change the name or the methods of the class of arrays. -/
def SparesArrays (machine : Machine) : Prop :=
  ∀ routine request next,
    machine.control = .host routine (.perform request next) → request.SparesArrays

/--
A function evaluates an array literal without a fault.  It stands at the beginning of the code
of the literal, it stays active, and after a number of steps it stands outside the code for the
first time.  Meanwhile the host leaves the class of arrays alone.
-/
structure CompletesLiteral (environment : Environment) (machine : Machine) (place : Nat)
    (frame : Frame) (surroundings : Syntax.Surroundings) (trees : List Syntax.Expr)
    (finish ended left : Nat) : Prop where
  begins : machine.StandsAt place frame
  literal : frame.function.HasExpression surroundings (.array trees) frame.offset finish
  active : ∀ time ≤ ended, place < (machine.after environment time).state.frames.size
  inside :
    ∀ time < ended,
      ∀ offset,
        (machine.after environment time).StandsAt place { frame with offset } →
          frame.offset ≤ offset ∧ offset < finish
  leaves : (machine.after environment ended).StandsAt place { frame with offset := left }
  isOutside : ¬ (frame.offset ≤ left ∧ left < finish)
  spares : ∀ time < ended, (machine.after environment time).SparesArrays

section Histories

variable {environment : Environment} {machine : Machine}

theorem after_succ (count : Nat) :
    machine.after environment (count + 1) = (machine.after environment count).step environment :=
  Function.iterate_succ_apply' _ _ _

/-- What a step leaves alone lasts. -/
theorem after_eq_of_step
    {first last : Nat}
    (order : first ≤ last)
    (still :
      (machine.after environment first).step environment = machine.after environment first) :
    machine.after environment last = machine.after environment first := by
  induction last, order using Nat.le_induction with
  | base => rfl
  | succ last _ induction => rw [after_succ, induction, still]

theorem stuck_after
    {first last : Nat}
    (order : first ≤ last)
    (isStuck : (machine.after environment first).control = .stuck) :
    (machine.after environment last).control = .stuck := by
  induction last, order using Nat.le_induction with
  | base => exact isStuck
  | succ last _ induction =>
      rw [after_succ]
      exact stuck_step induction

theorem TamelyLeads.after
    (leads : equipped.TamelyLeads environment machine)
    {ended : Nat}
    (spares : ∀ time < ended, (machine.after environment time).SparesArrays)
    {time : Nat}
    (bound : time ≤ ended) :
    equipped.TamelyLeads environment (machine.after environment time) := by
  induction time with
  | zero => exact leads
  | succ time induction =>
      rw [after_succ]
      exact (induction (Nat.le_of_succ_le bound)).tail (.step (spares time bound))

variable
  {place finish ended left : Nat}
  {frame : Frame}
  {surroundings : Syntax.Surroundings}
  {trees : List Syntax.Expr}

/-- The steps in which a literal is evaluated are part of one call. -/
theorem CompletesLiteral.passage
    (completes :
      machine.CompletesLiteral environment place frame surroundings trees finish ended left)
    (honest : environment.host.Honest)
    (leads : equipped.TamelyLeads environment machine) :
    ∃ (call : OuterCall) (site : Site),
      site.depth = place ∧
        site.around = machine.subRuns ∧
        site.Passage environment call (machine.after environment) ended := by
  have isLast := completes.leaves.control
  have notEnded : ∀ time ≤ ended, (machine.after environment time).control.isEnded = false := by
    intro time bound
    apply Bool.eq_false_of_not_eq_true
    intro isEnded
    rw [after_eq_of_step bound (step_of_isEnded isEnded)] at isLast
    rw [isLast] at isEnded
    cases isEnded
  have notStuck : ∀ time ≤ ended, (machine.after environment time).control ≠ .stuck := by
    intro time bound isStuck
    cases (stuck_after bound isStuck).symm.trans isLast
  cases leads.keepsArrays.2 with
  | idle idle =>
      rw [completes.begins.control] at idle
      cases idle
  | @inCall before begins callee arguments count lasted isPresent =>
      let call := OuterCall.outermost before.state callee arguments
      have prepared := begins.prepared callee arguments
      have reaches : ∀ time ≤ ended, call.Reaches environment (machine.after environment time) := by
        intro time bound
        induction time with
        | zero =>
            exact OuterCall.reaches_iff_machineAt.mpr
              ⟨count, isPresent, fun earlier isEarlier => (lasted earlier isEarlier).1⟩
        | succ time induction =>
            have reached := induction (Nat.le_of_succ_le bound)
            rw [after_succ]
            exact reached.step
              (OuterCall.lasts_of_not_ended reached (notEnded time (Nat.le_of_succ_le bound)))
      have reachesFirst : call.Reaches environment machine := reaches 0 (Nat.zero_le _)
      have lastsFirst : call.Lasts machine :=
        OuterCall.lasts_of_not_ended reachesFirst (notEnded 0 (Nat.zero_le _))
      have within : entryDepthOf machine.subRuns ≤ place := by
        have deeper := reachesFirst.inFrame completes.begins.control
        rw [entryDepth_eq, completes.begins.size] at deeper
        exact Nat.lt_succ_iff.mp deeper
      refine ⟨call, ⟨machine.subRuns, place, within⟩, rfl, rfl, honest, prepared.orderly,
        after_succ, reaches, ?_, ?_⟩
      · intro time bound
        exact OuterCall.lasts_of_not_ended (reaches time (Nat.le_of_lt bound))
          (notEnded time (Nat.le_of_lt bound))
      · rintro time bound (fails | isStuck)
        · have inCall := (reachesFirst.goesOn lastsFirst).inCall
          have cut := Nat.le_trans (fails.size_le inCall) within
          exact absurd (completes.active (time + 1) bound) (Nat.not_lt.mpr cut)
        · exact notStuck (time + 1) bound isStuck

end Histories

end Machine

/--
The first variable of every module is called `Array` and holds the class of arrays as it was in
the beginning, and an array literal that is evaluated without a fault gives a new instance of
this class whose elements are the values of its expressions, each evaluated once and in order.
-/
theorem array_literals_build_arrays
    {environment : Environment}
    {machine : Machine}
    (leads : equipped.TamelyLeads environment machine) :
    (∀ table ∈ machine.state.registry.modules,
        table.variableName? 0 = some "Array" ∧
          table.find? "Array" = some 0 ∧ table.get? 0 = some (.classObject 0)) ∧
      machine.state.heap.classAt 0 = equipped.state.heap.classAt 0 ∧
      equipped.state.heap.natives.toList <+: machine.state.heap.natives.toList ∧
      (environment.host.Honest →
        ∀ {place finish ended left : Nat} {frame : Frame} {surroundings : Syntax.Surroundings}
          {trees : List Syntax.Expr},
          machine.CompletesLiteral environment place frame surroundings trees finish ended left →
            left = finish ∧
              ∃ values,
                EvaluatesInTurn (machine.after environment) place frame surroundings
                    (frame.offset + 5) 2 trees values finish ended ∧
                  (machine.after environment ended).state.stack.size =
                    machine.state.stack.size + 1 ∧
                  (machine.after environment ended).state.stack.back? =
                    some (.object machine.state.heap.objects.size) ∧
                  (machine.after environment ended).state.heap.objects[
                      machine.state.heap.objects.size]? =
                    some (.ofElements values.toArray)) := by
  have keeps := leads.keepsArrays.1
  have names := leads.leads.sparesArrays.registry
  refine ⟨fun table member => ?_, keeps.classAt, keeps.kinds.natives, ?_⟩
  · have named := names.named table member
    exact ⟨named, (names.consistent.modules table member).found _ _ named,
      keeps.registry.modules table member⟩
  · intro honest place finish ended left frame surroundings trees completes
    rcases completes.passage honest leads with ⟨call, site, rfl, around, passage⟩
    have tame {time : Nat} (bound : time ≤ ended) := leads.after completes.spares bound
    have compiled := (leads.leads.compiled .equipped).frames frame
      (Array.mem_of_back? completes.begins.innermost)
    rcases passage.builds (fun time bound => (tame bound).keepsArrays.1)
      (fun time bound => ((tame bound).unaware honest _).resolve_left (Nat.lt_irrefl _))
      completes.begins around.symm compiled completes.literal completes.inside completes.leaves
      completes.isOutside with ⟨values, inTurn, filled⟩
    refine ⟨completes.leaves.offset_eq filled.stands, values, inTurn, filled.size, ?_,
      filled.hides.kept⟩
    rw [Array.back?_eq_getElem?, filled.size, Nat.add_sub_cancel]
    exact filled.hides.held

/-- A machine into which a text has been compiled that makes an array of two values. -/
def literalMachine : Machine :=
  { Machine.equipped with
    state := ((HostRequest.compile .run "main" "[true, null];").perform Machine.equipped.state).2 }

/-- The frame in which the body of the text begins. -/
def literalFrame : Frame where
  function := literalMachine.state.heap.function 0
  offset := 0
  base := 0
  initializer := false

/-- The body is called. -/
def literalCall : Machine :=
  .start quietEnvironment literalMachine.state [] (.function 0) [] none

theorem literalCall_leads : equipped.TamelyLeads quietEnvironment literalCall := by
  have compiled : equipped.Tame quietEnvironment literalMachine :=
    .request rfl trivial (fun _ _ => trivial) (fun _ _ => trivial)
  have called : literalMachine.Tame quietEnvironment literalCall :=
    .call rfl (fun _ _ => trivial) (List.forall_mem_nil _)
  exact .tail (.single compiled) called

set_option maxRecDepth 4000 in
/--
The literal is the first expression of the body, which is behind it after six steps.  There is
one more instance then.
-/
theorem literalCall_steps :
    ((List.range 7).map fun time => (literalCall.after quietEnvironment time).control) =
        List.replicate 7 .script ∧
      ((List.range 7).map fun time =>
        (literalCall.after quietEnvironment time).state.frames.toList) =
        ([0, 3, 5, 6, 10, 11, 15].map fun offset => [{ literalFrame with offset }]) ∧
      (literalCall.after quietEnvironment 6).state.heap.objects.toList =
        literalCall.state.heap.objects.toList ++ [.ofElements #[.bool true, .null]] ∧
      literalFrame.function.arity = 0 ∧
      literalFrame.function.chunk.constants = #[.string "push"] ∧
      literalFrame.function.chunk.code =
        #[8, 0, 0, 25, 0, 3, 26, 0, 0, 1, 2, 26, 0, 0, 1, 5, 2, 27] := by
  cbv

/-- Where the body of a text begins. -/
def literalSurroundings : Syntax.Surroundings where
  scope := .reserving ""
  enclosing := []
  role := .script

/-- The first 15 bytes of the body are the code of a literal with two elements. -/
theorem literalFrame_hasExpression :
    literalFrame.function.HasExpression literalSurroundings
      (.array [.literal .trueWord, .literal .nullWord]) 0 15 := by
  rcases literalCall_steps with ⟨-, -, -, arity, constants, code⟩
  let before : Syntax.Resources := { pool := {}, table := { name := "", loaded := true } }
  let instructions : List Instruction :=
    [.getModule 0, .call 0, .pushTrue, .invoke 0 1, .pushNull, .invoke 0 1]
  have generated :
      ∃ after,
        Syntax.Expr.code literalSurroundings (.array [.literal .trueWord, .literal .nullWord])
            before = some (instructions, after) ∧
          after.pool.constants = #[.string "push"] :=
    ⟨_, rfl, rfl⟩
  rcases generated with ⟨after, generated, pool⟩
  refine ⟨⟨trivial, trivial, trivial⟩, ?_, before, after, instructions, ?_, generated, ?_,
    ⟨[], [5, 2, 27], ?_, rfl⟩, rfl⟩
  · intro shape shaped
    rw [shaped.eq_of_zero, arity]
    exact (Scope.settled_reserving fun isName => isName.1 rfl).fits
  · exact ⟨Chunk.remembers_empty, Module.indexed_empty "" true⟩
  · rw [pool, constants]
  · rw [code]
    rfl

/-- A host without routines keeps to itself. -/
theorem quietEnvironment_honest : quietEnvironment.host.Honest := by
  intro id key receiver arguments _ _
  trivial

/-- The body evaluates the literal in six steps. -/
theorem literalCall_completes :
    literalCall.CompletesLiteral quietEnvironment 0 literalFrame literalSurroundings
      [.literal .trueWord, .literal .nullWord] 15 6 15 := by
  rcases literalCall_steps with ⟨controls, frames, -⟩
  simp only [List.range, List.range.loop, List.map_cons, List.map_nil, List.replicate,
    List.cons.injEq, and_true] at controls frames
  rcases controls with ⟨control0, control1, control2, control3, control4, control5, control6⟩
  rcases frames with ⟨frames0, frames1, frames2, frames3, frames4, frames5, frames6⟩
  have stands {time offset : Nat}
      (control : (literalCall.after quietEnvironment time).control = .script)
      (frames :
        (literalCall.after quietEnvironment time).state.frames.toList =
          [{ literalFrame with offset }]) :
      (literalCall.after quietEnvironment time).StandsAt 0 { literalFrame with offset } := by
    have same : (literalCall.after quietEnvironment time).state.frames =
        #[{ literalFrame with offset }] := Array.toList_inj.mp frames
    exact ⟨control, by rw [same]; rfl, by rw [same]; rfl⟩
  have stays :
      ∀ time ≤ 6, ∃ offset,
        (literalCall.after quietEnvironment time).StandsAt 0 { literalFrame with offset } ∧
          (time < 6 → offset < 15) := by
    intro time bound
    interval_cases time
    · exact ⟨0, stands control0 frames0, by decide⟩
    · exact ⟨3, stands control1 frames1, by decide⟩
    · exact ⟨5, stands control2 frames2, by decide⟩
    · exact ⟨6, stands control3 frames3, by decide⟩
    · exact ⟨10, stands control4 frames4, by decide⟩
    · exact ⟨11, stands control5 frames5, by decide⟩
    · exact ⟨15, stands control6 frames6, by decide⟩
  refine ⟨stands control0 frames0, literalFrame_hasExpression, ?_, ?_, stands control6 frames6,
    by decide, ?_⟩
  · intro time bound
    rcases stays time bound with ⟨offset, here, -⟩
    rw [here.size]
    exact Nat.one_pos
  · intro time bound offset again
    rcases stays time (Nat.le_of_lt bound) with ⟨place, here, inside⟩
    rw [again.offset_eq here]
    exact ⟨Nat.zero_le _, inside bound⟩
  · intro time bound routine request next isHost
    rcases stays time (Nat.le_of_lt bound) with ⟨place, here, -⟩
    rw [here.control] at isHost
    cases isHost

/-- The text makes an array of its two values. -/
theorem literalCall_builds_array :
    EvaluatesInTurn (literalCall.after quietEnvironment) 0 literalFrame literalSurroundings 5 2
        [.literal .trueWord, .literal .nullWord] [.bool true, .null] 15 6 ∧
      (literalCall.after quietEnvironment 6).state.stack.back? =
        some (.object literalCall.state.heap.objects.size) ∧
      (literalCall.after quietEnvironment 6).state.heap.objects[
          literalCall.state.heap.objects.size]? =
        some (.ofElements #[.bool true, .null]) := by
  rcases array_literals_build_arrays literalCall_leads with ⟨-, -, -, builds⟩
  rcases builds quietEnvironment_honest literalCall_completes with
    ⟨-, values, inTurn, -, top, isArray⟩
  rcases literalCall_steps with ⟨-, -, objects, -⟩
  have isLast :
      (literalCall.after quietEnvironment 6).state.heap.objects[
          literalCall.state.heap.objects.size]? =
        some (.ofElements #[.bool true, .null]) := by
    rw [← Array.getElem?_toList, objects, ← Array.length_toList, List.getElem?_concat_length]
  have same : values = [.bool true, .null] := by
    have content := Option.some.inj (isArray.symm.trans isLast)
    injection content with _ _ elements
    injection elements with elements
    injection elements with elements
    exact Array.toList_inj.mpr elements
  subst same
  exact ⟨inTurn, top, isLast⟩

/-! ## Other methods of the class of arrays -/

/-- The embedding program has entered another method `push` into the class of arrays. -/
def enteringMachine : Machine :=
  { equipped with
    state := ((HostRequest.setMethod 0 "push" (.hostMethod 1)).perform equipped.state).2 }

/--
An embedding program that leaves the variables called `Array` alone can give the class of arrays
another method `push`.
-/
theorem entering_changes_array_class :
    equipped.Leads quietEnvironment .compiled enteringMachine ∧
      enteringMachine.state.registry = equipped.state.registry ∧
      (enteringMachine.state.heap.classAt 0).methods["push"]? ≠
        (equipped.state.heap.classAt 0).methods["push"]? := by
  have entered :
      (enteringMachine.state.heap.classAt 0).methods["push"]? = some (.hostMethod 1) := by
    cbv
  have first : (equipped.state.heap.classAt 0).methods["push"]? = some (.hostMethod 0) := by
    cbv
  refine ⟨.single (.request rfl trivial), rfl, ?_⟩
  rw [entered, first]
  intro same
  cases same

end ScriptEngine
