import ScriptEngine.Proofs.Machine.Limits
import ScriptEngine.Proofs.Machine.Orderly

/-!
# What lies beneath a call

A call from outside begins on a stack with values and on frames that are not its
own.  They are its ground.  The state of the call, taken for itself, has a stack
and frames that begin at zero; carried by the ground, it has them on top of what
was there before, and every position is raised by the height of the ground.

`Action.Tracks` compares an action in the actual state with an action in the
relative state.  Of the limits, the relative action has what the ground leaves.
`Action.Works` is the same for actions that work on the values of the innermost
function, with the number of these values before and after.
-/

namespace ScriptEngine

/-- What lies beneath a call from outside. -/
structure Ground where
  stack : Array Value
  frames : Array Frame
  /-- Number of calls from outside that have not ended. -/
  calls : Nat
  texts : Array String
  loads : Array String

/-- The frame on values that were there before. -/
def Frame.raised (height : Nat) (frame : Frame) : Frame :=
  { frame with base := height + frame.base }

/-- The host routine on values that were there before. -/
def HostCall.raised (height : Nat) (call : HostCall) : HostCall :=
  { call with slot := height + call.slot }

/-- What an action leads to, on values that were there before. -/
def Transition.raised (height : Nat) : Transition → Transition
  | .proceed => .proceed
  | .enterHost call program => .enterHost (call.raised height) program
  | .finished value => .finished value

namespace Ground

/-- Number of values beneath the call. -/
abbrev height (ground : Ground) : Nat :=
  ground.stack.size

/-- What the ground leaves of the limits. -/
def limits (ground : Ground) (limits : Limits) : Limits where
  stackCapacity := limits.stackCapacity - ground.height
  maxFrames := limits.maxFrames - ground.frames.size
  maxNestedCalls := limits.maxNestedCalls - ground.calls

/-- The environment of the call for itself. -/
def environment (ground : Ground) (environment : Environment) : Environment :=
  environment.withLimits (ground.limits environment.settings.limits)

/-- The actual state is the relative state, carried by the ground. -/
structure Carries (ground : Ground) (relative actual : State) : Prop where
  stack : actual.stack = ground.stack ++ relative.stack
  frames : actual.frames = ground.frames ++ relative.frames.map (Frame.raised ground.height)
  heap : actual.heap = relative.heap
  registry : actual.registry = relative.registry
  texts : actual.journal.texts = ground.texts ++ relative.journal.texts
  loads : actual.journal.loads = ground.loads ++ relative.journal.loads
  orderly : relative.Orderly

namespace Carries

variable {ground : Ground} {relative actual : State}

theorem size_stack (carries : ground.Carries relative actual) :
    actual.stack.size = ground.height + relative.stack.size := by
  rw [carries.stack, Array.size_append]

theorem size_frames (carries : ground.Carries relative actual) :
    actual.frames.size = ground.frames.size + relative.frames.size := by
  rw [carries.frames, Array.size_append, Array.size_map]

/-- A raised position of the stack holds what the position holds for itself. -/
theorem getElem?_stack (carries : ground.Carries relative actual) (position : Nat) :
    actual.stack[ground.height + position]? = relative.stack[position]? := by
  rw [carries.stack, Array.getElem?_append_right (Nat.le_add_right _ _), Nat.add_sub_cancel_left]

theorem getD_stack (carries : ground.Carries relative actual) (position : Nat) (other : Value) :
    actual.stack.getD (ground.height + position) other = relative.stack.getD position other := by
  rw [Array.getD_eq_getD_getElem?, Array.getD_eq_getD_getElem?, carries.getElem?_stack]

/-- The value on top of the stack is one of the call. -/
theorem back_stack
    (carries : ground.Carries relative actual)
    (nonempty : 0 < relative.stack.size) :
    ∃ value, relative.stack.back? = some value ∧ actual.stack.back? = some value := by
  have last : relative.stack.back? = some relative.stack[relative.stack.size - 1] := by
    rw [Array.back?_eq_getElem?, Array.getElem?_eq_getElem]
  refine ⟨_, last, ?_⟩
  rw [carries.stack, Array.back?_append, last]
  rfl

/-- The innermost frame is one of the call. -/
theorem back_frames
    (carries : ground.Carries relative actual)
    (nonempty : 0 < relative.frames.size) :
    actual.frames.back?.getD default =
      (relative.frames.back?.getD default).raised ground.height := by
  rw [carries.frames, Array.back?_append, Array.back?_map]
  have last : relative.frames.back? = some relative.frames[relative.frames.size - 1] := by
    rw [Array.back?_eq_getElem?, Array.getElem?_eq_getElem]
  rw [last]
  rfl

/-! ## Changes of the state -/

theorem withStack
    (carries : ground.Carries relative actual)
    {relativeStack actualStack : Array Value}
    (same : actualStack = ground.stack ++ relativeStack) :
    ground.Carries { relative with stack := relativeStack } { actual with stack := actualStack } :=
  { carries with
    stack := same
    orderly := carries.orderly.of_same rfl rfl }

theorem withFrames
    (carries : ground.Carries relative actual)
    {relativeFrames actualFrames : Array Frame}
    (same : actualFrames = ground.frames ++ relativeFrames.map (Frame.raised ground.height)) :
    ground.Carries { relative with frames := relativeFrames }
      { actual with frames := actualFrames } :=
  { carries with
    frames := same
    orderly := carries.orderly.of_same rfl rfl }

theorem withHeap
    (carries : ground.Carries relative actual)
    {heap : Heap}
    (same : heap.functions = relative.heap.functions) :
    ground.Carries { relative with heap } { actual with heap } :=
  { carries with
    heap := rfl
    orderly := carries.orderly.of_same same rfl }

theorem withRegistry
    (carries : ground.Carries relative actual)
    {registry : Registry}
    (orderly : registry.Orderly) :
    ground.Carries { relative with registry } { actual with registry } :=
  { carries with
    registry := rfl
    orderly := carries.orderly.withRegistry orderly }

/-- The journal of the instructions does not matter. -/
theorem withJournal
    (carries : ground.Carries relative actual)
    {relativeJournal actualJournal : Journal}
    (texts : actualJournal.texts = ground.texts ++ relativeJournal.texts)
    (loads : actualJournal.loads = ground.loads ++ relativeJournal.loads) :
    ground.Carries { relative with journal := relativeJournal }
      { actual with journal := actualJournal } :=
  { carries with
    texts := texts
    loads := loads
    orderly := carries.orderly.of_same rfl rfl }

theorem push (carries : ground.Carries relative actual) (value : Value) :
    ground.Carries { relative with stack := relative.stack.push value }
      { actual with stack := actual.stack.push value } := by
  apply carries.withStack
  rw [carries.stack, Array.append_push]

theorem pop
    (carries : ground.Carries relative actual)
    (nonempty : 0 < relative.stack.size) :
    ground.Carries { relative with stack := relative.stack.pop }
      { actual with stack := actual.stack.pop } := by
  apply carries.withStack
  rw [carries.stack, Array.pop_append_of_ne_empty (Array.ne_empty_of_size_pos nonempty)]

theorem setSlot (carries : ground.Carries relative actual) (slot : Nat) (value : Value) :
    ground.Carries { relative with stack := relative.stack.setIfInBounds slot value }
      { actual with stack := actual.stack.setIfInBounds (ground.height + slot) value } := by
  apply carries.withStack
  rw [carries.stack, Array.setIfInBounds_append_right (Nat.le_add_right _ _),
    Nat.add_sub_cancel_left]

/-- Cutting above the ground leaves the ground as it is. -/
theorem shrink_append (beneath above : Array α) (size : Nat) :
    (beneath ++ above).shrink (beneath.size + size) = beneath ++ above.shrink size := by
  apply Array.toList_inj.mp
  simp only [Array.toList_shrink, Array.toList_append]
  rw [← Array.length_toList, List.take_length_add_append]

theorem cutStack (carries : ground.Carries relative actual) (size : Nat) :
    ground.Carries { relative with stack := relative.stack.shrink size }
      { actual with stack := actual.stack.shrink (ground.height + size) } := by
  apply carries.withStack
  rw [carries.stack, shrink_append]

theorem pushFrame (carries : ground.Carries relative actual) (frame : Frame) :
    ground.Carries { relative with frames := relative.frames.push frame }
      { actual with frames := actual.frames.push (frame.raised ground.height) } := by
  apply carries.withFrames
  rw [carries.frames, Array.map_push, Array.append_push]

theorem popFrame
    (carries : ground.Carries relative actual)
    (nonempty : 0 < relative.frames.size) :
    ground.Carries { relative with frames := relative.frames.pop }
      { actual with frames := actual.frames.pop } := by
  apply carries.withFrames
  rw [← Array.size_map (f := Frame.raised ground.height)] at nonempty
  rw [carries.frames, Array.pop_append_of_ne_empty (Array.ne_empty_of_size_pos nonempty),
    Array.map_pop]

theorem cutFrames (carries : ground.Carries relative actual) (size : Nat) :
    ground.Carries { relative with frames := relative.frames.shrink size }
      { actual with frames := actual.frames.shrink (ground.frames.size + size) } := by
  apply carries.withFrames
  rw [carries.frames, shrink_append]
  apply Array.toList_inj.mp
  simp

theorem moveTo
    (carries : ground.Carries relative actual)
    (nonempty : 0 < relative.frames.size)
    (offset : Nat) :
    ground.Carries
      { relative with
        frames := relative.frames.modify (relative.frames.size - 1) fun frame =>
          { frame with offset } }
      { actual with
        frames := actual.frames.modify (actual.frames.size - 1) fun frame =>
          { frame with offset } } := by
  apply carries.withFrames
  have last : actual.frames.size - 1 = ground.frames.size + (relative.frames.size - 1) := by
    rw [carries.size_frames]
    omega
  rw [last]
  apply Array.ext_getElem?
  intro place
  simp only [carries.frames, Array.getElem?_modify, Array.getElem?_append, Array.getElem?_map]
  by_cases beneath : place < ground.frames.size
  · rw [if_pos beneath, if_pos beneath, if_neg (by omega)]
  · rw [if_neg beneath, if_neg beneath]
    by_cases isLast : relative.frames.size - 1 = place - ground.frames.size
    · rw [if_pos isLast, if_pos (by omega), Option.map_map, Option.map_map]
      rfl
    · rw [if_neg isLast, if_neg (by omega)]

theorem write (carries : ground.Carries relative actual) (text : String) :
    ground.Carries { relative with journal := relative.journal.write text }
      { actual with journal := actual.journal.write text } := by
  apply carries.withJournal
  · simp only [Journal.write, carries.texts, Array.append_push]
  · exact carries.loads

theorem load (carries : ground.Carries relative actual) (name : String) :
    ground.Carries
      { relative with
        journal := { relative.journal with loads := relative.journal.loads.push name } }
      { actual with
        journal := { actual.journal with loads := actual.journal.loads.push name } } := by
  apply carries.withJournal
  · exact carries.texts
  · simp only [carries.loads, Array.append_push]

/-- A text is compiled into the same functions, or refused for the same reason. -/
theorem addSource
    (carries : ground.Carries relative actual)
    (mode : CompileMode)
    {moduleId : Nat}
    (inside : moduleId < relative.registry.modules.size)
    (source : String) :
    (actual.addSource mode moduleId source).1 = (relative.addSource mode moduleId source).1 ∧
      ground.Carries (relative.addSource mode moduleId source).2
        (actual.addSource mode moduleId source).2 := by
  have orderly := carries.orderly.addSource mode inside source
  unfold State.addSource at orderly ⊢
  simp only at orderly ⊢
  rw [carries.heap, carries.registry]
  split at orderly <;> simp only
  · exact ⟨trivial, { carries with heap := rfl, registry := rfl, orderly := orderly }⟩
  · exact ⟨trivial, { carries with heap := rfl, registry := rfl, orderly := orderly }⟩

theorem addNamedSource
    (carries : ground.Carries relative actual)
    (mode : CompileMode)
    (moduleName source : String) :
    (actual.addNamedSource mode moduleName source).1 =
        (relative.addNamedSource mode moduleName source).1 ∧
      ground.Carries (relative.addNamedSource mode moduleName source).2
        (actual.addNamedSource mode moduleName source).2 := by
  rcases carries.orderly.registry.ensure moduleName with ⟨ensured, inside⟩
  have prepared :=
    carries.withRegistry (ensured.markLoaded (relative.registry.ensure moduleName).1)
  have isInside :
      (relative.registry.ensure moduleName).1 <
        ((relative.registry.ensure moduleName).2.modify (relative.registry.ensure moduleName).1
          Module.markLoaded).modules.size := by
    rw [Registry.size_modify]
    exact inside
  have added := prepared.addSource mode isInside source
  unfold State.addNamedSource
  simp only [carries.registry]
  exact added

/-- A request of a host routine has the same answer. -/
theorem perform (carries : ground.Carries relative actual) (request : HostRequest) :
    (request.perform actual).1 = (request.perform relative).1 ∧
      ground.Carries (request.perform relative).2 (request.perform actual).2 := by
  cases request with
  | write text => exact ⟨rfl, carries.write text⟩
  | defineBuiltin name value =>
      simp only [HostRequest.perform, carries.registry]
      exact ⟨trivial, carries.withRegistry (carries.orderly.registry.defineBuiltin name value)⟩
  | defineVariable moduleName name value =>
      simp only [HostRequest.perform, carries.registry]
      exact ⟨trivial,
        carries.withRegistry (carries.orderly.registry.defineVariable moduleName name value)⟩
  | ensureModule moduleName =>
      simp only [HostRequest.perform, carries.registry]
      exact ⟨trivial, carries.withRegistry (carries.orderly.registry.ensure moduleName).1⟩
  | compile mode moduleName source =>
      rcases carries.addNamedSource mode moduleName source with ⟨same, added⟩
      simp only [HostRequest.perform]
      rcases found : actual.addNamedSource mode moduleName source with ⟨error | body, after⟩ <;>
        rcases counterpart : relative.addNamedSource mode moduleName source with
          ⟨other | home, final⟩ <;>
        rw [found, counterpart] at same added <;>
        cases same <;>
        exact ⟨rfl, added⟩
  | _ =>
      simp only [HostRequest.perform, carries.heap]
      exact ⟨trivial, carries.withHeap rfl⟩

end Carries

end Ground

/-! ## Actions on the ground -/

namespace Action

/-- Two actions end in the same way, and something holds of their results and states. -/
def Tracks (upper lower : Action α) (actual relative : State)
    (success : α → α → State → State → Prop) (failure : State → State → Prop) : Prop :=
  match upper actual, lower relative with
  | (.ok result, actual), (.ok counterpart, relative) =>
    success result counterpart actual relative
  | (.error interruption, actual), (.error same, relative) =>
    interruption = same ∧ failure actual relative
  | _, _ => False

namespace Tracks

variable
  {upper lower : Action α}
  {actual relative : State}
  {success : β → β → State → State → Prop}
  {failure : State → State → Prop}

theorem bind
    {next following : α → Action β}
    (first :
      upper.Tracks lower actual relative
        (fun result counterpart actual relative =>
          (next result).Tracks (following counterpart) actual relative success failure)
        failure) :
    (upper >>= next).Tracks (lower >>= following) actual relative success failure := by
  unfold Tracks at first ⊢
  rcases outcome : upper actual with ⟨interruption | result, after⟩ <;>
    rcases counterpart : lower relative with ⟨other | found, later⟩ <;>
    rw [outcome, counterpart] at first
  · rw [bind_of_error outcome, bind_of_error counterpart]
    exact first
  · cases first
  · cases first
  · rw [bind_of_ok outcome, bind_of_ok counterpart]
    exact first

theorem mono
    {weaker : α → α → State → State → Prop}
    {stronger : α → α → State → State → Prop}
    {fails : State → State → Prop}
    (tracks : upper.Tracks lower actual relative stronger fails)
    (weaken :
      ∀ result counterpart actual relative,
        stronger result counterpart actual relative → weaker result counterpart actual relative)
    (weakenFailure : ∀ actual relative, fails actual relative → failure actual relative) :
    upper.Tracks lower actual relative weaker failure := by
  unfold Tracks at tracks ⊢
  rcases outcome : upper actual with ⟨interruption | result, after⟩ <;>
    rcases counterpart : lower relative with ⟨other | found, later⟩ <;>
    rw [outcome, counterpart] at tracks
  · exact ⟨tracks.1, weakenFailure _ _ tracks.2⟩
  · cases tracks
  · cases tracks
  · exact weaken _ _ _ _ tracks

theorem look
    {view counterview : State → α}
    {success : α → α → State → State → Prop}
    (holds : success (view actual) (counterview relative) actual relative) :
    (look view).Tracks (look counterview) actual relative success failure :=
  holds

theorem change
    {step counterstep : State → State}
    {success : Unit → Unit → State → State → Prop}
    (holds : success () () (step actual) (counterstep relative)) :
    (change step).Tracks (change counterstep) actual relative success failure :=
  holds

theorem update
    {step counterstep : State → α × State}
    {success : α → α → State → State → Prop}
    (holds :
      success (step actual).1 (counterstep relative).1 (step actual).2 (counterstep relative).2) :
    (update step).Tracks (update counterstep) actual relative success failure :=
  holds

theorem raise
    {fault : Fault}
    (holds : failure actual relative) :
    (raise fault : Action β).Tracks (raise fault) actual relative success failure :=
  ⟨rfl, holds⟩

theorem push
    {ground : Ground}
    {limits : Limits}
    {value : Value}
    {success : Unit → Unit → State → State → Prop}
    (carries : ground.Carries relative actual)
    (fits :
      success () () { actual with stack := actual.stack.push value }
        { relative with stack := relative.stack.push value })
    (full : failure actual relative) :
    (push limits value).Tracks (push (ground.limits limits) value) actual relative success
      failure := by
  have same :
      actual.stack.size < limits.stackCapacity ↔
        relative.stack.size < (ground.limits limits).stackCapacity := by
    rw [carries.size_stack]
    simp only [Ground.limits]
    omega
  unfold Tracks Action.push
  by_cases room : actual.stack.size < limits.stackCapacity
  · rw [if_pos room, if_pos (same.mp room)]
    exact fits
  · rw [if_neg room, if_neg (room ∘ same.mpr)]
    exact ⟨rfl, full⟩

theorem peek
    {ground : Ground}
    {distance : Nat}
    {success : Value → Value → State → State → Prop}
    (carries : ground.Carries relative actual)
    (inside : distance < relative.stack.size)
    (holds : ∀ value, success value value actual relative) :
    (peek distance).Tracks (peek distance) actual relative success failure := by
  have deeper : distance < actual.stack.size := by
    rw [carries.size_stack]
    omega
  have position :
      actual.stack.size - 1 - distance =
        ground.height + (relative.stack.size - 1 - distance) := by
    rw [carries.size_stack]
    omega
  unfold Tracks Action.peek
  rw [if_pos inside, if_pos deeper, position, carries.getD_stack]
  exact holds _

end Tracks

/--
Two actions work on the values of the innermost function, `height` before and
`later` after them, and leave the frames as they are.
-/
def Works (ground : Ground) (upper lower : Action α) (height later : Nat) : Prop :=
  ∀ (actual relative : State) (base : Nat),
    ground.Carries relative actual →
    relative.stack.size = base + height →
    0 < relative.frames.size →
      upper.Tracks lower actual relative
        (fun result counterpart actual after =>
          result = counterpart ∧
            ground.Carries after actual ∧
            after.stack.size = base + later ∧
            after.frames = relative.frames)
        (fun actual after =>
          ground.Carries after actual ∧
            base ≤ after.stack.size ∧
            after.frames = relative.frames)

namespace Works

variable
  {ground : Ground}
  {upper lower : Action α}
  {height later : Nat}

theorem bind
    {next following : α → Action β}
    {last : Nat}
    (first : Works ground upper lower height later)
    (second : ∀ result, Works ground (next result) (following result) later last) :
    Works ground (upper >>= next) (lower >>= following) height last := by
  intro actual relative base carries size nonempty
  apply Tracks.bind
  apply (first actual relative base carries size nonempty).mono
  · rintro result _ between after ⟨rfl, carried, same, frames⟩
    rw [← frames] at nonempty ⊢
    exact second result between after base carried same nonempty
  · exact fun _ _ => id

theorem pure (result : α) : Works ground (Pure.pure result) (Pure.pure result) height height :=
  fun _ _ _ carries size _ => ⟨rfl, carries, size, rfl⟩

theorem raise (fault : Fault) :
    Works ground (Action.raise fault : Action α) (Action.raise fault) height later := by
  intro actual relative base carries size _
  exact ⟨rfl, carries, by omega, rfl⟩

/-- What is seen may differ, as long as what follows does not. -/
theorem looking
    {view counterview : State → α}
    {next following : α → Action β}
    (goesOn :
      ∀ actual relative,
        ground.Carries relative actual →
        0 < relative.frames.size →
          Works ground (next (view actual)) (following (counterview relative)) height later) :
    Works ground (look view >>= next) (look counterview >>= following) height later := by
  intro actual relative base carries size nonempty
  exact goesOn actual relative carries nonempty actual relative base carries size nonempty

theorem look
    {view : State → α}
    (same :
      ∀ actual relative,
        ground.Carries relative actual →
        0 < relative.frames.size →
          view actual = view relative) :
    Works ground (Action.look view) (Action.look view) height height :=
  fun actual relative _ carries size nonempty =>
    ⟨same actual relative carries nonempty, carries, size, rfl⟩

theorem change
    {step counterstep : State → State}
    (carried :
      ∀ actual relative,
        ground.Carries relative actual → ground.Carries (counterstep relative) (step actual))
    (stack : ∀ relative, (counterstep relative).stack.size = relative.stack.size)
    (frames : ∀ relative, (counterstep relative).frames = relative.frames) :
    Works ground (Action.change step) (Action.change counterstep) height height :=
  fun actual relative _ carries size _ =>
    ⟨rfl, carried actual relative carries, (stack relative).trans size, frames relative⟩

theorem push (limits : Limits) (value : Value) :
    Works ground (push limits value) (Action.push (ground.limits limits) value) height
      (height + 1) := by
  intro actual relative base carries size _
  apply Tracks.push carries
  · refine ⟨rfl, carries.push value, ?_, rfl⟩
    rw [Array.size_push]
    omega
  · exact ⟨carries, by omega, rfl⟩

theorem pop : Works ground pop Action.pop (height + 1) height := by
  intro actual relative base carries size _
  rcases carries.back_stack (by omega) with ⟨value, last, same⟩
  unfold Tracks Action.pop
  simp only [last, same]
  refine ⟨trivial, carries.pop (by omega), ?_, trivial⟩
  rw [Array.size_pop]
  omega

theorem peek
    {distance : Nat}
    (inside : distance < height) :
    Works ground (peek distance) (Action.peek distance) height height := by
  intro actual relative base carries size _
  apply Tracks.peek carries
  · omega
  · exact fun _ => ⟨rfl, carries, size, rfl⟩

theorem setSlot (slot : Nat) (value : Value) :
    Works ground (setSlot (ground.height + slot) value) (Action.setSlot slot value) height
      height :=
  change (fun _ _ carries => carries.setSlot slot value)
    (fun _ => Array.size_setIfInBounds) fun _ => rfl

theorem changeHeap
    {step : Heap → Heap}
    (same : ∀ heap, (step heap).functions = heap.functions) :
    Works ground (changeHeap step) (Action.changeHeap step) height height := by
  refine change ?_ (fun _ => rfl) fun _ => rfl
  intro actual relative carries
  rw [carries.heap]
  exact carries.withHeap (same _)

theorem updateHeap
    {step : Heap → α × Heap}
    (same : ∀ heap, (step heap).2.functions = heap.functions) :
    Works ground (updateHeap step) (Action.updateHeap step) height height := by
  intro actual relative base carries size _
  show _ ∧ _
  refine ⟨?_, ?_, size, rfl⟩
  · show (step actual.heap).1 = (step relative.heap).1
    rw [carries.heap]
  · show ground.Carries { relative with heap := (step relative.heap).2 }
      { actual with heap := (step actual.heap).2 }
    rw [carries.heap]
    exact carries.withHeap (same _)

theorem changeRegistry
    {step : Registry → Registry}
    (orderly : ∀ registry, registry.Orderly → (step registry).Orderly) :
    Works ground (changeRegistry step) (Action.changeRegistry step) height height := by
  refine change ?_ (fun _ => rfl) fun _ => rfl
  intro actual relative carries
  rw [carries.registry]
  exact carries.withRegistry (orderly _ carries.orderly.registry)

theorem write (text : String) :
    Works ground (write text) (Action.write text) height height :=
  change (fun _ _ carries => carries.write text) (fun _ => rfl) fun _ => rfl

end Works

end Action

end ScriptEngine
