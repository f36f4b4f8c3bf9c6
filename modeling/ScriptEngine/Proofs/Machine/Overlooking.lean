import ScriptEngine.Proofs.Machine.Disguise

/-!
# Actions that do not notice a disguise

What works above the slot of the outermost function does the same under a disguise
(`Action.Overlooks`), and so does every instruction that finds its operands there,
as long as no value that it calls is the function under the disguise
(`Action.execute_goes_disguised`).
-/

namespace ScriptEngine.Action

/--
An action that works on values above the slot, `height` before and `later` after it at
least, does the same under a disguise.
-/
def Overlooks (disguise : Disguise) (action : Action α) (height later : Nat) : Prop :=
  ∀ plain other : State,
    disguise.Covers plain other →
    disguise.slot + 1 + height ≤ plain.stack.size →
      action.Tracks action other plain
        (fun result counterpart other after =>
          result = counterpart ∧
            disguise.Covers after other ∧
            disguise.slot + 1 + later ≤ after.stack.size ∧
            after.frames.size = plain.frames.size)
        (fun other after => disguise.Covers after other)

namespace Overlooks

variable
  {disguise : Disguise}
  {action : Action α}
  {height later : Nat}

theorem bind
    {next : α → Action β}
    {last : Nat}
    (first : Overlooks disguise action height later)
    (second : ∀ result, Overlooks disguise (next result) later last) :
    Overlooks disguise (action >>= next) height last := by
  intro plain other covers room
  apply Tracks.bind
  apply (first plain other covers room).mono
  · rintro result _ between after ⟨rfl, covered, enough, frames⟩
    rw [← frames]
    exact second result after between covered enough
  · exact fun _ _ => id

theorem pure (result : α) : Overlooks disguise (Pure.pure result) height height :=
  fun _ _ covers room => ⟨rfl, covers, room, rfl⟩

theorem raise (fault : Fault) : Overlooks disguise (Action.raise fault : Action α) height later :=
  fun _ _ covers _ => ⟨rfl, covers⟩

theorem stuck : Overlooks disguise (getStuck : Action α) height later :=
  fun _ _ covers _ => ⟨rfl, covers⟩

/-- What is seen may differ, as long as what follows does not. -/
theorem looking
    {view : State → α}
    {next : α → Action β}
    (goesOn :
      ∀ plain other,
        disguise.Covers plain other →
        disguise.slot + 1 + height ≤ plain.stack.size →
          (next (view other)).Tracks (next (view plain)) other plain
            (fun result counterpart other after =>
              result = counterpart ∧
                disguise.Covers after other ∧
                disguise.slot + 1 + later ≤ after.stack.size ∧
                after.frames.size = plain.frames.size)
            (fun other after => disguise.Covers after other)) :
    Overlooks disguise (look view >>= next) height later := by
  intro plain other covers room
  apply Tracks.bind
  apply Tracks.look
  exact goesOn plain other covers room

theorem look
    {view : State → α}
    (same : ∀ plain other, disguise.Covers plain other → view other = view plain) :
    Overlooks disguise (Action.look view) height height :=
  fun plain other covers room => ⟨same plain other covers, covers, room, rfl⟩

theorem change
    {step : State → State}
    (covered :
      ∀ plain other, disguise.Covers plain other → disguise.Covers (step plain) (step other))
    (stack : ∀ plain, (step plain).stack.size = plain.stack.size)
    (frames : ∀ plain, (step plain).frames.size = plain.frames.size) :
    Overlooks disguise (Action.change step) height height :=
  fun plain other covers room =>
    ⟨rfl, covered plain other covers, by rw [stack]; exact room, frames plain⟩

theorem push (limits : Limits) (value : Value) :
    Overlooks disguise (push limits value) height (height + 1) := by
  intro plain other covers room
  unfold Tracks Action.push
  rw [covers.size_stack]
  by_cases fits : plain.stack.size < limits.stackCapacity
  · rw [if_pos fits, if_pos fits]
    refine ⟨rfl, covers.push value, ?_, rfl⟩
    rw [Array.size_push]
    omega
  · rw [if_neg fits, if_neg fits]
    exact ⟨rfl, covers⟩

theorem pop : Overlooks disguise pop (height + 1) height := by
  intro plain other covers room
  have last : other.stack.back? = plain.stack.back? := by
    rw [Array.back?_eq_getElem?, Array.back?_eq_getElem?, covers.size_stack]
    exact covers.getElem?_stack (by omega)
  have top : plain.stack.back? = some plain.stack[plain.stack.size - 1] := by
    rw [Array.back?_eq_getElem?, Array.getElem?_eq_getElem]
  unfold Tracks Action.pop
  simp only [last, top]
  refine ⟨trivial, covers.pop (by omega), ?_, trivial⟩
  rw [Array.size_pop]
  omega

theorem peek
    {distance : Nat}
    (inside : distance < height) :
    Overlooks disguise (peek distance) height height := by
  intro plain other covers room
  unfold Tracks Action.peek
  have within : distance < plain.stack.size := by
    omega
  rw [covers.size_stack, if_pos within, if_pos within, covers.getD_stack (by omega)]
  exact ⟨rfl, covers, room, rfl⟩

theorem updateHeap
    {step : Heap → α × Heap}
    (neutral : Heap.Neutral step) :
    Overlooks disguise (updateHeap step) height height :=
  fun _ _ covers room =>
    ⟨(covers.toSurrounds.neutral neutral).1, covers.withHeap neutral, room, rfl⟩

theorem changeHeap
    {step : Heap → Heap}
    (neutral : Heap.Neutral fun heap => ((), step heap)) :
    Overlooks disguise (changeHeap step) height height :=
  fun _ _ covers room => ⟨rfl, covers.withHeap neutral, room, rfl⟩

theorem lookRegistry (view : Registry → α) :
    Overlooks disguise (Action.look fun state => view state.registry) height height :=
  .look fun _ _ covers => congrArg view covers.registry

/-- Whatever does not tell the code of functions can be looked at. -/
theorem lookHeap
    {view : Heap → α}
    (same : ∀ first second : Heap, first.SameButCode second → view second = view first) :
    Overlooks disguise (Action.look fun state => view state.heap) height height :=
  .look fun _ _ covers => same _ _ covers.sameButCode

theorem changeRegistry (step : Registry → Registry) :
    Overlooks disguise (changeRegistry step) height height := by
  intro plain other covers room
  refine ⟨rfl, ?_, room, rfl⟩
  simp only [covers.registry]
  exact covers.withRegistry _

theorem write (text : String) : Overlooks disguise (write text) height height :=
  change (fun _ _ covers => covers.write text) (fun _ => rfl) fun _ => rfl

theorem moveTo (offset : Nat) : Overlooks disguise (moveTo offset) height height :=
  change (fun _ _ covers => covers.moveTo offset) (fun _ => rfl) fun _ => Array.size_modify

end Overlooks

/-! ## Work on the values of a function -/

section Work

variable {environment : Environment} {disguise : Disguise} {height : Nat}

theorem constant_overlooks (index : Nat) : Overlooks disguise (constant index) height height := by
  unfold constant frame
  refine .looking fun plain other covers room => ?_
  have pool := covers.frame_eq.2.2.2.pool
  have same :
      (other.frames.back?.getD default).function.chunk.constant? index =
        (plain.frames.back?.getD default).function.chunk.constant? index :=
    congrArg (fun chunk => chunk.constant? index) pool
  rw [same]
  rcases (plain.frames.back?.getD default).function.chunk.constant? index with _ | value
  · exact Overlooks.raise _ plain other covers room
  · exact Overlooks.pure value plain other covers room

theorem name_overlooks (index : UInt16) : Overlooks disguise (name index) height height := by
  unfold name
  refine .bind (constant_overlooks index.toNat) fun value => ?_
  cases value with
  | string content => exact .pure content
  | _ => exact .raise _

theorem home_overlooks : Overlooks disguise home height height :=
  .look fun _ _ covers => covers.frame_eq.2.2.2.home

theorem moduleSlot_overlooks (slot : Nat) :
    Overlooks disguise (moduleSlot slot) height height := by
  unfold moduleSlot
  refine .bind home_overlooks fun home => ?_
  refine .bind (.lookRegistry fun registry => (registry.moduleAt home).assigned? slot) ?_
  rintro (_ | value)
  · refine .bind home_overlooks fun home => ?_
    refine .bind (.lookRegistry fun registry => (registry.moduleAt home).variableName? slot) ?_
    exact fun _ => .raise _
  · exact .pure value

theorem setModuleSlot_overlooks (slot : Nat) (value : Value) :
    Overlooks disguise (setModuleSlot slot value) height height := by
  unfold setModuleSlot
  exact .bind home_overlooks fun home => .changeRegistry _

theorem moduleVariable_overlooks (moduleId : Nat) (name : String) :
    Overlooks disguise (moduleVariable moduleId name) height height := by
  unfold moduleVariable
  refine .bind
    (.lookRegistry fun registry => (registry.moduleAt moduleId).assignedByName? name) ?_
  rintro (_ | value)
  · exact .raise _
  · exact .pure value

theorem property_overlooks (receiver : Value) (name : String) :
    Overlooks disguise (property receiver name) height height := by
  unfold property
  cases receiver with
  | object id =>
      refine .bind (.lookHeap fun _ _ same => same.field? id name) ?_
      rintro (_ | value)
      · refine .bind (.lookHeap fun _ _ same => congrArg (·.methods[name]?) (same.classOf id)) ?_
        rintro (_ | method)
        · exact .raise _
        · exact .updateHeap fun _ _ => rfl
      · exact .pure value
  | classObject id =>
      refine .bind (.lookHeap fun _ _ same => congrArg (·.statics[name]?) (same.classAt id)) ?_
      rintro (_ | method)
      · exact .raise _
      · exact .updateHeap fun _ _ => rfl
  | moduleHandle id moduleName => exact moduleVariable_overlooks id name
  | _ => exact .raise _

theorem indexable_overlooks (receiver : Value) :
    Overlooks disguise (indexable receiver) height height := by
  unfold indexable
  cases receiver with
  | object id =>
      refine .bind (.lookHeap fun _ _ same => congrArg Object.data (same.objectAt id)) ?_
      rintro (_ | data)
      · exact .raise _
      · refine .bind (.lookHeap fun _ _ same => congrArg Object.locked (same.objectAt id)) ?_
        intro locked
        split
        · exact .raise _
        · split
          · exact .pure _
          · exact .raise _
  | _ => exact .raise _

theorem getIndex_overlooks (receiver index : Value) :
    Overlooks disguise (getIndex receiver index) height height := by
  unfold getIndex
  refine .bind (indexable_overlooks receiver) ?_
  rintro ⟨id, data⟩
  simp only
  split
  · exact .pure _
  · exact .raise _

theorem setIndex_overlooks (receiver index value : Value) :
    Overlooks disguise (setIndex receiver index value) height height := by
  unfold setIndex
  refine .bind (indexable_overlooks receiver) fun found => ?_
  refine .bind (.updateHeap (Heap.neutral_updateData _ _ _)) fun result => ?_
  split
  · exact .pure _
  · exact .raise _

theorem binaryNumeric_overlooks (operation : Float → Float → Value) :
    Overlooks disguise (binaryNumeric environment operation) (height + 2) (height + 1) := by
  unfold binaryNumeric
  refine .bind .pop fun right => .bind .pop fun left => ?_
  cases left with
  | number left =>
      cases right with
      | number right => exact .push _ _
      | _ => exact .raise _
  | _ => exact .raise _

theorem add_overlooks : Overlooks disguise (add environment) (height + 2) (height + 1) := by
  unfold add
  refine .bind .pop fun right => .bind .pop fun left => ?_
  cases sum? left right with
  | some value => exact .push _ value
  | none => exact .raise _

theorem attach_overlooks
    (store : Heap → Nat → String → Value → Heap)
    (neutral : ∀ id name method, Heap.Neutral fun heap => ((), store heap id name method))
    (name : String) :
    Overlooks disguise (attach store name) (height + 2) (height + 1) := by
  unfold attach
  refine .bind .pop fun method => .bind (.peek (Nat.succ_pos height)) fun owner => ?_
  cases owner with
  | classObject id => exact .changeHeap (neutral id name method)
  | _ => exact .raise _

theorem setProperty_overlooks (name : String) :
    Overlooks disguise (setProperty environment name) (height + 2) (height + 1) := by
  unfold setProperty
  refine .bind .pop fun value => .bind .pop fun receiver => ?_
  cases receiver with
  | object id => exact .bind (.changeHeap fun _ _ => rfl) fun _ => .push _ value
  | _ => exact .raise _

end Work

end ScriptEngine.Action
