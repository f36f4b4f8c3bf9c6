import Mathlib
import ScriptEngine.Proofs.Machine.Reference

/-!
# Guarded rendering

`Heap.display` passes the containers around a value and the number of levels left down to its
parts.  A renderer with guards keeps them outside: it marks the container it is working on in
the heap and counts the levels (`Heap.render`).  Both give the same text, and the renderer
leaves marks and counter as it found them.

The text is that of a recursive rendering in which a container is replaced by three dots if it
is being rendered already or lies too deep (`Heap.textCutting`).  If no container lies inside
itself and none too deep, nothing is replaced.
-/

namespace ScriptEngine

/-! ## Text of native data -/

namespace NativeData

/-- The text of native data, when each of its parts is rendered by an action. -/
def renderText {m : Type → Type} [Monad m] (render : Value → m String) :
    NativeData → m (Option String)
  | sequence elements => do
    let texts ← elements.toList.mapM render
    return some ("[" ++ String.intercalate ", " texts ++ "]")
  | dictionary entries => do
    let texts ← entries.entries.mapM fun (key, value) => do
      let keyText ← render key
      let valueText ← render value
      return keyText ++ ": " ++ valueText
    return some ("\x7b" ++ String.intercalate ", " texts ++ "\x7d")
  | account balance => return some ("Account(" ++ Number.display balance ++ ")")
  | sealedBox => return none
  | grid _ => return none

/-- The values in native data. -/
def parts : NativeData → List Value
  | sequence elements => elements.toList
  | dictionary entries => entries.entries.flatMap fun (key, value) => [key, value]
  | account _ | sealedBox | grid _ => []

/-- A way in which actions give results, one after the other. -/
structure Gives (m : Type → Type) [Monad m] where
  gives : {α : Type} → m α → α → Prop
  pure : ∀ {α : Type} (result : α), gives (pure result) result
  bind : ∀ {α β : Type} {action : m α} {next : α → m β} {first : α} {second : β},
    gives action first → gives (next first) second → gives (action >>= next) second

variable {m : Type → Type} [Monad m] [LawfulMonad m] (way : Gives m)

theorem Gives.mapM
    {α : Type}
    {act : α → m String}
    {text : α → String}
    (items : List α)
    (each : ∀ item ∈ items, way.gives (act item) (text item)) :
    way.gives (items.mapM act) (items.map text) := by
  induction items with
  | nil => exact way.pure []
  | cons item rest induction =>
      rw [List.mapM_cons]
      refine way.bind (each item List.mem_cons_self) (way.bind ?_ (way.pure _))
      exact induction fun other isOther => each other (List.mem_cons_of_mem _ isOther)

/-- Data whose parts are rendered as texts is rendered as the text made of them. -/
theorem Gives.renderText
    {render : Value → m String}
    {text : Value → String}
    (data : NativeData)
    (each : ∀ part ∈ data.parts, way.gives (render part) (text part)) :
    way.gives (data.renderText render) (data.text? text) := by
  cases data with
  | sequence elements => exact way.bind (way.mapM elements.toList each) (way.pure _)
  | dictionary entries =>
      refine way.bind (way.mapM entries.entries fun entry isEntry => ?_) (way.pure _)
      have isPart (part : Value) (isHere : part ∈ [entry.1, entry.2]) :
          part ∈ (dictionary entries).parts :=
        List.mem_flatMap.mpr ⟨entry, isEntry, isHere⟩
      exact way.bind (each entry.1 (isPart _ (by simp)))
        (way.bind (each entry.2 (isPart _ (by simp))) (way.pure _))
  | account | sealedBox | grid => exact way.pure _

/-- An option gives its content. -/
def Gives.option : Gives Option where
  gives action result := action = some result
  pure _ := rfl
  bind first second := by simp [first, second]

/-- An action gives a result from a state that it leaves as it is. -/
def Gives.keeping {σ : Type} (state : σ) : Gives (StateT σ Option) where
  gives action result := action state = some (result, state)
  pure _ := rfl
  bind first second := by simp [Bind.bind, StateT.bind, first, second]

theorem renderText_keeping
    {σ : Type}
    {state : σ}
    {render : Value → StateT σ Option String}
    {text : Value → String}
    (data : NativeData)
    (each : ∀ part ∈ data.parts, render part state = some (text part, state)) :
    data.renderText render state = some (data.text? text, state) :=
  (Gives.keeping state).renderText data each

theorem renderText_option
    {render : Value → Option String}
    {text : Value → String}
    (data : NativeData)
    (each : ∀ part ∈ data.parts, render part = some (text part)) :
    data.renderText render = some (data.text? text) :=
  Gives.option.renderText data each

end NativeData

namespace Heap

variable (heap : Heap)

/-- An instance with native data, and the data. -/
def container? (value : Value) : Option (Nat × NativeData) :=
  match value.unbound with
  | .object id => (heap.objectAt id).data.map fun data => (id, data)
  | _ => none

/-- How a value is displayed: parts are displayed with one level less. -/
theorem displayWithin_eq (levels : Nat) (enclosing : List Nat) (value : Value) :
    heap.displayWithin levels enclosing value =
      match heap.container? value with
      | none => heap.displayWithin 0 [] value
      | some (id, data) =>
        if (heap.objectAt id).locked || enclosing.contains id then "..."
        else
          match levels with
          | 0 => "..."
          | levels + 1 =>
            (data.text? (heap.displayWithin levels (id :: enclosing))).getD
              (heap.plainText id) := by
  unfold container? displayWithin
  rcases value.unbound with _ | _ | _ | _ | _ | _ | _ | _ | _ | _ | id | _ <;> try rfl
  rcases isData : (heap.objectAt id).data with _ | data <;> simp only [Option.map_none, isData]
  cases levels <;> rfl

/-- Two heaps with the same contents, up to the marks on containers. -/
structure SameContents (first second : Heap) : Prop where
  functions : second.functions = first.functions
  natives : second.natives = first.natives
  classes : second.classes = first.classes
  classId : ∀ id, (second.objectAt id).classId = (first.objectAt id).classId
  data : ∀ id, (second.objectAt id).data = (first.objectAt id).data

variable {heap}

theorem sameContents_setLocked (id : Nat) (inUse : Bool) :
    SameContents heap (heap.setLocked id inUse) where
  functions := rfl
  natives := rfl
  classes := rfl
  classId other := by
    unfold setLocked
    rw [objectAt_modify]
    split <;> rfl
  data other := by
    unfold setLocked
    rw [objectAt_modify]
    split <;> rfl

namespace SameContents

variable {first second : Heap}

theorem container? (same : SameContents first second) (value : Value) :
    second.container? value = first.container? value := by
  unfold Heap.container?
  simp only [same.data]

theorem plainText (same : SameContents first second) (id : Nat) :
    second.plainText id = first.plainText id := by
  unfold Heap.plainText classOf classAt
  rw [same.classes, same.classId]

/-- What is shown depends on the contents and on which containers are in use. -/
theorem displayWithin (same : SameContents first second) {levels : Nat}
    {enclosing enclosing' : List Nat}
    (inUse : ∀ id,
      ((second.objectAt id).locked || enclosing'.contains id) =
        ((first.objectAt id).locked || enclosing.contains id))
    (value : Value) :
    second.displayWithin levels enclosing' value = first.displayWithin levels enclosing value := by
  have function (id : Nat) : second.function id = first.function id := by
    unfold Heap.function
    rw [same.functions]
  have native (id : Nat) : second.native id = first.native id := by
    unfold Heap.native
    rw [same.natives]
  have classAt (id : Nat) : second.classAt id = first.classAt id := by
    unfold Heap.classAt
    rw [same.classes]
  induction levels generalizing enclosing enclosing' value with
  | zero =>
      unfold Heap.displayWithin
      simp only [same.data, inUse, same.plainText, function, native, classAt]
  | succ levels induction =>
      have inside (id : Nat) :
          second.displayWithin levels (id :: enclosing') =
            first.displayWithin levels (id :: enclosing) := by
        funext part
        refine induction (fun other => ?_) part
        rw [List.contains_cons, List.contains_cons, Bool.or_left_comm, inUse other,
          Bool.or_left_comm]
      unfold Heap.displayWithin
      simp only [same.data, inUse, same.plainText, function, native, classAt, inside]

end SameContents

/-- A mark on a container has the effect of its being among the enclosing ones. -/
theorem displayWithin_setLocked {id : Nat} (isObject : id < heap.objects.size) (levels : Nat)
    (enclosing : List Nat) :
    (heap.setLocked id true).displayWithin levels enclosing =
      heap.displayWithin levels (id :: enclosing) := by
  funext value
  refine (sameContents_setLocked id true).displayWithin (fun other => ?_) value
  unfold setLocked
  rw [objectAt_modify, List.contains_cons]
  by_cases isSame : id = other
  · subst isSame
    simp [isObject]
  · simp [isSame, Ne.symm isSame, Bool.or_left_comm]

/-- Removing a mark that was not there before it was set. -/
theorem setLocked_setLocked {id : Nat} (isFree : (heap.objectAt id).locked = false) :
    (heap.setLocked id true).setLocked id false = heap := by
  have same :
      (heap.objects.modify id fun object => { object with locked := true }).modify id
          (fun object => { object with locked := false }) =
        heap.objects := by
    apply Array.ext (by simp)
    intro position inside inHeap
    simp only [Array.getElem_modify]
    split
    · rename_i isSame
      subst isSame
      have isObject : heap.objectAt id = heap.objects[id] := by
        unfold objectAt
        rw [Array.getD_eq_getD_getElem?, Array.getElem?_eq_getElem inHeap, Option.getD_some]
      rw [isObject] at isFree
      simp [← isFree]
    · rfl
  unfold setLocked
  rw [same]

/-! ## A renderer with guards -/

/-- What a rendering changes while it lasts: the marks in the heap and the number of levels. -/
structure Rendering where
  heap : Heap
  depth : Nat

/-- A rendering that may fail for want of fuel. -/
abbrev Renderer := StateT Rendering Option

/-- Marks a container as being in use, or removes the mark. -/
def Rendering.mark (id : Nat) (inUse : Bool) (rendering : Rendering) : Rendering :=
  { rendering with heap := rendering.heap.setLocked id inUse }

/--
Renders a container with an action that renders its parts.  The container is marked for as long
as it is worked on, and the counter is raised for as long as its parts are rendered.
-/
def renderContainer (part : Value → Renderer String) (id : Nat) (data : NativeData) :
    Renderer String := do
  let before ← get
  if (before.heap.objectAt id).locked then
    return "..."
  modify (Rendering.mark id true)
  if maxDisplayDepth ≤ before.depth then
    modify (Rendering.mark id false)
    return "..."
  modify fun rendering => { rendering with depth := rendering.depth + 1 }
  let text? ← data.renderText part
  modify fun rendering => { rendering with depth := rendering.depth - 1 }
  modify (Rendering.mark id false)
  return text?.getD (before.heap.plainText id)

/-- Renders a value; the fuel bounds the depth of the recursion. -/
def render : Nat → Value → Renderer String
  | 0, _ => failure
  | fuel + 1, value => do
    let before ← get
    match before.heap.container? value with
    | none => return before.heap.displayWithin 0 [] value
    | some (id, data) => renderContainer (render fuel) id data

section Guards

variable {part : Value → Renderer String} {id : Nat} {data : NativeData} {rendering : Rendering}

theorem renderContainer_of_locked (isLocked : (rendering.heap.objectAt id).locked = true) :
    renderContainer part id data rendering = some ("...", rendering) := by
  unfold renderContainer
  simp only [Bind.bind, StateT.bind, get, getThe, MonadStateOf.get, StateT.get, pure,
    Option.bind_some, isLocked, if_true]
  rfl

/-- Where no more level is left, the mark is set and removed. -/
theorem renderContainer_of_deep
    (isFree : (rendering.heap.objectAt id).locked = false)
    (isDeep : maxDisplayDepth ≤ rendering.depth) :
    renderContainer part id data rendering = some ("...", rendering) := by
  have same : Rendering.mark id false (Rendering.mark id true rendering) = rendering := by
    unfold Rendering.mark
    rw [setLocked_setLocked isFree]
  unfold renderContainer
  simp only [Bind.bind, StateT.bind, get, getThe, MonadStateOf.get, StateT.get, pure,
    Option.bind_some, isFree, if_pos isDeep, Bool.false_eq_true, if_false]
  exact congrArg (fun after => some ("...", after)) same

/-- While the parts are rendered, the container is marked and the counter is higher by one. -/
theorem renderContainer_of_open
    (isFree : (rendering.heap.objectAt id).locked = false)
    (isShallow : rendering.depth < maxDisplayDepth)
    {text? : Option String}
    (parts :
      data.renderText part
          { heap := rendering.heap.setLocked id true, depth := rendering.depth + 1 } =
        some (text?, { heap := rendering.heap.setLocked id true, depth := rendering.depth + 1 })) :
    renderContainer part id data rendering =
      some (text?.getD (rendering.heap.plainText id), rendering) := by
  have same : Rendering.mark id false (Rendering.mark id true rendering) = rendering := by
    unfold Rendering.mark
    rw [setLocked_setLocked isFree]
  unfold renderContainer
  simp only [Bind.bind, StateT.bind, get, getThe, MonadStateOf.get, StateT.get, pure,
    Option.bind_some, isFree, if_neg (Nat.not_le_of_lt isShallow), Bool.false_eq_true, if_false]
  change (data.renderText part
      { heap := rendering.heap.setLocked id true, depth := rendering.depth + 1 }).bind _ = _
  rw [parts]
  exact congrArg (fun after => some (text?.getD (rendering.heap.plainText id), after)) same

end Guards

theorem lt_size_of_container? {value : Value} {id : Nat} {data : NativeData}
    (isContainer : heap.container? value = some (id, data)) :
    id < heap.objects.size ∧ (heap.objectAt id).data = some data := by
  unfold container? at isContainer
  split at isContainer
  · rename_i other _
    rcases isData : (heap.objectAt other).data with _ | found
    · rw [isData] at isContainer
      cases isContainer
    · rw [isData] at isContainer
      cases isContainer
      refine ⟨Nat.lt_of_not_le fun outside => ?_, isData⟩
      unfold objectAt at isData
      rw [Array.getD_eq_getD_getElem?, Array.getElem?_eq_none outside] at isData
      cases isData
  · cases isContainer

/-- A rendering with guards gives the text that is displayed, and removes its guards. -/
theorem render_eq (rendering : Rendering) (fuel : Nat) (value : Value)
    (fits : rendering.depth ≤ maxDisplayDepth)
    (enough : maxDisplayDepth - rendering.depth < fuel) :
    render fuel value rendering =
      some (rendering.heap.displayWithin (maxDisplayDepth - rendering.depth) [] value,
        rendering) := by
  induction fuel generalizing rendering value with
  | zero => exact absurd enough (Nat.not_lt_zero _)
  | succ fuel induction =>
      rw [displayWithin_eq]
      rcases isContainer : rendering.heap.container? value with _ | ⟨id, data⟩
      · unfold render
        simp only [Bind.bind, StateT.bind, get, getThe, MonadStateOf.get, StateT.get, pure,
          Option.bind_some, isContainer]
        rfl
      have opens : render (fuel + 1) value rendering =
          renderContainer (render fuel) id data rendering := by
        rw [render]
        simp only [Bind.bind, StateT.bind, get, getThe, MonadStateOf.get, StateT.get, pure,
          Option.bind_some, isContainer]
      obtain ⟨isObject, isData⟩ := lt_size_of_container? isContainer
      rw [opens]
      rcases isFree : (rendering.heap.objectAt id).locked with _ | _
      · rcases Nat.lt_or_ge rendering.depth maxDisplayDepth with isShallow | isDeep
        · obtain ⟨levels, isLevels⟩ := Nat.exists_eq_add_of_lt isShallow
          have left : maxDisplayDepth - rendering.depth = levels + 1 := by omega
          have leftInside : maxDisplayDepth - (rendering.depth + 1) = levels := by omega
          have parts :=
            data.renderText_keeping fun part _ =>
              induction
                { heap := rendering.heap.setLocked id true, depth := rendering.depth + 1 } part
                isShallow (by simp only; omega)
          rw [renderContainer_of_open isFree isShallow parts, leftInside,
            displayWithin_setLocked isObject, left]
          simp [isFree]
        · have left : maxDisplayDepth - rendering.depth = 0 := by omega
          rw [renderContainer_of_deep isFree isDeep, left]
          simp
      · rw [renderContainer_of_locked isFree]
        simp [isFree]

/-! ## Rendering with cuts -/

/--
The recursive rendering of a value inside the containers `enclosing`, in which three dots stand
for the containers that are cut.  There is no text if the fuel does not suffice.
-/
def textCutting (heap : Heap) (cut : List Nat → Nat → Bool) :
    Nat → List Nat → Value → Option String
  | 0, _, _ => none
  | fuel + 1, enclosing, value =>
    match heap.container? value with
    | none => some (heap.displayWithin 0 [] value)
    | some (id, data) =>
      if cut enclosing id then
        some "..."
      else do
        let text? ← data.renderText (textCutting heap cut fuel (id :: enclosing))
        return text?.getD (heap.plainText id)

/-- Cuts a container that is being rendered already, or that has too many around it. -/
def cutsDisplay (enclosing : List Nat) (id : Nat) : Bool :=
  enclosing.contains id || enclosing.length == maxDisplayDepth

/-- Cuts nothing. -/
def cutsNothing (_enclosing : List Nat) (_id : Nat) : Bool :=
  false

theorem textCutting_of_leaf {cut : List Nat → Nat → Bool} {enclosing : List Nat} {value : Value}
    (isLeaf : heap.container? value = none) (fuel levels : Nat) :
    heap.textCutting cut (fuel + 1) enclosing value =
      some (heap.displayWithin levels enclosing value) := by
  rw [textCutting, displayWithin_eq heap levels enclosing, isLeaf]

/-- What is displayed is cut where a container lies inside itself or too deep. -/
theorem textCutting_display (isFree : ∀ id, (heap.objectAt id).locked = false)
    {levels : Nat} {enclosing : List Nat} (left : enclosing.length + levels = maxDisplayDepth)
    {fuel : Nat} (enough : levels < fuel) (value : Value) :
    heap.textCutting cutsDisplay fuel enclosing value =
      some (heap.displayWithin levels enclosing value) := by
  induction fuel generalizing levels enclosing value with
  | zero => exact absurd enough (Nat.not_lt_zero _)
  | succ fuel induction =>
      rcases isContainer : heap.container? value with _ | ⟨id, data⟩
      · exact textCutting_of_leaf isContainer fuel levels
      rw [textCutting, displayWithin_eq heap levels enclosing, isContainer]
      simp only [isFree id, Bool.false_or]
      rcases isOuter : enclosing.contains id with _ | _
      · cases levels with
        | zero =>
            have isDeep : cutsDisplay enclosing id = true := by simp [cutsDisplay, ← left]
            simp [isDeep]
        | succ levels =>
            have isOpen : cutsDisplay enclosing id = false := by
              simp only [cutsDisplay, isOuter, Bool.false_or, beq_eq_false_iff_ne]
              omega
            have leftInside : (id :: enclosing).length + levels = maxDisplayDepth := by
              rw [List.length_cons]
              omega
            have parts :=
              data.renderText_option fun part _ =>
                induction leftInside (by omega) part
            simp [isOpen, parts]
      · have isCut : cutsDisplay enclosing id = true := by
          rw [cutsDisplay, isOuter, Bool.true_or]
        simp [isCut]

/-! ## Containers inside containers -/

/-- Containers that lie one inside the other, from the one that a value is inwards. -/
inductive Path (heap : Heap) : Value → List Nat → Prop where
  | nothing {value : Value} : Path heap value []
  | last {value : Value} {id : Nat} {data : NativeData}
      (isContainer : heap.container? value = some (id, data)) :
      Path heap value [id]
  | into {value part : Value} {id : Nat} {data : NativeData} {inside : List Nat}
      (isContainer : heap.container? value = some (id, data))
      (isPart : part ∈ data.parts)
      (rest : Path heap part inside) :
      Path heap value (id :: inside)

/-- No container below a value lies inside itself, and none lies deeper than can be displayed. -/
def Shallow (heap : Heap) (value : Value) : Prop :=
  ∀ inside, heap.Path value inside → inside.Nodup ∧ inside.length ≤ maxDisplayDepth

/-- Nothing is cut where no container lies inside itself or too deep. -/
theorem textCutting_nothing (isFree : ∀ id, (heap.objectAt id).locked = false)
    {levels : Nat} {enclosing : List Nat} {value : Value}
    (shallow :
      ∀ inside, heap.Path value inside →
        (enclosing.reverse ++ inside).Nodup ∧ inside.length ≤ levels)
    {fuel : Nat} (enough : levels < fuel) :
    heap.textCutting cutsNothing fuel enclosing value =
      some (heap.displayWithin levels enclosing value) := by
  induction fuel generalizing levels enclosing value with
  | zero => exact absurd enough (Nat.not_lt_zero _)
  | succ fuel induction =>
      rcases isContainer : heap.container? value with _ | ⟨id, data⟩
      · exact textCutting_of_leaf isContainer fuel levels
      obtain ⟨isNew, isRoom⟩ := shallow [id] (.last isContainer)
      have notOuter : id ∉ enclosing := by
        rw [List.nodup_append] at isNew
        exact fun isOuter => isNew.2.2 id (List.mem_reverse.mpr isOuter) id (by simp) rfl
      obtain ⟨levels, rfl⟩ : ∃ less, levels = less + 1 := ⟨levels - 1, by
        rw [List.length_singleton] at isRoom
        omega⟩
      have parts :
          data.renderText (heap.textCutting cutsNothing fuel (id :: enclosing)) =
            some (data.text? (heap.displayWithin levels (id :: enclosing))) := by
        refine data.renderText_option fun part isPart => induction (fun inside path => ?_) ?_
        · obtain ⟨distinct, short⟩ := shallow (id :: inside) (.into isContainer isPart path)
          rw [List.length_cons] at short
          rw [List.reverse_cons, List.append_assoc]
          exact ⟨distinct, Nat.le_of_succ_le_succ short⟩
        · omega
      rw [textCutting, displayWithin_eq heap (levels + 1) enclosing, isContainer]
      simp [isFree id, notOuter, cutsNothing, parts]

end Heap

/--
Rendering a value ends, with the text that is displayed, and leaves the heap, the marks on
containers and the counter of levels as they were.  The text is the recursive rendering with
three dots in place of every container that is being rendered already or has too many around
it.  If no container below the value lies inside itself or too deep, it is the recursive
rendering itself.
-/
theorem rendering_is_total_and_faithful
    (heap : Heap)
    (isFree : ∀ id, (heap.objectAt id).locked = false)
    (value : Value) :
    (∀ depth, depth ≤ Heap.maxDisplayDepth →
      ∀ fuel, Heap.maxDisplayDepth < fuel → ∃ text,
        Heap.render fuel value { heap, depth } = some (text, { heap, depth })) ∧
    ∀ fuel, Heap.maxDisplayDepth < fuel →
      Heap.render fuel value { heap, depth := 0 } =
          some (heap.display value, { heap, depth := 0 }) ∧
        heap.textCutting Heap.cutsDisplay fuel [] value = some (heap.display value) ∧
        (heap.Shallow value →
          heap.textCutting Heap.cutsNothing fuel [] value = some (heap.display value)) := by
  refine ⟨fun depth fits fuel enough => ?_, fun fuel enough => ⟨?_, ?_, fun shallow => ?_⟩⟩
  · exact ⟨_, Heap.render_eq { heap, depth } fuel value fits (by omega)⟩
  · exact Heap.render_eq { heap, depth := 0 } fuel value (Nat.zero_le _) enough
  · exact Heap.textCutting_display isFree (Nat.zero_add _) enough value
  · have outermost (inside : List Nat) (path : heap.Path value inside) :
        (([] : List Nat).reverse ++ inside).Nodup ∧ inside.length ≤ Heap.maxDisplayDepth :=
      shallow inside path
    exact Heap.textCutting_nothing isFree outermost enough

/-- The heap with an array that lies inside itself and an empty array. -/
def Heap.ofLoop : Heap where
  objects :=
    #[{ classId := 0, data := some (.sequence #[.object 0]) },
      { classId := 0, data := some (.sequence #[]) }]

/-- No container lies inside the empty array. -/
theorem Heap.shallow_ofLoop : Heap.ofLoop.Shallow (.object 1) := by
  rintro inside (_ | isContainer | ⟨isContainer, isPart, -⟩)
  · simp
  · simp [maxDisplayDepth]
  · cases isContainer
    cases isPart

/-- An array inside itself is shown by three dots, and an empty array is shown as it is. -/
theorem render_ofLoop :
    (∀ id, (Heap.ofLoop.objectAt id).locked = false) ∧
      Heap.render 129 (.object 0) { heap := Heap.ofLoop, depth := 0 } =
          some ("[...]", { heap := Heap.ofLoop, depth := 0 }) ∧
        Heap.ofLoop.Shallow (.object 1) ∧
          Heap.ofLoop.textCutting Heap.cutsNothing 129 [] (.object 1) = some "[]" := by
  have isFree (id : Nat) : (Heap.ofLoop.objectAt id).locked = false := by
    rcases id with _ | _ | id <;> rfl
  obtain ⟨-, loops⟩ := rendering_is_total_and_faithful Heap.ofLoop isFree (.object 0)
  obtain ⟨-, ends⟩ := rendering_is_total_and_faithful Heap.ofLoop isFree (.object 1)
  have loopText : Heap.ofLoop.display (.object 0) = "[...]" := by decide
  have emptyText : Heap.ofLoop.display (.object 1) = "[]" := by decide
  rw [loopText] at loops
  rw [emptyText] at ends
  have enough : Heap.maxDisplayDepth < 129 := by decide
  exact ⟨isFree, (loops 129 enough).1, Heap.shallow_ofLoop,
    (ends 129 enough).2.2 Heap.shallow_ofLoop⟩

end ScriptEngine
