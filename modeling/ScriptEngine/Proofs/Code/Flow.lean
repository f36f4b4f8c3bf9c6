import ScriptEngine.Proofs.Code.Encoding

/-!
# The shape of the stack along the code

Every instruction of a function is annotated with what is known about the part
of the stack that belongs to the function when the instruction begins: its
height, and whether a class is known to be at a place where a method can be
attached to it.

`Typed` says of annotated code that wherever it is placed, every instruction
finds what it needs and passes on what the next instructions expect.  Typed code
is put together without looking into it again: one after the other, as the two
branches of a condition, as the body of a loop.
-/

namespace ScriptEngine

/-- Where a class is known to be. -/
inductive Mark where
  /-- Nothing is known. -/
  | plain
  | classOnTop
  /-- The value under the top of the stack is a class. -/
  | classBelowTop
  /-- The module variable that has just been defined is a class. -/
  | classInSlot (slot : UInt16)
deriving Repr, DecidableEq

/-- What is known about the stack of a function at a place of its code. -/
structure Shape where
  /-- Number of values, slot zero included. -/
  height : Nat
  mark : Mark := .plain
deriving Repr, DecidableEq

/-- A height about which nothing more is known. -/
abbrev Shape.plain (height : Nat) : Shape :=
  { height }

namespace Instruction

/-- Number of values at the top of the stack that an instruction reads. -/
def takes : Instruction → Nat
  | pop | setLocal _ | setModule _ | defineModule _ | negateTruth | negate | print
  | jumpIfFalse _ | leave | getProperty _ => 1
  | equal | greater | less | add | subtract | multiply | divide | modulo | method _
  | staticMethod _ | setProperty _ | getIndex => 2
  | setIndex => 3
  | call argumentCount | invoke _ argumentCount => argumentCount.toNat + 1
  | _ => 0

/-- Number of values that stand in their place afterwards. -/
def gives : Instruction → Nat
  | pop | defineModule _ | print | jump _ | loop _ | leave => 0
  | _ => 1

/-- Where a class is known to be after an instruction. -/
def markAfter (shape : Shape) : Instruction → Mark
  | makeClass _ => .classOnTop
  | defineModule slot => if shape.mark = .classOnTop then .classInSlot slot else .plain
  | getModule slot => if shape.mark = .classInSlot slot then .classOnTop else .plain
  | getLocal slot =>
    if shape.mark = .classOnTop ∧ slot.toNat + 1 = shape.height then .classOnTop else .plain
  | constant _ | constantLong _ =>
    if shape.mark = .classOnTop then .classBelowTop else .plain
  | method _ | staticMethod _ => .classOnTop
  | _ => .plain

/-- The shape after an instruction. -/
def after (instruction : Instruction) (shape : Shape) : Shape where
  height := shape.height - instruction.takes + instruction.gives
  mark := instruction.markAfter shape

/-- The offsets at which execution can go on after the instruction at an offset. -/
def successors (offset : Nat) : Instruction → List Nat
  | jump distance => [offset + 3 + distance.toNat]
  | jumpIfFalse distance => [offset + 3, offset + 3 + distance.toNat]
  | loop distance => [offset + 3 - distance.toNat]
  | leave => []
  | instruction => [offset + instruction.length]

/-- Whether the next instruction always follows. -/
def isStraight : Instruction → Bool
  | jump _ | jumpIfFalse _ | loop _ | leave => false
  | _ => true

theorem successors_of_isStraight
    {instruction : Instruction}
    (straight : instruction.isStraight = true)
    (offset : Nat) :
    instruction.successors offset = [offset + instruction.length] := by
  cases instruction <;> first | rfl | cases straight

/-- Whether an instruction attaches a method to a class. -/
def attaches : Instruction → Bool
  | method _ | staticMethod _ => true
  | _ => false

end Instruction

namespace Instruction

/-- Instructions that have nothing to do with classes and are followed by the next one. -/
def isOrdinary : Instruction → Bool
  | jump _ | jumpIfFalse _ | loop _ | leave | makeClass _ | method _ | staticMethod _ => false
  | _ => true

theorem isStraight_of_isOrdinary
    {instruction : Instruction}
    (ordinary : instruction.isOrdinary = true) :
    instruction.isStraight = true := by
  cases instruction <;> first | rfl | cases ordinary

theorem not_attaches_of_isOrdinary
    {instruction : Instruction}
    (ordinary : instruction.isOrdinary = true) :
    instruction.attaches = false := by
  cases instruction <;> first | rfl | cases ordinary

theorem after_plain
    {instruction : Instruction}
    (ordinary : instruction.isOrdinary = true)
    (height : Nat) :
    instruction.after (.plain height) =
      .plain (height - instruction.takes + instruction.gives) := by
  cases instruction <;> first | rfl | cases ordinary

end Instruction

/-- What the operands of instructions can refer to. -/
structure CodeContext where
  constants : Array Value
  /-- Number of variables of the module. -/
  slots : Nat

namespace CodeContext

/-- A name stands at a position among the constants. -/
def HasName (context : CodeContext) (index : UInt16) : Prop :=
  ∃ name, context.constants[index.toNat]? = some (.string name)

/-- The operands of an instruction refer to something, at a given height of the stack. -/
def Admits (context : CodeContext) (height : Nat) : Instruction → Prop
  | .constant index => index.toNat < context.constants.size
  | .constantLong index => index.toNat < context.constants.size
  | .getLocal slot => slot.toNat < height
  | .setLocal slot => slot ≠ 0 ∧ slot.toNat < height
  | .getModule slot | .setModule slot | .defineModule slot => slot.toNat < context.slots
  | .invoke name _ | .makeClass name | .method name | .staticMethod name | .getProperty name
  | .setProperty name | .importModule name => context.HasName name
  | _ => True

/--
The operands of an instruction refer to something, or the instruction reads the slot of the
class of arrays, which a module without built-in classes lacks.
-/
def Accepts (context : CodeContext) (height : Nat) (instruction : Instruction) : Prop :=
  instruction = .getModule 0 ∨ context.Admits height instruction

/-- A later context, with more constants and more variables. -/
structure Extends (earlier later : CodeContext) : Prop where
  constants : earlier.constants.toList <+: later.constants.toList
  slots : earlier.slots ≤ later.slots

namespace Extends

variable {earlier between later : CodeContext}

theorem refl (context : CodeContext) : Extends context context :=
  ⟨List.prefix_refl _, Nat.le_refl _⟩

theorem trans (first : Extends earlier between) (second : Extends between later) :
    Extends earlier later :=
  ⟨first.constants.trans second.constants, Nat.le_trans first.slots second.slots⟩

theorem size_le (extends_ : Extends earlier later) :
    earlier.constants.size ≤ later.constants.size := by
  simpa using extends_.constants.length_le

theorem hasName
    (extends_ : Extends earlier later)
    {index : UInt16}
    (named : earlier.HasName index) :
    later.HasName index := by
  obtain ⟨name, found⟩ := named
  obtain ⟨added, split⟩ := extends_.constants
  refine ⟨name, ?_⟩
  rw [← Array.getElem?_toList] at found ⊢
  obtain ⟨inside, value⟩ := List.getElem?_eq_some_iff.mp found
  rw [← split, List.getElem?_append_left inside, found]

theorem admits
    (extends_ : Extends earlier later)
    {height : Nat}
    {instruction : Instruction}
    (admitted : earlier.Admits height instruction) :
    later.Admits height instruction := by
  have size := extends_.size_le
  have slots := extends_.slots
  cases instruction with
  | constant | constantLong => exact Nat.lt_of_lt_of_le admitted size
  | getModule | setModule | defineModule => exact Nat.lt_of_lt_of_le admitted slots
  | invoke | makeClass | method | staticMethod | getProperty | setProperty | importModule =>
      exact extends_.hasName admitted
  | _ => exact admitted

theorem accepts
    (extends_ : Extends earlier later)
    {height : Nat}
    {instruction : Instruction}
    (accepted : earlier.Accepts height instruction) :
    later.Accepts height instruction :=
  accepted.imp_right extends_.admits

end Extends

/-- With more variables than none, what is accepted refers to something. -/
theorem Accepts.admits
    {context : CodeContext}
    {height : Nat}
    {instruction : Instruction}
    (accepted : context.Accepts height instruction)
    (seeded : 0 < context.slots) :
    context.Admits height instruction := by
  rcases accepted with rfl | admitted
  · exact seeded
  · exact admitted

end CodeContext

theorem toNat_ofNat_of_near {distance : Nat} (near : distance ≤ Chunk.maxDistance) :
    (UInt16.ofNat distance).toNat = distance := by
  rw [UInt16.toNat_ofNat']
  exact Nat.mod_eq_of_lt (Nat.lt_succ_of_le near)

/-- An instruction and the shape of the stack before it. -/
abbrev Annotated := Shape × Instruction

/-- What an instruction at an offset needs, and what it passes on. -/
structure Checked
    (context : CodeContext)
    (shapeAt : Nat → Option Shape)
    (offset : Nat)
    (shape : Shape)
    (instruction : Instruction) :
    Prop where
  /-- Slot zero and what is below it are never read from the top. -/
  takes : instruction.takes < shape.height
  operands : context.Accepts shape.height instruction
  attaches : instruction.attaches = true → shape.mark = .classBelowTop
  /-- A backward jump does not lead past the beginning. -/
  backward : ∀ distance, instruction = .loop distance → distance.toNat ≤ offset + 3
  passes :
    ∀ target ∈ instruction.successors offset,
      shapeAt target = some (instruction.after shape)

namespace Annotated

/-- The instructions without their annotations. -/
def erase (code : List Annotated) : List Instruction :=
  code.map Prod.snd

/-- Number of bytes of annotated code. -/
def size (code : List Annotated) : Nat :=
  Instruction.totalLength (erase code)

/-- The shape at the beginning of code, which is the one after it if the code is empty. -/
def entry (code : List Annotated) (exit : Option Shape) : Option Shape :=
  match code with
  | [] => exit
  | (shape, _) :: _ => some shape

/-- Code stands at an offset: the shapes before every instruction and after the last are known. -/
def Placed (shapeAt : Nat → Option Shape) :
    Nat → List Annotated → Option Shape → Prop
  | offset, [], exit => ∀ shape, exit = some shape → shapeAt offset = some shape
  | offset, (shape, instruction) :: rest, exit =>
    shapeAt offset = some shape ∧ Placed shapeAt (offset + instruction.length) rest exit

/-- Every instruction of the code at an offset is checked. -/
def Flows (context : CodeContext) (shapeAt : Nat → Option Shape) : Nat → List Annotated → Prop
  | _, [] => True
  | offset, (shape, instruction) :: rest =>
    Checked context shapeAt offset shape instruction ∧
      Flows context shapeAt (offset + instruction.length) rest

@[simp]
theorem erase_nil : erase [] = [] := rfl

@[simp]
theorem erase_cons (annotated : Annotated) (rest : List Annotated) :
    erase (annotated :: rest) = annotated.2 :: erase rest := rfl

@[simp]
theorem erase_append (first second : List Annotated) :
    erase (first ++ second) = erase first ++ erase second :=
  List.map_append

@[simp]
theorem size_nil : size [] = 0 := rfl

@[simp]
theorem size_cons (annotated : Annotated) (rest : List Annotated) :
    size (annotated :: rest) = annotated.2.length + size rest := rfl

@[simp]
theorem size_append (first second : List Annotated) :
    size (first ++ second) = size first + size second := by
  simp [size]

variable {context : CodeContext} {shapeAt : Nat → Option Shape}

theorem placed_append
    {offset : Nat}
    {first second : List Annotated}
    {exit : Option Shape} :
    Placed shapeAt offset (first ++ second) exit ↔
      Placed shapeAt offset first (entry second exit) ∧
        Placed shapeAt (offset + size first) second exit := by
  induction first generalizing offset with
  | nil =>
      cases second with
      | nil =>
          simp [Placed, entry]
      | cons annotated rest =>
          simp only [List.nil_append, Placed, entry, Option.some.injEq, forall_eq']
          constructor
          · rintro ⟨here, there⟩
            exact ⟨here, here, there⟩
          · rintro ⟨-, both⟩
            exact both
  | cons annotated rest induction =>
      simp only [List.cons_append, Placed, induction, size_cons]
      rw [and_assoc, Nat.add_assoc]

theorem Placed.entry
    {offset : Nat}
    {code : List Annotated}
    {exit : Option Shape}
    (placed : Placed shapeAt offset code exit)
    {shape : Shape}
    (begins : Annotated.entry code exit = some shape) :
    shapeAt offset = some shape := by
  cases code with
  | nil => exact placed shape begins
  | cons annotated rest =>
      cases begins
      exact placed.1

/-- Less is known after the code. -/
theorem Placed.weaken
    {offset : Nat}
    {code : List Annotated}
    {exit : Option Shape}
    (placed : Placed shapeAt offset code exit) :
    Placed shapeAt offset code none := by
  induction code generalizing offset with
  | nil => exact nofun
  | cons annotated rest induction => exact ⟨placed.1, induction placed.2⟩

/-- What is known about the place behind the code. -/
theorem Placed.exit
    {offset : Nat}
    {code : List Annotated}
    {shape : Shape}
    (placed : Placed shapeAt offset code (some shape)) :
    shapeAt (offset + size code) = some shape := by
  induction code generalizing offset with
  | nil => exact placed shape rfl
  | cons annotated rest induction =>
      rw [size_cons, ← Nat.add_assoc]
      exact induction placed.2

theorem flows_append {offset : Nat} {first second : List Annotated} :
    Flows context shapeAt offset (first ++ second) ↔
      Flows context shapeAt offset first ∧
        Flows context shapeAt (offset + size first) second := by
  induction first generalizing offset with
  | nil => simp [Flows]
  | cons annotated rest induction =>
      simp only [List.cons_append, Flows, induction, size_cons]
      rw [and_assoc, Nat.add_assoc]

/-- Later contexts admit what earlier ones do. -/
theorem Flows.extend
    {later : CodeContext}
    (extends_ : context.Extends later)
    {offset : Nat}
    {code : List Annotated}
    (flows : Flows context shapeAt offset code) :
    Flows later shapeAt offset code := by
  induction code generalizing offset with
  | nil => trivial
  | cons annotated rest induction =>
      obtain ⟨checked, others⟩ := flows
      exact ⟨{ checked with operands := extends_.accepts checked.operands }, induction others⟩

end Annotated

open Annotated

/-- Wherever the code is placed, every instruction is checked. -/
def Typed (context : CodeContext) (code : List Annotated) (exit : Option Shape) : Prop :=
  ∀ shapeAt offset, Placed shapeAt offset code exit → Flows context shapeAt offset code

/-- Typed code that leads from one shape to another. -/
structure Fragment
    (context : CodeContext)
    (first : Shape)
    (code : List Annotated)
    (last : Shape) :
    Prop where
  entry : Annotated.entry code (some last) = some first
  typed : Typed context code (some last)

theorem Typed.append
    {context : CodeContext}
    {first second : List Annotated}
    {exit : Option Shape}
    (firstTyped : Typed context first (entry second exit))
    (secondTyped : Typed context second exit) :
    Typed context (first ++ second) exit := by
  intro shapeAt offset placed
  obtain ⟨firstPlaced, secondPlaced⟩ := placed_append.mp placed
  exact flows_append.mpr
    ⟨firstTyped shapeAt offset firstPlaced, secondTyped shapeAt _ secondPlaced⟩

namespace Fragment

variable
  {context later : CodeContext}
  {first between last : Shape}
  {code others : List Annotated}

theorem extend (fragment : Fragment context first code last) (extends_ : context.Extends later) :
    Fragment later first code last :=
  ⟨fragment.entry, fun shapeAt offset placed =>
    (fragment.typed shapeAt offset placed).extend extends_⟩

theorem nil (context : CodeContext) (shape : Shape) : Fragment context shape [] shape :=
  ⟨rfl, fun _ _ _ => trivial⟩

/-- The beginning of code is that of its first part. -/
theorem entry_append (exit : Option Shape) (fragment : Fragment context first code last)
    (continues : Annotated.entry others exit = some last) :
    Annotated.entry (code ++ others) exit = some first := by
  cases code with
  | nil =>
      cases fragment.entry
      exact continues
  | cons annotated rest => exact fragment.entry

theorem typed_append
    {exit : Option Shape}
    (fragment : Fragment context first code last)
    (continues : Annotated.entry others exit = some last)
    (typed : Typed context others exit) :
    Typed context (code ++ others) exit :=
  Typed.append (continues ▸ fragment.typed) typed

theorem append
    (fragment : Fragment context first code between)
    (following : Fragment context between others last) :
    Fragment context first (code ++ others) last :=
  ⟨entry_append _ fragment following.entry,
    fragment.typed_append following.entry following.typed⟩

/-- An instruction after which the next one follows. -/
theorem single
    {shape : Shape}
    {instruction : Instruction}
    (straight : instruction.isStraight = true)
    (takes : instruction.takes < shape.height)
    (operands : context.Accepts shape.height instruction)
    (attaches : instruction.attaches = true → shape.mark = .classBelowTop) :
    Fragment context shape [(shape, instruction)] (instruction.after shape) := by
  refine ⟨rfl, fun shapeAt offset placed => ⟨⟨takes, operands, attaches, ?_, ?_⟩, trivial⟩⟩
  · rintro distance rfl
    cases straight
  · rw [Instruction.successors_of_isStraight straight]
    intro target member
    rw [List.mem_singleton.mp member]
    exact placed.2 _ rfl

/-- Instructions that keep what is on the stack and need nothing from it. -/
theorem checked_jump
    {shapeAt : Nat → Option Shape}
    {offset height : Nat}
    (distance : UInt16)
    (above : 0 < height)
    (lands : shapeAt (offset + 3 + distance.toNat) = some (.plain height)) :
    Checked context shapeAt offset (.plain height) (.jump distance) := by
  refine ⟨above, .inr trivial, nofun, nofun, fun target member => ?_⟩
  rw [List.mem_singleton.mp member]
  exact lands

theorem checked_jumpIfFalse
    {shapeAt : Nat → Option Shape}
    {offset height : Nat}
    (distance : UInt16)
    (above : 1 < height)
    (falls : shapeAt (offset + 3) = some (.plain height))
    (lands : shapeAt (offset + 3 + distance.toNat) = some (.plain height)) :
    Checked context shapeAt offset (.plain height) (.jumpIfFalse distance) := by
  have same : (Instruction.jumpIfFalse distance).after (.plain height) = .plain height := by
    show Shape.plain (height - 1 + 1) = .plain height
    rw [Nat.sub_add_cancel (Nat.le_of_lt above)]
  refine ⟨above, .inr trivial, nofun, nofun, fun target member => ?_⟩
  rw [same]
  rcases List.mem_cons.mp member with rfl | other
  · exact falls
  · rw [List.mem_singleton.mp other]
    exact lands

theorem checked_loop
    {shapeAt : Nat → Option Shape}
    {offset height : Nat}
    (distance : UInt16)
    (above : 0 < height)
    (near : distance.toNat ≤ offset + 3)
    (lands : shapeAt (offset + 3 - distance.toNat) = some (.plain height)) :
    Checked context shapeAt offset (.plain height) (.loop distance) := by
  refine ⟨above, .inr trivial, nofun, ?_, fun target member => ?_⟩
  · intro other same
    cases same
    exact near
  · rw [List.mem_singleton.mp member]
    exact lands

/-! ## Branches -/

variable {height lower : Nat}

/-- Code that is skipped if the value on top of the stack fails. -/
theorem skip
    (fragment : Fragment context (.plain height) code (.plain height))
    (above : 1 < height)
    (near : size code ≤ Chunk.maxDistance) :
    Fragment context (.plain height)
      ((.plain height, .jumpIfFalse (UInt16.ofNat (size code))) :: code) (.plain height) := by
  refine ⟨rfl, fun shapeAt offset placed => ⟨?_, fragment.typed _ _ placed.2⟩⟩
  refine checked_jumpIfFalse _ above (placed.2.entry fragment.entry) ?_
  rw [toNat_ofNat_of_near near]
  exact placed.2.exit

/-- Two alternatives for a value on top of the stack that is tested. -/
theorem branch
    {consequence alternative : List Annotated}
    (consequenceTyped : Fragment context (.plain height) consequence (.plain lower))
    (alternativeTyped : Fragment context (.plain height) alternative (.plain lower))
    (above : 1 < height)
    (lowerAbove : 0 < lower)
    (consequenceNear : size consequence + 3 ≤ Chunk.maxDistance)
    (alternativeNear : size alternative ≤ Chunk.maxDistance) :
    Fragment context (.plain height)
      ((.plain height, .jumpIfFalse (UInt16.ofNat (size consequence + 3))) ::
        (consequence ++
          (.plain lower, .jump (UInt16.ofNat (size alternative))) :: alternative))
      (.plain lower) := by
  refine ⟨rfl, fun shapeAt offset placed => ?_⟩
  obtain ⟨-, following⟩ := placed
  obtain ⟨consequencePlaced, -, alternativePlaced⟩ := placed_append.mp following
  have length : ∀ distance, (Instruction.jump distance).length = 3 := fun _ => rfl
  simp only [length] at alternativePlaced
  refine ⟨?_, flows_append.mpr ⟨consequenceTyped.typed _ _ consequencePlaced, ?_,
    alternativeTyped.typed _ _ alternativePlaced⟩⟩
  · refine checked_jumpIfFalse _ above
      (consequencePlaced.entry consequenceTyped.entry) ?_
    have landing := alternativePlaced.entry alternativeTyped.entry
    rw [toNat_ofNat_of_near consequenceNear, ← Nat.add_assoc]
    exact landing
  · refine checked_jump _ lowerAbove ?_
    rw [toNat_ofNat_of_near alternativeNear]
    exact alternativePlaced.exit

end Fragment

/-! ## Loops -/

/--
Code that never goes on behind its end and can jump to a place before its
beginning, `back` bytes earlier, where the stack has the same height.
-/
structure Looping (context : CodeContext) (height back : Nat) (code : List Annotated) : Prop where
  entry : Annotated.entry code none = some (.plain height)
  typed :
    ∀ shapeAt offset,
      back ≤ offset →
      shapeAt (offset - back) = some (.plain height) →
      Placed shapeAt offset code none →
        Flows context shapeAt offset code

namespace Looping

variable
  {context : CodeContext}
  {height back : Nat}
  {body increment condition code : List Annotated}

theorem extend
    {later : CodeContext}
    (looping : Looping context height back code)
    (extends_ : context.Extends later) :
    Looping later height back code :=
  ⟨looping.entry, fun shapeAt offset room start placed =>
    (looping.typed shapeAt offset room start placed).extend extends_⟩

/-- A body after which the loop begins again. -/
theorem body_only
    (bodyTyped : Fragment context (.plain height) body (.plain height))
    (above : 0 < height)
    (near : back + size body + 3 ≤ Chunk.maxDistance) :
    Looping context height back
      (body ++ [(.plain height, .loop (UInt16.ofNat (back + size body + 3)))]) := by
  refine ⟨Fragment.entry_append none bodyTyped rfl, ?_⟩
  intro shapeAt offset room start placed
  obtain ⟨bodyPlaced, loopPlaced⟩ := placed_append.mp placed
  refine flows_append.mpr ⟨bodyTyped.typed _ _ bodyPlaced, ?_, trivial⟩
  refine Fragment.checked_loop _ above ?_ ?_
  · rw [toNat_ofNat_of_near near]
    omega
  · rw [toNat_ofNat_of_near near]
    have target : offset + size body + 3 - (back + size body + 3) = offset - back := by omega
    rw [target]
    exact start

/-- A body after which an increment is executed, which stands before the body. -/
theorem with_increment
    (incrementTyped : Fragment context (.plain height) increment (.plain height))
    (bodyTyped : Fragment context (.plain height) body (.plain height))
    (above : 0 < height)
    (startNear : back + 3 + size increment + 3 ≤ Chunk.maxDistance)
    (bodyNear : size increment + 3 + size body + 3 ≤ Chunk.maxDistance) :
    Looping context height back
      ((.plain height, .jump (UInt16.ofNat (size increment + 3))) ::
        (increment ++
          (.plain height, .loop (UInt16.ofNat (back + 3 + size increment + 3))) ::
            (body ++
              [(.plain height,
                .loop (UInt16.ofNat (size increment + 3 + size body + 3)))]))) := by
  have skipNear : size increment + 3 ≤ Chunk.maxDistance := by omega
  refine ⟨rfl, ?_⟩
  intro shapeAt offset room start placed
  obtain ⟨-, following⟩ := placed
  obtain ⟨incrementPlaced, -, rest⟩ := placed_append.mp following
  obtain ⟨bodyPlaced, -⟩ := placed_append.mp rest
  have jumpLength : ∀ distance, (Instruction.jump distance).length = 3 := fun _ => rfl
  have loopLength : ∀ distance, (Instruction.loop distance).length = 3 := fun _ => rfl
  simp only [jumpLength, loopLength] at incrementPlaced rest bodyPlaced
  have bodyEntry := bodyPlaced.entry bodyTyped.entry
  have incrementEntry := incrementPlaced.entry incrementTyped.entry
  refine ⟨?_, flows_append.mpr ⟨incrementTyped.typed _ _ incrementPlaced, ?_,
    flows_append.mpr ⟨bodyTyped.typed _ _ bodyPlaced, ?_, trivial⟩⟩⟩
  · refine Fragment.checked_jump _ above ?_
    rw [toNat_ofNat_of_near skipNear, ← Nat.add_assoc]
    exact bodyEntry
  · refine Fragment.checked_loop _ above ?_ ?_
    · rw [toNat_ofNat_of_near startNear, jumpLength]
      omega
    · rw [toNat_ofNat_of_near startNear, jumpLength]
      have target :
          offset + 3 + size increment + 3 - (back + 3 + size increment + 3) = offset - back := by
        omega
      rw [target]
      exact start
  · simp only [jumpLength, loopLength]
    refine Fragment.checked_loop _ above ?_ ?_
    · rw [toNat_ofNat_of_near bodyNear]
      omega
    · rw [toNat_ofNat_of_near bodyNear]
      have target :
          offset + 3 + size increment + 3 + size body + 3 -
              (size increment + 3 + size body + 3) = offset + 3 := by
        omega
      rw [target]
      exact incrementEntry

theorem entry_of_some (looping : Looping context height back code) (exit : Option Shape) :
    Annotated.entry code exit = some (.plain height) := by
  have entry := looping.entry
  cases code with
  | nil => cases entry
  | cons annotated rest => exact entry

/-- A loop without a condition. -/
theorem forever (looping : Looping context height 0 code) (exit : Shape) :
    Fragment context (.plain height) code exit := by
  refine ⟨looping.entry_of_some _, fun shapeAt offset placed => ?_⟩
  exact looping.typed shapeAt offset (Nat.zero_le _) (placed.entry (looping.entry_of_some _))
    placed.weaken

/-- A loop that is left when its condition fails. -/
theorem conditional
    (conditionTyped : Fragment context (.plain height) condition (.plain (height + 1)))
    (looping : Looping context height (size condition + 4) code)
    (above : 0 < height)
    (near : size code + 1 ≤ Chunk.maxDistance) :
    Fragment context (.plain height)
      (condition ++
        (.plain (height + 1), .jumpIfFalse (UInt16.ofNat (size code + 1))) ::
          (.plain (height + 1), .pop) :: (code ++ [(.plain (height + 1), .pop)]))
      (.plain height) := by
  have popped :
      Fragment context (.plain (height + 1)) [(.plain (height + 1), .pop)] (.plain height) :=
    Fragment.single rfl (Nat.succ_lt_succ above) (.inr trivial) nofun
  refine ⟨conditionTyped.entry_append _ rfl, fun shapeAt offset placed => ?_⟩
  obtain ⟨conditionPlaced, -, popPlaced, following⟩ := placed_append.mp placed
  obtain ⟨codePlaced, leavePlaced⟩ := placed_append.mp following
  have jumpLength : ∀ distance, (Instruction.jumpIfFalse distance).length = 3 := fun _ => rfl
  have popLength : Instruction.pop.length = 1 := rfl
  simp only [jumpLength, popLength] at popPlaced codePlaced leavePlaced
  refine flows_append.mpr ⟨conditionTyped.typed _ _ conditionPlaced, ?_, ?_, ?_⟩
  · refine Fragment.checked_jumpIfFalse _ (Nat.succ_lt_succ above) popPlaced ?_
    rw [toNat_ofNat_of_near near]
    have target :
        offset + size condition + 3 + (size code + 1) =
          offset + size condition + 3 + 1 + size code := by
      omega
    rw [target]
    exact leavePlaced.1
  · have codeEntry := codePlaced.entry (looping.entry_of_some _)
    exact (popped.typed shapeAt _ ⟨popPlaced, by rintro shape ⟨⟩; exact codeEntry⟩).1
  · simp only [jumpLength, popLength]
    refine flows_append.mpr ⟨looping.typed shapeAt _ (by omega) ?_ codePlaced.weaken,
      popped.typed shapeAt _ leavePlaced⟩
    have target :
        offset + size condition + 3 + 1 - (size condition + 4) = offset := by
      omega
    rw [target]
    exact conditionPlaced.entry conditionTyped.entry

end Looping

end ScriptEngine
