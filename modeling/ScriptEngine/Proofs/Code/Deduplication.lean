import ScriptEngine.Proofs.Code.Pool
import ScriptEngine.Proofs.Code.Writing

/-!
# Constants are stored once

The pool of a chunk and the index of its numbers and texts stay in step while the chunk is
written: whatever the index gives stands in the pool, and every number and text of the pool
is found by the index (`Chunk.Deduplicated`).  Numbers are told apart by their bits, so the two
zeros are different constants, and so are any two patterns of not-a-number.

The main theorem says what follows for the positions that are handed out, for the pool and
for the limit (`Chunk.constants_are_stored_once`).
-/

namespace ScriptEngine

namespace Constant

/-- Two constants are the same: numbers with the same bits, or texts of the same content. -/
def Same : Constant → Constant → Prop
  | number first, number second => first = second
  | other (.string first) _, other (.string second) _ => first = second
  | _, _ => False

theorem same_iff {first second : Constant} :
    first.Same second ↔ first.key?.isSome = true ∧ first = second := by
  cases first with
  | number => cases second <;> simp [Same, key?]
  | other value =>
      cases second with
      | number => cases value <;> simp [Same]
      | other wanted => cases value <;> cases wanted <;> simp [Same, key?]

end Constant

namespace Chunk

/-- A constant that is neither a number nor a text is never found. -/
theorem findConstant?_of_other
    (chunk : Chunk)
    {constant : Constant}
    (noKey : ¬ constant.key?.isSome = true) :
    chunk.findConstant? constant = none := by
  unfold findConstant?
  rw [Option.not_isSome_iff_eq_none.mp noKey]
  rfl

/-- Pool and index are in step. -/
structure Deduplicated (chunk : Chunk) : Prop where
  remembers : chunk.Remembers
  finds :
    ∀ (constant : Constant) (position : Nat),
      constant.key?.isSome = true →
        chunk.entries[position]? = some constant →
          chunk.findConstant? constant = some position

namespace Deduplicated

variable {chunk other : Chunk} {constant : Constant}

theorem of_blank : Deduplicated {} where
  remembers := remembers_empty
  finds constant position _ here := by simp at here

/-- Pool and index are the same. -/
theorem of_same
    (deduplicated : chunk.Deduplicated)
    (same : other.pool = chunk.pool) :
    other.Deduplicated := by
  obtain ⟨⟨found, bounded⟩, finds⟩ := deduplicated
  rcases chunk with ⟨code, entries, runs, numbers, strings⟩
  rcases other with ⟨code', entries', runs', numbers', strings'⟩
  cases same
  exact ⟨⟨found, bounded⟩, finds⟩

/-- A number or text is missing in the pool if the index does not know it. -/
theorem not_mem
    (deduplicated : chunk.Deduplicated)
    (hasKey : constant.key?.isSome = true)
    (missing : chunk.findConstant? constant = none) :
    constant ∉ chunk.entries := by
  intro member
  obtain ⟨position, here⟩ := Array.mem_iff_getElem?.mp member
  rw [deduplicated.finds constant position hasKey here] at missing
  cases missing

theorem pushConstant
    (deduplicated : chunk.Deduplicated)
    (missing : chunk.findConstant? constant = none)
    (room : chunk.entries.size < maxConstants) :
    (chunk.pushConstant constant).Deduplicated := by
  refine ⟨remembers_pushConstant deduplicated.remembers constant room, ?_⟩
  intro wanted position hasKey here
  rw [entries_pushConstant, Array.getElem?_push] at here
  rw [findConstant?_pushConstant]
  by_cases same : constant = wanted
  · subst same
    rw [if_pos ⟨hasKey, rfl⟩]
    split at here
    · rename_i isLast
      rw [isLast]
    · exact absurd (Array.mem_of_getElem? here) (deduplicated.not_mem hasKey missing)
  · rw [if_neg fun both => same both.2]
    split at here
    · exact absurd (Option.some.inj here) same
    · exact deduplicated.finds wanted position hasKey here

/-- A constant is found, or it is appended, or there is no room for it. -/
theorem addConstant_cases (chunk : Chunk) (constant : Constant) :
    (∃ position,
      chunk.findConstant? constant = some position ∧
        chunk.addConstant constant = (.ok position, chunk)) ∨
    (chunk.findConstant? constant = none ∧ chunk.entries.size < maxConstants ∧
      chunk.addConstant constant = (.ok chunk.entries.size, chunk.pushConstant constant)) ∨
    (chunk.findConstant? constant = none ∧ maxConstants ≤ chunk.entries.size ∧
      chunk.addConstant constant = (.error .tooManyConstants, chunk)) := by
  unfold addConstant
  rcases chunk.findConstant? constant with _ | position
  · rcases Nat.lt_or_ge chunk.entries.size maxConstants with room | full
    · exact .inr (.inl ⟨rfl, room, if_pos room⟩)
    · exact .inr (.inr ⟨rfl, full, if_neg (Nat.not_lt.mpr full)⟩)
  · exact .inl ⟨position, rfl, rfl⟩

theorem addConstant (deduplicated : chunk.Deduplicated) (constant : Constant) :
    (chunk.addConstant constant).2.Deduplicated := by
  rcases addConstant_cases chunk constant with
    ⟨position, -, same⟩ | ⟨missing, room, added⟩ | ⟨-, -, same⟩
  · rwa [same]
  · rw [added]
    exact deduplicated.pushConstant missing room
  · rwa [same]

end Deduplicated

/-! ## While a chunk is written -/

namespace Writing

/-- An operation adds a constant or leaves pool and index as they are. -/
theorem pool_perform (writing : Writing) (operation : Operation) :
    (writing.perform operation).chunk.pool = writing.chunk.pool ∨
      ∃ constant, operation = .addConstant constant := by
  cases operation with
  | write byte line => exact .inl rfl
  | writeWord word line => exact .inl (pool_writeAll _ _ _)
  | openJump operation line => exact .inl (pool_writeAll _ _ _)
  | closeJump jump =>
      left
      show (writing.chunk.patchJump jump.pending).2.pool = _
      unfold patchJump
      simp only
      split <;> rfl
  | emitLoop start line =>
      left
      show (writing.chunk.emitLoop start line).2.pool = _
      unfold Chunk.emitLoop
      simp only
      split
      · exact pool_writeAll _ _ _
      · rfl
  | addConstant constant => exact .inr ⟨constant, rfl⟩

theorem entries_eq_of_pool {chunk other : Chunk} (same : other.pool = chunk.pool) :
    other.entries = chunk.entries :=
  (congrArg Chunk.entries same : other.pool.entries = chunk.pool.entries)

theorem deduplicated_perform
    {writing : Writing}
    (deduplicated : writing.chunk.Deduplicated)
    (operation : Operation) :
    (writing.perform operation).chunk.Deduplicated := by
  rcases writing.pool_perform operation with same | ⟨constant, rfl⟩
  · exact deduplicated.of_same same
  · exact deduplicated.addConstant constant

theorem deduplicated_performAll
    {writing : Writing}
    (deduplicated : writing.chunk.Deduplicated)
    (operations : List Operation) :
    (writing.performAll operations).chunk.Deduplicated := by
  induction operations generalizing writing with
  | nil => exact deduplicated
  | cons operation rest induction => exact induction (deduplicated_perform deduplicated operation)

/-- A constant stays where it is. -/
theorem constant_perform
    {writing : Writing}
    {position : Nat}
    {constant : Constant}
    (here : writing.chunk.entries[position]? = some constant)
    (operation : Operation) :
    (writing.perform operation).chunk.entries[position]? = some constant := by
  rcases writing.pool_perform operation with same | ⟨added, rfl⟩
  · rwa [entries_eq_of_pool same]
  · show (writing.chunk.addConstant added).2.entries[position]? = some constant
    rcases Deduplicated.addConstant_cases writing.chunk added with
      ⟨found, -, same⟩ | ⟨-, -, pushed⟩ | ⟨-, -, same⟩
    · rwa [same]
    · rw [pushed, entries_pushConstant]
      exact getElem?_push_of_some here
    · rwa [same]

theorem constant_performAll
    {writing : Writing}
    {position : Nat}
    {constant : Constant}
    (here : writing.chunk.entries[position]? = some constant)
    (operations : List Operation) :
    (writing.performAll operations).chunk.entries[position]? = some constant := by
  induction operations generalizing writing with
  | nil => exact here
  | cons operation rest induction => exact induction (constant_perform here operation)

/-- After a constant has been added it stands at the position that was handed out. -/
theorem constant_added
    {writing : Writing}
    (deduplicated : writing.chunk.Deduplicated)
    {constant : Constant}
    {position : Nat}
    (added : (writing.chunk.addConstant constant).1 = .ok position)
    (after : List Operation) :
    position < maxConstants ∧
      (writing.performAll (.addConstant constant :: after)).chunk.entries[position]? =
        some constant := by
  have later := deduplicated_perform deduplicated (.addConstant constant)
  have here :
      (writing.perform (.addConstant constant)).chunk.entries[position]? = some constant := by
    show (writing.chunk.addConstant constant).2.entries[position]? = some constant
    rcases Deduplicated.addConstant_cases writing.chunk constant with
      ⟨place, found, same⟩ | ⟨-, -, pushed⟩ | ⟨-, -, full⟩
    · rw [same] at added ⊢
      cases added
      exact deduplicated.remembers.found constant position found
    · rw [pushed] at added ⊢
      cases added
      rw [entries_pushConstant]
      exact Array.getElem?_push_size
    · rw [full] at added
      cases added
  have inside := (Array.getElem?_eq_some_iff.mp here).1
  exact ⟨Nat.lt_of_lt_of_le inside later.remembers.bounded, constant_performAll here after⟩

/-- Two constants that are added have one position exactly if they are the same. -/
theorem same_position_iff
    {writing : Writing}
    (deduplicated : writing.chunk.Deduplicated)
    {first second : Constant}
    {between : List Operation}
    {firstPosition secondPosition : Nat}
    (firstAdded : (writing.chunk.addConstant first).1 = .ok firstPosition)
    (secondAdded :
      ((writing.performAll (.addConstant first :: between)).chunk.addConstant second).1 =
        .ok secondPosition) :
    firstPosition = secondPosition ↔ first.Same second := by
  have later := deduplicated_performAll deduplicated (.addConstant first :: between)
  have firstHere := (constant_added deduplicated firstAdded between).2
  have secondHere := (constant_added later secondAdded []).2
  generalize writing.performAll (.addConstant first :: between) = last at *
  rw [Constant.same_iff]
  constructor
  · rintro rfl
    have same : first = second := by
      have stays := constant_perform firstHere (.addConstant second)
      exact Option.some.inj (stays.symm.trans secondHere)
    refine ⟨?_, same⟩
    -- Of another constant every copy is appended, so it has a new position.
    by_contra noKey
    subst same
    rcases Deduplicated.addConstant_cases last.chunk first with
      ⟨position, found, -⟩ | ⟨-, -, pushed⟩ | ⟨-, -, full⟩
    · rw [findConstant?_of_other _ noKey] at found
      cases found
    · rw [pushed] at secondAdded
      cases secondAdded
      exact absurd (Array.getElem?_eq_some_iff.mp firstHere).1 (Nat.lt_irrefl _)
    · rw [full] at secondAdded
      cases secondAdded
  · rintro ⟨hasKey, rfl⟩
    have found := later.finds first firstPosition hasKey firstHere
    rcases Deduplicated.addConstant_cases last.chunk first with
      ⟨position, isFound, same⟩ | ⟨missing, -, -⟩ | ⟨missing, -, -⟩
    · rw [same] at secondAdded
      cases secondAdded
      exact Option.some.inj (found.symm.trans isFound)
    · rw [found] at missing
      cases missing
    · rw [found] at missing
      cases missing

end Writing

/--
However a chunk is written: a constant that is added gets a position below the limit, where
it stands from then on, a number with its bits.  Two constants that are added get the same
position exactly if they are numbers with the same bits or texts of the same content.  The
pool has no number and no text twice.  A constant is refused exactly if the pool is full and
the constant is no number or text that it has already; the chunk stays as it is then.
-/
theorem constants_are_stored_once (before : List Operation) :
    let chunk := (Writing.blank.performAll before).chunk
    (∀ constant position,
      (chunk.addConstant constant).1 = .ok position →
        position < 65536 ∧
          ∀ after,
            (Writing.blank.performAll (before ++ .addConstant constant :: after)).chunk.entries[
              position]? = some constant) ∧
      (∀ first between second firstPosition secondPosition,
        (chunk.addConstant first).1 = .ok firstPosition →
          ((Writing.blank.performAll
              (before ++ .addConstant first :: between)).chunk.addConstant second).1 =
            .ok secondPosition →
            (firstPosition = secondPosition ↔ first.Same second)) ∧
      (∀ (firstPosition secondPosition : Nat) (first second : Constant),
        chunk.entries[firstPosition]? = some first →
          chunk.entries[secondPosition]? = some second →
            first.Same second → firstPosition = secondPosition) ∧
      (∀ constant,
        (chunk.addConstant constant).1 = .error .tooManyConstants ↔
          chunk.entries.size = 65536 ∧
            ∀ stored ∈ chunk.entries, ¬ stored.Same constant) ∧
      ∀ constant limit,
        (chunk.addConstant constant).1 = .error limit →
          limit = .tooManyConstants ∧ (chunk.addConstant constant).2 = chunk := by
  intro chunk
  have deduplicated : chunk.Deduplicated :=
    Writing.deduplicated_performAll Deduplicated.of_blank before
  refine ⟨?_, ?_, ?_, ?_, ?_⟩
  · intro constant position added
    refine ⟨(Writing.constant_added deduplicated added []).1, fun after => ?_⟩
    rw [Writing.performAll_append]
    exact (Writing.constant_added deduplicated added after).2
  · intro first between second firstPosition secondPosition firstAdded secondAdded
    rw [Writing.performAll_append] at secondAdded
    exact Writing.same_position_iff deduplicated firstAdded secondAdded
  · intro firstPosition secondPosition first second firstHere secondHere same
    obtain ⟨hasKey, rfl⟩ := Constant.same_iff.mp same
    have found := deduplicated.finds first firstPosition hasKey firstHere
    rw [deduplicated.finds first secondPosition hasKey secondHere] at found
    exact (Option.some.inj found).symm
  · intro constant
    have bounded : chunk.entries.size ≤ 65536 := deduplicated.remembers.bounded
    constructor
    · intro refused
      rcases Deduplicated.addConstant_cases chunk constant with
        ⟨position, -, same⟩ | ⟨-, -, pushed⟩ | ⟨missing, full, -⟩
      · rw [same] at refused
        cases refused
      · rw [pushed] at refused
        cases refused
      · refine ⟨Nat.le_antisymm bounded full, fun stored member same => ?_⟩
        obtain ⟨hasKey, rfl⟩ := Constant.same_iff.mp same
        exact deduplicated.not_mem hasKey missing member
    · rintro ⟨full, isNew⟩
      rcases Deduplicated.addConstant_cases chunk constant with
        ⟨position, found, -⟩ | ⟨-, room, -⟩ | ⟨-, -, refused⟩
      · have here := deduplicated.remembers.found constant position found
        have hasKey : constant.key?.isSome = true := by
          by_contra noKey
          rw [findConstant?_of_other _ noKey] at found
          cases found
        exact absurd (Constant.same_iff.mpr ⟨hasKey, rfl⟩)
          (isNew constant (Array.mem_of_getElem? here))
      · exact absurd full (Nat.ne_of_lt room)
      · rw [refused]
  · intro constant limit refused
    rcases Deduplicated.addConstant_cases chunk constant with
      ⟨position, -, same⟩ | ⟨-, -, pushed⟩ | ⟨-, -, same⟩
    · rw [same] at refused
      cases refused
    · rw [pushed] at refused
      cases refused
    · rw [same] at refused ⊢
      cases refused
      exact ⟨rfl, rfl⟩

/-- Two patterns of not-a-number are one value and two constants. -/
theorem patterns_of_nan_are_stored_apart :
    let first := Constant.number 0x7ff8000000000000
    let second := Constant.number 0xfff8000000000000
    let chunk := (Writing.blank.performAll [.addConstant first]).chunk
    first.value = second.value ∧
      (chunk.addConstant second).1 = .ok 1 ∧
        (chunk.addConstant first).1 = .ok 0 ∧ ¬ first.Same second ∧ first.Same first := by
  intro first second chunk
  have added : (Writing.blank.chunk.addConstant first).1 = .ok 0 := rfl
  have positions := (constants_are_stored_once []).2.1
  refine ⟨congrArg Value.number (Float.toBits_inj.mp (by decide +kernel)), rfl, rfl, ?_, ?_⟩
  · intro same
    exact absurd ((positions _ [] _ 0 1 added rfl).mpr same) (by decide)
  · exact (positions _ [] _ 0 0 added rfl).mp rfl

end Chunk

end ScriptEngine
