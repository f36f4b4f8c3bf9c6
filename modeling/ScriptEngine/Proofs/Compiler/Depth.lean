import ScriptEngine.Proofs.Compiler.Effect
import ScriptEngine.Proofs.Compiler.Guarantee
import ScriptEngine.Proofs.Token.Spacing

/-!
# How deep a text can be

Code and operands are opened inside one another while tokens are read, and every two
levels take a token: a compilation that refuses a text for its depth has read about half
as many tokens as there are levels.  There is one exception.  At the end of the input no
token is read, so an operand that is begun there is begun by the token before it once
more, and a mark that an operand must follow leads to the refusal of too deep an
expression, however short the text is.
-/

set_option synthInstance.maxSize 100000

namespace ScriptEngine

/-- Whether the mark begins an operand that consists of more than the mark. -/
def Punctuation.opensOperand : Punctuation → Bool
  | leftParen | leftBracket | minus | bang => true
  | _ => false

/-- The input has ended after a mark that an operand must follow. -/
structure Compilation.CutOff (state : Compilation) : Prop where
  ended : state.current.kind.isEnd
  opened : ∃ mark, state.previous.kind = .punctuation mark ∧ mark.opensOperand

namespace Compiler

/--
A step goes on in the text, and where it stops at the end of the input, it stays.  From a
place with `levels` levels left, it refuses the text for its depth only after enough
tokens, up to `slack`, unless the text is cut off.
-/
structure Paces
    (levels slack : Nat)
    (before : Compilation)
    (problem : Option CompileProblem)
    (after : Compilation) :
    Prop where
  tokens : after.tokens = before.tokens
  forward : before.position ≤ after.position
  inside :
    ∀ place,
      (before.tokens.getD place default).kind.isEnd →
        before.position ≤ place → after.position ≤ place
  stays : before.current.kind.isEnd → after.position = before.position
  code :
    problem = some .codeTooDeep → levels + 2 * before.position ≤ 2 * after.position + slack
  expression :
    problem = some .expressionTooDeep →
      levels + 2 * before.position ≤ 2 * after.position + slack ∨ after.CutOff

namespace Paces

variable {levels slack : Nat} {before between after : Compilation} {problem : Option CompileProblem}

/-- Nothing has been read, and the text has not been refused for its depth. -/
theorem of_same
    (tokens : after.tokens = before.tokens)
    (position : after.position = before.position)
    (code : problem ≠ some .codeTooDeep)
    (expression : problem ≠ some .expressionTooDeep) :
    Paces levels slack before problem after where
  tokens := tokens
  forward := Nat.le_of_eq position.symm
  inside _ _ isIn := by rwa [position]
  stays _ := position
  code isCode := absurd isCode code
  expression isExpression := absurd isExpression expression

theorem current_eq (paces : Paces levels slack before problem after)
    (ended : before.current.kind.isEnd) : after.current = before.current := by
  rw [Compilation.current, Compilation.current, paces.tokens, paces.stays ended]

theorem previous_eq (paces : Paces levels slack before problem after)
    (ended : before.current.kind.isEnd) : after.previous = before.previous := by
  rw [Compilation.previous, Compilation.previous, paces.tokens, paces.stays ended]

/-- A text that is cut off stays so. -/
theorem cutOff (paces : Paces levels slack before problem after) (cutOff : before.CutOff) :
    after.CutOff where
  ended := by
    rw [paces.current_eq cutOff.ended]
    exact cutOff.ended
  opened := by
    rw [paces.previous_eq cutOff.ended]
    exact cutOff.opened

theorem andThen
    (first : Paces levels slack before none between)
    (second : Paces levels slack between problem after) :
    Paces levels slack before problem after where
  tokens := second.tokens.trans first.tokens
  forward := Nat.le_trans first.forward second.forward
  inside place isEnd isIn := by
    refine second.inside place ?_ (first.inside place isEnd isIn)
    rwa [first.tokens]
  stays ended := by
    have stillEnded : between.current.kind.isEnd := by
      rw [first.current_eq ended]
      exact ended
    exact (second.stays stillEnded).trans (first.stays ended)
  code isCode := by
    have enough := second.code isCode
    have forward := first.forward
    omega
  expression isExpression := by
    have forward := first.forward
    rcases second.expression isExpression with enough | cutOff
    · exact .inl (by omega)
    · exact .inr cutOff

/-- With less to ask for, more is granted. -/
theorem weaken
    {fewer more : Nat}
    (paces : Paces levels slack before problem after)
    (enough : fewer + slack ≤ levels + more) :
    Paces fewer more before problem after where
  tokens := paces.tokens
  forward := paces.forward
  inside := paces.inside
  stays := paces.stays
  code isCode := by
    have bound := paces.code isCode
    omega
  expression isExpression := by
    rcases paces.expression isExpression with bound | cutOff
    · exact .inl (by omega)
    · exact .inr cutOff

theorem advance (state : Compilation) : Paces levels slack state none state.advance := by
  by_cases ended : state.current.kind.isEnd
  · rw [Compilation.advance_of_isEnd ended]
    exact of_same rfl rfl nofun nofun
  · have moved : state.advance = { state with position := state.position + 1 } := by
      rw [Compilation.advance, if_neg ended]
    rw [moved]
    exact
      { tokens := rfl
        forward := Nat.le_succ _
        inside := fun place isEnd isIn => by
          apply Nat.lt_of_le_of_ne isIn
          rintro rfl
          exact ended isEnd
        stays := fun isEnd => absurd isEnd ended
        code := nofun
        expression := nofun }

/-- After a token has been read, two more levels are affordable. -/
theorem after_token
    (unfinished : ¬ before.current.kind.isEnd)
    (rest : Paces levels slack before.advance problem after) :
    Paces (levels + 2) slack before problem after := by
  have moved : before.advance.position = before.position + 1 := by
    rw [Compilation.advance, if_neg unfinished]
  have first : Paces levels slack before none before.advance := advance before
  have both := first.andThen rest
  exact
    { tokens := both.tokens
      forward := both.forward
      inside := both.inside
      stays := both.stays
      code := fun isCode => by
        have bound := rest.code isCode
        omega
      expression := fun isExpression => by
        rcases rest.expression isExpression with bound | cutOff
        · exact .inl (by omega)
        · exact .inr cutOff }

end Paces

instance paces_lawful (levels slack : Nat) : Effect.Lawful (Paces levels slack) where
  nothing _ := .of_same rfl rfl nofun nofun
  andThen := Paces.andThen
  advance := Paces.advance
  stop _ problem shallow := by
    refine .of_same rfl rfl ?_ ?_ <;> · rintro ⟨⟩; cases shallow
  write _ _ _ := .of_same rfl rfl nofun nofun
  declare _ _ := .of_same rfl rfl nofun nofun
  finish state := by
    unfold finishFunction
    simp only
    split <;> exact .of_same rfl rfl nofun nofun

namespace Has

variable {levels slack : Nat}

/-- With less to ask for, more is granted. -/
theorem weaken
    {step : Compiler α}
    (paces : Has (Paces levels slack) step)
    {fewer more : Nat}
    (enough : fewer + slack ≤ levels + more) :
    Has (Paces fewer more) step :=
  ⟨fun state => (paces.has state).weaken enough⟩

end Has

/-! ## Steps that are not refused for their depth -/

/-- A step that does not stop with certain problems. -/
def Avoids (excluded : CompileProblem → Prop) : Effect :=
  fun _ problem _ => ∀ stopped, problem = some stopped → ¬ excluded stopped

theorem Avoids.lawful
    {excluded : CompileProblem → Prop}
    (deep : ∀ problem, excluded problem → problem.isTooDeep) :
    (Avoids excluded).Lawful where
  nothing _ := nofun
  andThen _ second := second
  advance _ := nofun
  stop _ problem shallow := by
    rintro _ ⟨⟩ isExcluded
    cases (deep problem isExcluded).symm.trans shallow
  write _ _ _ := nofun
  declare _ _ := nofun
  finish _ := nofun

instance avoidsDepth_lawful : (Avoids (·.isTooDeep)).Lawful :=
  Avoids.lawful fun _ => id

instance avoidsCodeDepth_lawful : (Avoids (· = .codeTooDeep)).Lawful := by
  apply Avoids.lawful
  rintro _ rfl
  rfl

/-- An operand is never refused as code. -/
instance expressionWithin_avoids (levels : Nat) (least : Precedence) :
    Has (Avoids (· = .codeTooDeep)) (expressionWithin levels least) := by
  induction levels generalizing least with
  | zero =>
      constructor
      rintro state _ ⟨⟩
      exact nofun
  | succ levels induction => exact Has.operators least

/-- At the end of the input, a step that is not refused for its depth stays there. -/
theorem guarantees_atEnd
    {step : Compiler α}
    {state : Compilation}
    [paces : Has (Paces 0 0) step]
    [avoids : Has (Avoids (·.isTooDeep)) step]
    (ended : state.current.kind.isEnd) :
    Guarantees step state (fun _ after => after.current.kind.isEnd) (¬ ·.isTooDeep) := by
  have stays := (paces.has state).current_eq ended
  have avoided := avoids.has state
  unfold Guarantees
  rcases outcome : step state with ⟨error | value, after⟩
  · rw [outcome] at avoided
    exact avoided _ rfl
  · rw [outcome] at stays
    simp only at stays ⊢
    rwa [stays]

/-- A token that begins an operand with an operand inside it. -/
theorem opens_of_leading
    {kind : TokenKind}
    {form : LeadingForm}
    (leads : kind.leading? = some form)
    (more : form = .grouping ∨ form = .arrayLiteral ∨ ∃ operator, form = .unary operator) :
    ∃ mark, kind = .punctuation mark ∧ mark.opensOperand := by
  unfold TokenKind.leading? at leads
  split at leads
  case h_8 | h_9 | h_10 | h_11 => exact ⟨_, rfl, rfl⟩
  all_goals
    cases leads
    try simp at more

/-- At the end of the input a name is read and not assigned. -/
theorem guarantees_namedVariable_atEnd
    {operand : OperandCompiler}
    {state : Compilation}
    (ended : state.current.kind.isEnd)
    (name : String)
    (canAssign : Bool) :
    Guarantees (namedVariable operand name canAssign) state
      (fun _ after => after.current.kind.isEnd) (¬ ·.isTooDeep) := by
  refine .bind ((guarantees_atEnd ended).mono (fun reference after ended => ?_) fun _ => id)
  have unassigned :
      Guarantees (if canAssign then matchMark .equal else pure false) after
        (fun assigned last => assigned = false ∧ last.current.kind.isEnd) (¬ ·.isTooDeep) := by
    split
    · refine guarantees_matchKind (fun isEqual => ?_) fun _ => ⟨rfl, ended⟩
      cases kind : after.current.kind with
      | endOfInput =>
          rw [kind] at isEqual
          cases isEqual
      | _ =>
          rw [kind] at ended
          cases ended
    · exact .pure ⟨rfl, ended⟩
  refine .bind (unassigned.mono ?_ fun _ => id)
  rintro _ last ⟨rfl, ended⟩
  rw [if_neg Bool.false_ne_true]
  exact guarantees_atEnd ended

/-- Behind a token that opens no operand, the end of the input is noticed at once. -/
theorem guarantees_operators_atEnd
    {operand : OperandCompiler}
    {state : Compilation}
    (ended : state.current.kind.isEnd)
    (unopened : ¬ ∃ mark, state.previous.kind = .punctuation mark ∧ mark.opensOperand)
    (least : Precedence) :
    Guarantees (operators operand least) state (fun _ _ => True) (¬ ·.isTooDeep) := by
  refine .bind (guarantees_advance ?_)
  rw [Compilation.advance_of_isEnd ended]
  refine .bind (guarantees_look ?_)
  split
  · exact guarantees_fail Bool.false_ne_true
  rename_i form leads
  simp only
  have leading :
      Guarantees (leadingForm operand (decide (least = .assignment)) form) state
        (fun _ after => after.current.kind.isEnd) (¬ ·.isTooDeep) := by
    cases form with
    | grouping => exact absurd (opens_of_leading leads (.inl rfl)) unopened
    | arrayLiteral => exact absurd (opens_of_leading leads (.inr (.inl rfl))) unopened
    | unary operator => exact absurd (opens_of_leading leads (.inr (.inr ⟨_, rfl⟩))) unopened
    | number value => exact (guarantees_atEnd ended : Guarantees (emitConstant _) _ _ _)
    | string content => exact (guarantees_atEnd ended : Guarantees (emitConstant _) _ _ _)
    | literal instruction => exact (guarantees_atEnd ended : Guarantees (emit _) _ _ _)
    | named name => exact guarantees_namedVariable_atEnd ended name _
    | receiver => exact (guarantees_atEnd ended : Guarantees receiver _ _ _)
  refine .bind (leading.mono (fun _ after ended => ?_) fun _ => id)
  -- No form follows, because none begins with the end of the input.
  refine .bind
    ((guarantees_repeatInvariant (fun _ last => last.current.kind.isEnd) ended ?_).mono
      (fun _ last _ => ?_) fun _ => id)
  · intro _ last ended
    refine .bind (guarantees_look ?_)
    have none : last.current.kind.trailing? = none := by
      cases kind : last.current.kind with
      | endOfInput => rfl
      | _ =>
          rw [kind] at ended
          cases ended
    rw [none]
    exact .pure ended
  · refine .bind (guarantees_look ?_)
    split
    · exact guarantees_failAtCurrent Bool.false_ne_true
    · exact .pure trivial

/-! ## The bound -/

/-- After the next token, a step can be refused two levels earlier. -/
theorem paces_advance
    {levels slack : Nat}
    {next : Unit → Compiler α}
    {state : Compilation}
    (rest : Has (Paces levels slack) (next ()))
    (unfinished : ¬ state.current.kind.isEnd) :
    Paces (levels + 2) slack state (problem? ((advance >>= next) state).1)
      ((advance >>= next) state).2 :=
  .after_token unfinished (rest.has state.advance)

/-- Behind a mark that opens an operand, the end of the input is a place of its own. -/
theorem paces_operators_atEnd
    {levels : Nat}
    {operand : OperandCompiler}
    {state : Compilation}
    (within : ∀ least, Has (Paces levels 0) (operand least))
    [∀ least, Has (Avoids (· = .codeTooDeep)) (operand least)]
    (ended : state.current.kind.isEnd)
    (more : Nat)
    (least : Precedence) :
    Paces more 0 state (problem? (operators operand least state).1)
      (operators operand least state).2 := by
  have paces : Has (Paces levels 0) (operators operand least) := inferInstance
  have avoids : Has (Avoids (· = .codeTooDeep)) (operators operand least) := inferInstance
  have stays := paces.has state
  exact
    { tokens := stays.tokens
      forward := stays.forward
      inside := stays.inside
      stays := stays.stays
      code := fun isCode => absurd rfl (avoids.has state _ isCode)
      expression := fun isExpression => by
        by_cases opened : ∃ mark, state.previous.kind = .punctuation mark ∧ mark.opensOperand
        · exact .inr (stays.cutOff ⟨ended, opened⟩)
        · have noticed :
              Guarantees (operators operand least) state (fun _ _ => True) (¬ ·.isTooDeep) :=
            guarantees_operators_atEnd ended opened least
          unfold Guarantees at noticed
          rcases outcome : operators operand least state with ⟨error | value, after⟩
          · rw [outcome] at noticed isExpression
            simp only [problem?, Option.some.injEq] at noticed isExpression
            rw [isExpression] at noticed
            exact absurd rfl noticed
          · rw [outcome] at isExpression
            cases isExpression }

/-- An operand takes one token for every level. -/
instance expressionWithin_paces (levels : Nat) (least : Precedence) :
    Has (Paces levels 0) (expressionWithin levels least) := by
  induction levels generalizing least with
  | zero =>
      constructor
      intro state
      exact
        { tokens := rfl
          forward := Nat.le_refl _
          inside := fun _ _ => id
          stays := fun _ => rfl
          code := nofun
          expression := fun _ => .inl (Nat.le_of_eq (Nat.zero_add _)) }
  | succ levels induction =>
      constructor
      intro state
      by_cases ended : state.current.kind.isEnd
      · exact paces_operators_atEnd (inferInstance : ∀ least, Has (Paces levels 0) _) ended _ least
      · unfold expressionWithin operators
        refine (paces_advance (?_ : Has (Paces levels 0) _) ended).weaken (by omega)
        exact Has.lookLeading inferInstance fun form proper => inferInstance

/-- A step that reads a token if it fits goes on with what the token decides. -/
theorem paces_matchKind
    {levels slack : Nat}
    {test : TokenKind → Bool}
    {found otherwise : Compiler α}
    {state : Compilation}
    (proper : test .endOfInput = false)
    (present : Has (Paces levels (slack + 2)) found)
    (absent :
      Paces levels slack state (problem? (otherwise state).1) (otherwise state).2) :
    Paces levels slack state
      (problem? ((matchKind test >>= fun isFound => if isFound then found else otherwise) state).1)
      ((matchKind test >>= fun isFound => if isFound then found else otherwise) state).2 := by
  by_cases fits : test state.current.kind
  · have unfinished : ¬ state.current.kind.isEnd := by
      intro ended
      cases kind : state.current.kind with
      | endOfInput =>
          rw [kind, proper] at fits
          cases fits
      | _ =>
          rw [kind] at ended
          cases ended
    have reads : matchKind test state = (.ok true, state.advance) := by
      rw [matchKind_apply, if_pos fits]
    have same :
        (matchKind test >>= fun isFound => if isFound then found else otherwise) state =
          found state.advance :=
      bind_of_ok reads
    rw [same]
    exact (Paces.after_token unfinished (present.has state.advance)).weaken (by omega)
  · have same :
        (matchKind test >>= fun isFound => if isFound then found else otherwise) state =
          otherwise state :=
      bind_matchKind_of_not (by simpa using fits)
    rw [same]
    exact absent

/-- Levels that a form of code can open before it reads a token. -/
def CodeForm.opened : CodeForm → Nat
  | .declaration => 2
  | .statement => 1

/-- Code takes one token for every two levels. -/
instance codeWithin_paces (levels : Nat) (form : CodeForm) :
    Has (Paces levels form.opened) (codeWithin levels form) := by
  induction levels generalizing form with
  | zero =>
      constructor
      intro state
      exact
        { tokens := rfl
          forward := Nat.le_refl _
          inside := fun _ _ => id
          stays := fun _ => rfl
          code := fun _ => by
            show 0 + 2 * state.position ≤ 2 * state.position + _
            omega
          expression := nofun }
  | succ levels induction =>
      let inner : Inner := { operand := expressionWithin levels, code := codeWithin levels }
      have operands {slack : Nat} (least : Precedence) :
          Has (Paces levels slack) (inner.operand least) :=
        (expressionWithin_paces levels least).weaken (by omega)
      have codes {slack : Nat} (form : CodeForm) :
          Has (Paces levels (slack + 2)) (inner.code form) :=
        (induction form).weaken (by cases form <;> simp only [CodeForm.opened] <;> omega)
      constructor
      intro state
      cases form with
      | declaration =>
          have paces :
              Paces levels 1 state (problem? (inner.declarationBody state).1)
                (inner.declarationBody state).2 := by
            unfold Inner.declarationBody
            refine paces_matchKind rfl inferInstance ?_
            refine paces_matchKind rfl inferInstance ?_
            refine paces_matchKind rfl inferInstance ?_
            refine paces_matchKind rfl inferInstance ?_
            exact (induction .statement).has state
          exact paces.weaken (Nat.le_refl _)
      | statement =>
          have block :
              Has (Paces levels 2) (do
                enterBlock
                inner.block
                leaveBlock) :=
            inferInstance
          have paces :
              Paces levels 0 state (problem? (inner.statementBody state).1)
                (inner.statementBody state).2 := by
            unfold Inner.statementBody
            refine paces_matchKind rfl inferInstance ?_
            refine paces_matchKind rfl inferInstance ?_
            refine paces_matchKind rfl inferInstance ?_
            refine paces_matchKind rfl inferInstance ?_
            refine paces_matchKind rfl inferInstance ?_
            refine paces_matchKind rfl block ?_
            exact (inferInstance : Has (Paces levels 0) inner.expressionStatement).has state
          exact paces.weaken (Nat.le_refl _)

theorem outerExpression_paces (levels : Nat) (least : Precedence) :
    Has (Paces levels 2) (expressionWithin levels least) :=
  (expressionWithin_paces levels least).weaken (by omega)

theorem outerCode_paces (levels : Nat) (form : CodeForm) :
    Has (Paces levels 2) (codeWithin levels form) :=
  (codeWithin_paces levels form).weaken (by cases form <;> simp only [CodeForm.opened] <;> omega)

/-- The statements of a text take one token for every two levels. -/
theorem outerStatements_paces (levels : Nat) (mode : CompileMode) :
    Has (Paces levels 2) (repeatWhile (topLevel levels mode) none) := by
  have operands := outerExpression_paces levels
  have code := outerCode_paces levels
  infer_instance

/-- A text takes one token for every two levels. -/
theorem script_paces (levels : Nat) (mode : CompileMode) :
    Has (Paces levels 2) (script levels mode) := by
  have operands := outerExpression_paces levels
  have code := outerCode_paces levels
  infer_instance

/-! ## Texts that are cut off -/

/-- The marks that open an operand, with what they begin. -/
theorem leading_of_opens
    {mark : Punctuation}
    (opens : mark.opensOperand) :
    (TokenKind.punctuation mark).leading? = some .grouping ∨
      mark = .leftBracket ∨
      ∃ operator, (TokenKind.punctuation mark).leading? = some (.unary operator) := by
  cases mark
  case leftParen => exact .inl rfl
  case leftBracket => exact .inr (.inl rfl)
  case minus | bang => exact .inr (.inr ⟨_, rfl⟩)
  all_goals cases opens

/-- How a text is refused that is cut off where an operand begins. -/
def CutOffProblem (opening : TokenKind) (problem : CompileProblem) : Prop :=
  problem = .expressionTooDeep ∨
    opening = .punctuation .leftBracket ∧ ∃ reached, problem = .limit reached

/-- A sequence is refused if its first step is. -/
theorem Guarantees.of_first
    {first : Compiler α}
    {next : α → Compiler β}
    {state : Compilation}
    {onSuccess : β → Compilation → Prop}
    {onError : CompileProblem → Prop}
    (refused : Guarantees first state (fun _ _ => False) onError) :
    Guarantees (first >>= next) state onSuccess onError :=
  .bind (refused.mono (fun _ _ impossible => impossible.elim) fun _ => id)

/-- A repeated step is refused if its first round is. -/
theorem guarantees_repeatWhile_of_first
    {round : α → Compiler (Bool × α)}
    {start : α}
    {state : Compilation}
    {onSuccess : α → Compilation → Prop}
    {onError : CompileProblem → Prop}
    (refused : Guarantees (round start) state (fun _ _ => False) onError) :
    Guarantees (repeatWhile round start) state onSuccess onError := by
  refine guarantees_repeatWhile
    (fun bound value before => 0 < bound ∧ value = start ∧ before = state)
    ⟨Nat.succ_pos _, rfl, rfl⟩ ?_ ?_
  · rintro _ _ ⟨⟨⟩, -⟩
  · rintro _ _ _ ⟨-, rfl, rfl⟩
    exact refused.mono (fun _ _ impossible => impossible.elim) fun _ => id

/-- However much room is left, an operand that begins where the text is cut off is refused. -/
theorem guarantees_cutOff
    (levels : Nat)
    (least : Precedence)
    {state : Compilation}
    (cutOff : state.CutOff) :
    Guarantees (expressionWithin levels least) state (fun _ _ => False)
      (CutOffProblem state.previous.kind) := by
  induction levels generalizing least state with
  | zero => exact guarantees_failAtCurrent (.inl rfl)
  | succ levels induction =>
      unfold expressionWithin operators
      refine .bind (guarantees_advance ?_)
      rw [Compilation.advance_of_isEnd cutOff.ended]
      refine .bind (guarantees_look ?_)
      obtain ⟨mark, kind, opens⟩ := cutOff.opened
      rcases leading_of_opens opens with leads | rfl | ⟨operator, leads⟩
      · rw [kind, leads, ← kind]
        exact .bind (.of_first (induction .assignment cutOff))
      · rw [kind]
        have bracket : (TokenKind.punctuation .leftBracket).leading? = some .arrayLiteral := rfl
        simp only [bracket]
        refine .bind (.bind (.bind (guarantees_limitedChunk (fun index chunk _ => ?_) ?_)))
        · refine .pure (.bind (guarantees_emit fun line => .bind (guarantees_emit fun other => ?_)))
          generalize emitted : ((state.withChunk chunk).withChunk _).withChunk _ = opened
          have stays : opened.CutOff := by
            rw [← emitted]
            exact ⟨cutOff.ended, cutOff.opened⟩
          have same : opened.previous.kind = .punctuation .leftBracket := by
            rw [← emitted]
            exact kind
          have open' : ¬ opened.current.kind.isMark .rightBracket := by
            intro closed
            have ended := stays.ended
            cases current : opened.current.kind with
            | punctuation mark =>
                rw [current] at ended
                cases ended
            | _ =>
                rw [current] at closed
                cases closed
          have first := induction .assignment stays
          rw [same] at first
          refine .bind (guarantees_look ?_)
          rw [if_neg open']
          exact .bind (guarantees_repeatWhile_of_first (.of_first first))
        · exact fun reached => .inr ⟨rfl, reached, rfl⟩
      · rw [kind, leads, ← kind]
        exact .bind (.of_first (induction .unary cutOff))

/-- The tokens of a text that is cut off where an operand begins. -/
def EndsOpen (tokens : List Token) : Prop :=
  ∃ earlier opening ending mark,
    tokens = earlier ++ [opening, ending] ∧
      opening.kind = .punctuation mark ∧ mark.opensOperand ∧ ending.kind = .endOfInput

/-- A compilation that has not gone behind the end of the input and has come to it. -/
theorem position_eq_of_ended
    {others : List Token}
    {last : Token}
    {state : Compilation}
    (spelled : Cursor.Spelled others)
    (isEnd : last.kind = .endOfInput)
    (same : state.tokens = (others ++ [last]).toArray)
    (inside : ∀ place, (state.tokens.getD place default).kind.isEnd → state.position ≤ place)
    (ended : state.current.kind.isEnd) :
    state.position = others.length := by
  apply Nat.le_antisymm
  · apply inside
    simp [same, isEnd, TokenKind.isEnd]
  -- No token before the last one ends the input.
  · apply Nat.le_of_not_lt
    intro early
    have spells := spelled _ (List.getElem_mem early)
    have isToken : state.current = others[state.position] := by
      simp [Compilation.current, same, early, Nat.lt_succ_of_lt early]
    rw [isToken, spells.goesOn] at ended
    cases ended

/-- Where a scanned text is refused as cut off, its last token opens an operand. -/
theorem endsOpen_of_cutOff
    {source : String}
    {tokens : Array Token}
    {state : Compilation}
    (scanned : Token.scan source = .ok tokens)
    (same : state.tokens = tokens)
    (inside : ∀ place, (tokens.getD place default).kind.isEnd → state.position ≤ place)
    (cutOff : state.CutOff) :
    EndsOpen tokens.toList := by
  rcases spelled_of_scan scanned with ⟨others, last, rfl, spelled, isEnd, -⟩
  rcases cutOff with ⟨ended, mark, opening, opens⟩
  have place := position_eq_of_ended spelled isEnd same (by rwa [same]) ended
  rw [Compilation.previous, same] at opening
  rw [place] at opening
  rcases List.eq_nil_or_concat others with rfl | ⟨earlier, previous, rfl⟩
  · simp [isEnd] at opening
  · refine ⟨earlier, previous, last, mark, by simp, ?_, opens, isEnd⟩
    simpa using opening

/--
With any limit, a text is refused for the depth of its code only after it has taken a token
for every two levels, and so it is with the depth of an expression unless the text is cut off
where an operand begins.  A text of fewer than 120 tokens is never refused for the depth of
its code, and if it is for the depth of an expression, its last token opens an operand.
-/
theorem depth_follows_tokens
    (mode : CompileMode)
    (table : Module)
    (home firstFunction : Nat) :
    (∀ levels tokens error final,
      script levels mode (start tokens table home firstFunction) = (.error error, final) →
        (error.problem = .codeTooDeep → levels + 1 ≤ 2 * final.position + 3) ∧
          (error.problem = .expressionTooDeep →
            levels + 1 ≤ 2 * final.position + 3 ∨ final.CutOff)) ∧
      ∀ source tokens error,
        Token.scan source = .ok tokens →
          tokens.size ≤ 120 →
            (compile mode source table home firstFunction).functions = .error error →
              error.problem.isTooDeep →
                error.problem = .expressionTooDeep ∧ EndsOpen tokens.toList := by
  have paces {levels : Nat} {tokens : Array Token} {error : CompileError} {final : Compilation}
      (refused :
        script levels mode (start tokens table home firstFunction) = (.error error, final)) :
      Paces levels 2 (start tokens table home firstFunction) (some error.problem) final := by
    have paces := (script_paces levels mode).has (start tokens table home firstFunction)
    rwa [refused] at paces
  have bounded :
      ∀ levels tokens error final,
        script levels mode (start tokens table home firstFunction) = (.error error, final) →
          (error.problem = .codeTooDeep → levels + 1 ≤ 2 * final.position + 3) ∧
            (error.problem = .expressionTooDeep →
              levels + 1 ≤ 2 * final.position + 3 ∨ final.CutOff) := by
    intro levels tokens error final refused
    refine ⟨fun isCode => ?_, fun isExpression => ?_⟩
    · have bound : levels + 2 * 0 ≤ _ := (paces refused).code (congrArg some isCode)
      omega
    · rcases (paces refused).expression (congrArg some isExpression) with bound | cutOff
      · change levels + 2 * 0 ≤ _ at bound
        exact .inl (by omega)
      · exact .inr cutOff
  refine ⟨bounded, ?_⟩
  intro source tokens error scanned few refused deep
  unfold compile at refused
  rw [scanned] at refused
  simp only [compileTokens] at refused
  rcases outcome : script maxNesting mode (start tokens table home firstFunction) with
    ⟨stopped | _, final⟩
  · rw [outcome] at refused
    cases refused
    rcases bounded maxNesting tokens error final outcome with ⟨code, expression⟩
    have inside (place : Nat) (isEnd : (tokens.getD place default).kind.isEnd) :
        final.position ≤ place :=
      (paces outcome).inside place isEnd (Nat.zero_le _)
    have short : final.position ≤ tokens.size := by
      apply inside
      rw [Array.getD_eq_getD_getElem?, Array.getElem?_eq_none (Nat.le_refl _)]
      rfl
    have room : maxNesting = 256 := rfl
    cases problem : error.problem with
    | codeTooDeep =>
        have bound := code problem
        omega
    | expressionTooDeep =>
        rcases expression problem with bound | cutOff
        · omega
        · exact ⟨rfl, endsOpen_of_cutOff scanned (paces outcome).tokens inside cutOff⟩
    | _ =>
        rw [problem] at deep
        cases deep
  · rw [outcome] at refused
    cases refused

/-- A text of two tokens that is cut off behind an opening mark. -/
def cutOffSource : String := "print ("

/-- The tokens of the text. -/
def cutOffTokens : Array Token :=
  #[
    ⟨.keyword .printWord, 0, 5, 1, "print"⟩,
    ⟨.punctuation .leftParen, 6, 7, 1, "("⟩,
    ⟨.endOfInput, 7, 7, 1, ""⟩
  ]

theorem cutOffSource_scanned : Token.scan cutOffSource = .ok cutOffTokens := by
  cbv

/-- The text is refused after its two tokens, with any limit that lets the expression begin. -/
theorem guarantees_cutOffTokens
    (levels : Nat)
    (mode : CompileMode)
    (table : Module)
    (home firstFunction : Nat) :
    Guarantees (script (levels + 3) mode) (start cutOffTokens table home firstFunction)
      (fun _ _ => False) (· = .expressionTooDeep) := by
  -- The word begins a statement, which is a declaration on the outside.
  refine .of_first (guarantees_repeatWhile_of_first (.bind (guarantees_look ?_)))
  refine .bind (guarantees_look ?_)
  rw [if_neg (by rintro ⟨-, ⟨⟩⟩)]
  refine .of_first ?_
  refine .bind (guarantees_matchKind nofun fun _ => ?_)
  refine .bind (guarantees_matchKind nofun fun _ => ?_)
  refine .bind (guarantees_matchKind nofun fun _ => ?_)
  refine .bind (guarantees_matchKind nofun fun _ => ?_)
  refine .bind (guarantees_matchKind (fun _ => ?_) fun absent => absurd rfl absent)
  -- The expression begins with the mark, behind which the text is cut off.
  refine .of_first (.bind (guarantees_advance (.bind (guarantees_look ?_))))
  refine .bind (.of_first ?_)
  have cutOff : (start cutOffTokens table home firstFunction).advance.advance.CutOff :=
    ⟨rfl, .leftParen, rfl, rfl⟩
  refine (guarantees_cutOff levels .assignment cutOff).mono (fun _ _ => id) ?_
  rintro problem (deep | ⟨⟨⟩, -⟩)
  exact deep

theorem script_cutOffTokens
    (mode : CompileMode)
    (table : Module)
    (home firstFunction : Nat) :
    ∃ error final,
      script maxNesting mode (start cutOffTokens table home firstFunction) = (.error error, final) ∧
        error.problem = .expressionTooDeep := by
  have refused := guarantees_cutOffTokens 253 mode table home firstFunction
  unfold Guarantees at refused
  rcases outcome : script (253 + 3) mode (start cutOffTokens table home firstFunction) with
    ⟨error | value, final⟩
  · rw [outcome] at refused
    exact ⟨error, final, outcome, refused⟩
  · rw [outcome] at refused
    cases refused

theorem compile_cutOffSource
    (mode : CompileMode)
    (table : Module)
    (home firstFunction : Nat) :
    ∃ error,
      (compile mode cutOffSource table home firstFunction).functions = .error error ∧
        error.problem = .expressionTooDeep := by
  rcases script_cutOffTokens mode table home firstFunction with ⟨error, final, outcome, deep⟩
  refine ⟨error, ?_, deep⟩
  unfold compile
  rw [cutOffSource_scanned]
  unfold compileTokens
  simp only [outcome]

/--
In both modes a text of two tokens is refused because its expression would be nested too
deeply.
-/
theorem cutOffSource_refused_for_depth :
    Token.scan cutOffSource = .ok cutOffTokens ∧
      cutOffTokens.size = 3 ∧
        ∀ mode table home firstFunction,
          ∃ error,
            (compile mode cutOffSource table home firstFunction).functions = .error error ∧
              error.problem.message = "Expression nested too deeply." := by
  refine ⟨cutOffSource_scanned, rfl, fun mode table home firstFunction => ?_⟩
  rcases compile_cutOffSource mode table home firstFunction with ⟨error, refused, deep⟩
  refine ⟨error, refused, ?_⟩
  rw [deep]
  rfl

/-- The text is refused within the bound or where it is cut off, and it ends in the mark. -/
theorem cutOffSource_ends_open :
    (∃ error final,
      script maxNesting .run (start cutOffTokens { name := "main" } 0 0) = (.error error, final) ∧
        error.problem = .expressionTooDeep ∧
          (maxNesting + 1 ≤ 2 * final.position + 3 ∨ final.CutOff)) ∧
      ∃ error,
        Token.scan cutOffSource = .ok cutOffTokens ∧
          cutOffTokens.size ≤ 120 ∧
            (compile .run cutOffSource { name := "main" } 0 0).functions = .error error ∧
              error.problem.isTooDeep ∧
                error.problem = .expressionTooDeep ∧ EndsOpen cutOffTokens.toList := by
  have depth := depth_follows_tokens .run { name := "main" } 0 0
  rcases script_cutOffTokens .run { name := "main" } 0 0 with
    ⟨stopped, final, outcome, isExpression⟩
  rcases compile_cutOffSource .run { name := "main" } 0 0 with ⟨error, refused, deep⟩
  have isDeep : error.problem.isTooDeep := by
    rw [deep]
    rfl
  refine ⟨⟨stopped, final, outcome, isExpression, ?_⟩, error, cutOffSource_scanned, by decide,
    refused, isDeep, ?_⟩
  · exact (depth.1 maxNesting cutOffTokens stopped final outcome).2 isExpression
  · exact depth.2 cutOffSource cutOffTokens error cutOffSource_scanned (by decide) refused isDeep

end Compiler

end ScriptEngine
