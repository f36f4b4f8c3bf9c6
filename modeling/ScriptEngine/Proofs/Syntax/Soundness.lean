import ScriptEngine.Proofs.Syntax.Grammar
import ScriptEngine.Proofs.Syntax.Reader

/-!
# What is read is derivable

When an operand of at least a binding power is read, the consumed tokens are an
expression of the level of that power.  The loop over the forms after an operand
carries the level of what has been read so far, and the fact that the form that
comes next can take a left operand of that level (`Follows`).
-/

namespace ScriptEngine

/-- The loosest level of the left operand of a form. -/
def TrailingForm.leftRank : TrailingForm → Nat
  | binary operator => operator.precedence.rank
  | conjunction => 4
  | disjunction => 3
  | call | property | subscript => 9

namespace TrailingForm

theorem rank_binary (operator : BinaryOperator) :
    4 ≤ operator.precedence.rank ∧ operator.precedence.rank ≤ 7 := by
  cases operator <;> decide

/--
The left operand of a form may be of the level of the form, which then is none whose right
operand may have the same level, or must be of a tighter one.
-/
theorem leftRank_cases (form : TrailingForm) :
    (form.leftRank = form.precedence.rank ∧ 3 < form.leftRank ∧ form.leftRank ≠ 8) ∨
      form.leftRank = form.precedence.rank + 1 := by
  cases form with
  | binary operator =>
      have bounds : 4 ≤ (binary operator).leftRank ∧ (binary operator).leftRank ≤ 7 :=
        rank_binary operator
      exact .inl ⟨rfl, by omega, by omega⟩
  | conjunction | disjunction => exact .inr rfl
  | call | property | subscript => exact .inl (by decide)

theorem leftRank_le_of_lt {form : TrailingForm} {rank : Nat} (loose : form.precedence.rank < rank) :
    form.leftRank ≤ rank := by
  have := form.leftRank_cases
  omega

theorem rank_le_leftRank (form : TrailingForm) : form.precedence.rank ≤ form.leftRank := by
  have := form.leftRank_cases
  omega

/-- No binary operator has one of the levels whose right operand may have the same level. -/
theorem rank_lt_of_leftRank_le
    {form : TrailingForm}
    {rank : Nat}
    (bound : form.leftRank ≤ rank)
    (nested : rank ≤ 3 ∨ rank = 8) :
    form.precedence.rank < rank := by
  have := form.leftRank_cases
  omega

end TrailingForm

namespace Syntax

open Reading

/-- The form after an operand that the next token begins. -/
def nextForm? (tokens : List TokenKind) : Option TrailingForm :=
  (tokens.headD .endOfInput).trailing?

/-- What comes next is not part of an expression of the level that has just been read. -/
structure Follows (level : Level) (tree : Expr) (rest : List TokenKind) : Prop where
  loose : ∀ form, nextForm? rest = some form → form.leftRank ≤ level.rank
  notCalled : tree.isProperty = true → startsWith .leftParen rest = false

/-- An operand of at least a binding power ends here. -/
structure Stops (least : Precedence) (rest : List TokenKind) : Prop where
  loose : ∀ form, nextForm? rest = some form → form.precedence.rank < least.rank
  notAssigned : least = .assignment → startsWith .equal rest = false

/-- Whatever a reader of operands accepts is derivable. -/
def OperandReader.Sound (reader : OperandReader) : Prop :=
  ∀ least tokens tree rest,
    least.rank ≤ 8 →
    reader least tokens = done tree rest →
      ∃ consumed,
        tokens = consumed ++ rest ∧
          Derives (.ofPrecedence least) consumed tree ∧
          Stops least rest

theorem eq_cons_of_startsWith
    {mark : Punctuation}
    {tokens : List TokenKind}
    (starts : startsWith mark tokens = true) :
    tokens = .punctuation mark :: tokens.tail := by
  cases tokens with
  | nil => cases starts
  | cons kind rest =>
      cases kind <;> simp_all [startsWith, TokenKind.isMark]

@[simp]
theorem startsWith_cons_self (mark : Punctuation) (tokens : List TokenKind) :
    startsWith mark (.punctuation mark :: tokens) = true := by
  simp [startsWith, TokenKind.isMark]

/-- A mark that had to stand here has been read. -/
theorem expect_eq_done
    {mark : Punctuation}
    {tokens : List TokenKind}
    {next : List TokenKind → Reading α}
    {value : α}
    {rest : List TokenKind}
    (success : expect mark tokens next = done value rest) :
    ∃ following, tokens = .punctuation mark :: following ∧ next following = done value rest := by
  unfold expect at success
  split at success
  · rename_i starts
    exact ⟨tokens.tail, eq_cons_of_startsWith starts, success⟩
  · cases success

theorem follows_of_stops
    {least : Precedence}
    (level : Level)
    {rest : List TokenKind}
    (stops : Stops least rest)
    (bound : least.rank ≤ level.rank)
    (tree : Expr)
    (notProperty : tree.isProperty = false) :
    Follows level tree rest where
  loose form next :=
    Nat.le_trans (TrailingForm.leftRank_le_of_lt (stops.loose form next)) bound
  notCalled isProperty := by
    rw [notProperty] at isProperty
    cases isProperty

/-- Every form can follow a call or something tighter. -/
theorem follows_of_tight
    {level : Level}
    (tight : 9 ≤ level.rank)
    {tree : Expr}
    {rest : List TokenKind}
    (notCalled : tree.isProperty = true → startsWith .leftParen rest = false) :
    Follows level tree rest where
  loose form _ := by
    have bound : form.leftRank ≤ 9 := by
      cases form with
      | binary operator =>
          have := TrailingForm.rank_binary operator
          simp only [TrailingForm.leftRank]
          omega
      | _ => decide
    omega
  notCalled := notCalled

section

variable {operand : OperandReader}

/-- Nothing follows an operand of the loosest power that could belong to an expression. -/
theorem follows_assignment
    {rest : List TokenKind}
    (stops : Stops .assignment rest)
    (level : Level)
    {tree : Expr}
    (notProperty : tree.isProperty = false) :
    Follows level tree rest where
  loose form next := by
    have loose := stops.loose form next
    have power : 1 ≤ form.precedence.rank := by
      generalize form.precedence = power
      cases power <;> decide
    exact absurd loose (Nat.not_lt.mpr power)
  notCalled isProperty := by
    rw [notProperty] at isProperty
    cases isProperty

/-! ## Lists -/

theorem readItems_sound
    (sound : operand.Sound)
    {bound : Nat}
    {items result : List Expr}
    {tokens rest : List TokenKind}
    (enough : tokens.length < bound)
    (success : readItems operand bound items tokens = done result rest) :
    ∃ read : List (List TokenKind × Expr),
      read ≠ [] ∧
        (∀ item ∈ read, Derives .assignment item.1 item.2) ∧
        result = items ++ read.map Prod.snd ∧
        tokens = separated (read.map Prod.fst) ++ rest := by
  induction bound generalizing items tokens with
  | zero => exact absurd enough (Nat.not_lt_zero _)
  | succ bound induction =>
      obtain ⟨tree, between, first, remaining⟩ := andThen_eq_done success
      obtain ⟨consumed, split, derived, -⟩ := sound .assignment _ _ _ (by decide) first
      split at remaining
      · rename_i comma
        have cut := eq_cons_of_startsWith comma
        have shorter : between.tail.length < bound := by
          rw [split, cut] at enough
          simp at enough ⊢
          omega
        obtain ⟨read, nonempty, allDerived, rfl, following⟩ := induction shorter remaining
        refine ⟨(consumed, tree) :: read, List.cons_ne_nil _ _, ?_, by simp, ?_⟩
        · intro item member
          rcases List.mem_cons.mp member with rfl | later
          · exact derived
          · exact allDerived item later
        · obtain ⟨second, others, rfl⟩ := List.exists_cons_of_ne_nil nonempty
          rw [split, cut, following]
          simp [separated]
      · cases remaining
        refine ⟨[(consumed, tree)], List.cons_ne_nil _ _, ?_, by simp, by simp [separated, split]⟩
        intro item member
        rw [List.mem_singleton.mp member]
        exact derived

theorem readList_sound
    (sound : operand.Sound)
    {closing : Punctuation}
    {result : List Expr}
    {tokens rest : List TokenKind}
    (success : readList operand closing tokens = done result rest) :
    ∃ read : List (List TokenKind × Expr),
      (∀ item ∈ read, Derives .assignment item.1 item.2) ∧
        result = read.map Prod.snd ∧
        tokens = separated (read.map Prod.fst) ++ .punctuation closing :: rest := by
  unfold readList at success
  split at success
  · rename_i closed
    cases success
    exact ⟨[], by simp, rfl, eq_cons_of_startsWith closed⟩
  · obtain ⟨items, between, list, ending⟩ := andThen_eq_done success
    obtain ⟨following, cut, finished⟩ := expect_eq_done ending
    cases finished
    obtain ⟨read, -, derived, rfl, split⟩ :=
      readItems_sound sound (Nat.lt_succ_self _) list
    exact ⟨read, derived, by simp, by rw [split, cut]⟩

/-! ## Forms at the beginning of an expression -/

/-- The tokens that begin a form. -/
theorem eq_of_leading
    {kind : TokenKind}
    {form : LeadingForm}
    (leads : kind.leading? = some form) :
    match form with
    | .grouping => kind = .punctuation .leftParen
    | .arrayLiteral => kind = .punctuation .leftBracket
    | .unary operator => ∃ mark, kind = .punctuation mark ∧ unaryOperator? mark = some operator
    | .number value => kind = .number value
    | .string content => kind = .string content
    | .literal instruction =>
        ∃ word literal,
          kind = .keyword word ∧
            literal? word = some (.literal literal) ∧
            Literal.ofInstruction? instruction = some literal
    | .named name => kind = .identifier name
    | .receiver => kind = .keyword .thisWord := by
  cases kind with
  | keyword word =>
      cases word <;> cases leads <;> first | rfl | exact ⟨_, _, rfl, rfl, rfl⟩
  | punctuation mark =>
      cases mark <;> cases leads <;> first | rfl | exact ⟨_, rfl, rfl⟩
  | endOfInput => cases leads
  | _ => cases leads; rfl

theorem readLeading_sound
    (sound : operand.Sound)
    {least : Precedence}
    (few : least.rank ≤ 8)
    {kind : TokenKind}
    {form : LeadingForm}
    (leads : kind.leading? = some form)
    {tokens rest : List TokenKind}
    {tree : Expr}
    (success :
      readLeading operand (decide (least = .assignment)) form tokens = done tree rest) :
    ∃ consumed level,
      tokens = consumed ++ rest ∧
        Derives level (kind :: consumed) tree ∧
        least.rank ≤ level.rank ∧
        Follows level tree rest := by
  have token := eq_of_leading leads
  -- A single token is an expression of the tightest level, which every form can follow.
  have single :
      ∀ tree : Expr,
        tree.isProperty = false →
        Derives .primary [kind] tree →
        ∃ consumed level,
          tokens = consumed ++ tokens ∧
            Derives level (kind :: consumed) tree ∧
            least.rank ≤ level.rank ∧
            Follows level tree tokens := by
    intro tree notProperty derived
    refine ⟨[], .primary, rfl, derived, Nat.le_trans few (by decide),
      follows_of_tight (by decide) ?_⟩
    intro isProperty
    rw [notProperty] at isProperty
    cases isProperty
  cases form with
  | grouping =>
      obtain ⟨inner, between, first, ending⟩ := andThen_eq_done success
      obtain ⟨following, cut, finished⟩ := expect_eq_done ending
      cases finished
      obtain ⟨consumed, split, derived, -⟩ := sound .assignment _ _ _ (by decide) first
      refine ⟨consumed ++ [TokenKind.punctuation .rightParen], .primary, by simp [split, cut], ?_,
        Nat.le_trans few (by decide), follows_of_tight (by decide) (by simp [Expr.isProperty])⟩
      rw [token]
      exact .grouping derived
  | arrayLiteral =>
      obtain ⟨elements, between, list, finished⟩ := andThen_eq_done success
      cases finished
      obtain ⟨read, derived, rfl, split⟩ := readList_sound sound list
      refine ⟨separated (read.map Prod.fst) ++ [TokenKind.punctuation .rightBracket], .primary,
        by simp [split], ?_,
        Nat.le_trans few (by decide), follows_of_tight (by decide) (by simp [Expr.isProperty])⟩
      rw [token]
      exact .array read derived
  | unary operator =>
      obtain ⟨inner, between, first, finished⟩ := andThen_eq_done success
      cases finished
      obtain ⟨consumed, split, derived, stops⟩ := sound .unary _ _ _ (by decide) first
      obtain ⟨mark, rfl, isOperator⟩ := token
      exact ⟨consumed, .unary, split, .unary isOperator derived, few,
        follows_of_stops .unary stops (by decide) _ rfl⟩
  | number value =>
      cases success
      exact single _ rfl (token ▸ .number)
  | string content =>
      cases success
      exact single _ rfl (token ▸ .string)
  | literal instruction =>
      obtain ⟨word, literal, rfl, isLiteral, pushes⟩ := token
      simp only [readLeading, pushes] at success
      cases success
      exact single _ rfl (.word isLiteral)
  | named name =>
      simp only [readLeading] at success
      split at success
      · rename_i assigned
        rw [Bool.and_eq_true, decide_eq_true_eq] at assigned
        obtain ⟨rfl, equal⟩ := assigned
        obtain ⟨value, between, first, finished⟩ := andThen_eq_done success
        cases finished
        obtain ⟨consumed, split, derived, stops⟩ := sound .assignment _ _ _ (by decide) first
        refine ⟨.punctuation .equal :: consumed, .assignment, ?_, ?_, by decide,
          follows_assignment stops _ rfl⟩
        · rw [eq_cons_of_startsWith equal, split]
          rfl
        · rw [token]
          exact .assignName derived
      · cases success
        exact single _ rfl (token ▸ .name)
  | receiver =>
      cases success
      exact single _ rfl (token ▸ .word rfl)

/-! ## Forms after an operand -/

/-- The tokens that begin a form after an operand. -/
theorem eq_of_trailing
    {kind : TokenKind}
    {form : TrailingForm}
    (trailing : kind.trailing? = some form) :
    match form with
    | .binary operator =>
        ∃ mark,
          kind = .punctuation mark ∧
            (Level.ofPrecedence operator.precedence).operator? mark = some operator
    | .conjunction => kind = .keyword .andWord
    | .disjunction => kind = .keyword .orWord
    | .call => kind = .punctuation .leftParen
    | .property => kind = .punctuation .dot
    | .subscript => kind = .punctuation .leftBracket := by
  cases kind with
  | keyword word => cases word <;> cases trailing <;> rfl
  | punctuation mark => cases mark <;> cases trailing <;> first | rfl | exact ⟨_, rfl, rfl⟩
  | _ => cases trailing

section Trailing

variable
  {least : Precedence}
  {level : Level}
  {left result : Expr}
  {earlier tokens rest : List TokenKind}

/-- What is derivable after a form has been read. -/
def Extends
    (least : Precedence)
    (earlier : List TokenKind)
    (kind : TokenKind)
    (tokens : List TokenKind)
    (result : Expr)
    (rest : List TokenKind) :
    Prop :=
  ∃ consumed level,
    tokens = consumed ++ rest ∧
      Derives level (earlier ++ kind :: consumed) result ∧
      least.rank ≤ level.rank ∧
      Follows level result rest

theorem readProperty_sound
    (sound : operand.Sound)
    (few : least.rank ≤ 8)
    (derived : Derives .call earlier left)
    (success :
      readProperty operand (decide (least = .assignment)) left tokens = done result rest) :
    Extends least earlier (.punctuation .dot) tokens result rest := by
  unfold readProperty at success
  split at success
  · rename_i name following
    split at success
    · rename_i assigned
      rw [Bool.and_eq_true, decide_eq_true_eq] at assigned
      obtain ⟨rfl, equal⟩ := assigned
      obtain ⟨value, between, first, finished⟩ := andThen_eq_done success
      cases finished
      obtain ⟨consumed, split, valueDerived, stops⟩ := sound .assignment _ _ _ (by decide) first
      refine ⟨.identifier name :: .punctuation .equal :: consumed, .assignment, ?_,
        .assignProperty derived valueDerived, by decide, follows_assignment stops _ rfl⟩
      rw [eq_cons_of_startsWith equal, split]
      rfl
    · split at success
      · rename_i opened
        obtain ⟨arguments, between, list, finished⟩ := andThen_eq_done success
        cases finished
        obtain ⟨read, argumentsDerived, rfl, split⟩ := readList_sound sound list
        refine ⟨.identifier name :: .punctuation .leftParen ::
          (separated (read.map Prod.fst) ++ [TokenKind.punctuation .rightParen]), .call, ?_,
          .invocation derived read argumentsDerived, Nat.le_trans few (by decide),
          follows_of_tight (by decide) (by simp [Expr.isProperty])⟩
        rw [eq_cons_of_startsWith opened, split]
        simp
      · rename_i unopened
        cases success
        exact ⟨[.identifier name], .call, rfl, .property derived, Nat.le_trans few (by decide),
          follows_of_tight (by decide) (fun _ => Bool.eq_false_iff.mpr unopened)⟩
  · cases success

theorem readSubscript_sound
    (sound : operand.Sound)
    (few : least.rank ≤ 8)
    (derived : Derives .call earlier left)
    (success :
      readSubscript operand (decide (least = .assignment)) left tokens = done result rest) :
    Extends least earlier (.punctuation .leftBracket) tokens result rest := by
  obtain ⟨index, between, first, ending⟩ := andThen_eq_done success
  obtain ⟨following, cut, finished⟩ := expect_eq_done ending
  obtain ⟨indexTokens, split, indexDerived, -⟩ := sound .assignment _ _ _ (by decide) first
  split at finished
  · rename_i assigned
    rw [Bool.and_eq_true, decide_eq_true_eq] at assigned
    obtain ⟨rfl, equal⟩ := assigned
    obtain ⟨value, between, second, finished⟩ := andThen_eq_done finished
    cases finished
    obtain ⟨consumed, valueSplit, valueDerived, stops⟩ :=
      sound .assignment _ _ _ (by decide) second
    refine ⟨indexTokens ++
        TokenKind.punctuation .rightBracket :: TokenKind.punctuation .equal :: consumed,
      .assignment, ?_, .assignSubscript derived indexDerived valueDerived, by decide,
      follows_assignment stops _ rfl⟩
    rw [split, cut, eq_cons_of_startsWith equal, valueSplit]
    simp
  · cases finished
    refine ⟨indexTokens ++ [TokenKind.punctuation .rightBracket], .call, by simp [split, cut],
      .subscript derived indexDerived, Nat.le_trans few (by decide),
      follows_of_tight (by decide) (by simp [Expr.isProperty])⟩

theorem readTrailing_sound
    (sound : operand.Sound)
    (few : least.rank ≤ 8)
    {kind : TokenKind}
    {form : TrailingForm}
    (trailing : kind.trailing? = some form)
    (tight : least.rank ≤ form.precedence.rank)
    (derived : Derives level earlier left)
    (follows : Follows level left (kind :: tokens))
    (success :
      readTrailing operand (decide (least = .assignment)) left form tokens = done result rest) :
    Extends least earlier kind tokens result rest := by
  have token := eq_of_trailing trailing
  have leftRank : form.leftRank ≤ level.rank := follows.loose form trailing
  cases form with
  | binary operator =>
      obtain ⟨right, between, first, finished⟩ := andThen_eq_done success
      cases finished
      obtain ⟨mark, rfl, isOperator⟩ := token
      have bounds := TrailingForm.rank_binary operator
      have power : operator.precedence.tighter.rank = operator.precedence.rank + 1 := by
        cases operator <;> rfl
      obtain ⟨consumed, split, rightDerived, stops⟩ := sound _ _ _ _ (by omega) first
      rw [Level.ofPrecedence_tighter] at rightDerived
      have leftDerived := derived.loosen (.ofPrecedence operator.precedence)
        (by rwa [Level.rank_ofPrecedence])
      refine ⟨consumed, .ofPrecedence operator.precedence, split,
        .binary isOperator leftDerived rightDerived, by rwa [Level.rank_ofPrecedence], ?_, ?_⟩
      · intro form next
        have loose := stops.loose form next
        rw [Level.rank_ofPrecedence]
        cases form <;>
          simp_all [TrailingForm.leftRank, TrailingForm.precedence, Precedence.rank] <;> omega
      · intro isProperty
        cases isProperty
  | conjunction =>
      obtain ⟨right, between, first, finished⟩ := andThen_eq_done success
      cases finished
      cases token
      obtain ⟨consumed, split, rightDerived, stops⟩ := sound .conjunction _ _ _ (by decide) first
      exact ⟨consumed, .conjunction, split,
        .conjunction (derived.loosen _ leftRank) rightDerived, tight,
        follows_of_stops .conjunction stops (by decide) _ rfl⟩
  | disjunction =>
      obtain ⟨right, between, first, finished⟩ := andThen_eq_done success
      cases finished
      cases token
      obtain ⟨consumed, split, rightDerived, stops⟩ := sound .disjunction _ _ _ (by decide) first
      exact ⟨consumed, .disjunction, split,
        .disjunction (derived.loosen _ leftRank) rightDerived, tight,
        follows_of_stops .disjunction stops (by decide) _ rfl⟩
  | call =>
      obtain ⟨arguments, between, list, finished⟩ := andThen_eq_done success
      cases finished
      cases token
      obtain ⟨read, argumentsDerived, rfl, split⟩ := readList_sound sound list
      have notProperty : left.isProperty = false := by
        cases called : left.isProperty with
        | false => rfl
        | true => simpa using follows.notCalled called
      refine ⟨separated (read.map Prod.fst) ++ [TokenKind.punctuation .rightParen], .call,
        by simp [split], .call (derived.loosen _ leftRank) notProperty read argumentsDerived,
        Nat.le_trans few (by decide), follows_of_tight (by decide) (by simp [Expr.isProperty])⟩
  | property =>
      cases token
      exact readProperty_sound sound few (derived.loosen _ leftRank) success
  | subscript =>
      cases token
      exact readSubscript_sound sound few (derived.loosen _ leftRank) success

theorem nextForm?_of_trailingNext?
    {form : TrailingForm}
    (next : trailingNext? least tokens = some form) :
    nextForm? tokens = some form ∧ least.rank ≤ form.precedence.rank := by
  obtain ⟨isForm, tight⟩ := Option.filter_eq_some_iff.mp next
  exact ⟨isForm, of_decide_eq_true tight⟩

theorem eq_cons_of_nextForm?
    {form : TrailingForm}
    (next : nextForm? tokens = some form) :
    ∃ kind, kind.trailing? = some form ∧ tokens = kind :: tokens.tail := by
  cases tokens with
  | nil => cases next
  | cons kind rest => exact ⟨kind, next, rfl⟩

theorem loose_of_trailingNext?
    (next : trailingNext? least tokens = none)
    (form : TrailingForm)
    (isForm : nextForm? tokens = some form) :
    form.precedence.rank < least.rank := by
  have loose := Option.filter_eq_none_iff.mp next form isForm
  simpa using loose

/--
The loop over the forms after an operand.  What has been read so far is an
expression of some level that is at least as tight as needed, and what follows
can be added to it.
-/
theorem readTrailings_sound
    (sound : operand.Sound)
    (few : least.rank ≤ 8)
    {bound : Nat}
    (enough : tokens.length < bound)
    (derived : Derives level earlier left)
    (tight : least.rank ≤ level.rank)
    (follows : Follows level left tokens)
    (success :
      readTrailings operand least (decide (least = .assignment)) bound left tokens =
        done result rest) :
    ∃ consumed,
      tokens = consumed ++ rest ∧
        Derives (.ofPrecedence least) (earlier ++ consumed) result ∧
        ∀ form, nextForm? rest = some form → form.precedence.rank < least.rank := by
  induction bound generalizing level earlier left tokens with
  | zero => exact absurd enough (Nat.not_lt_zero _)
  | succ bound induction =>
      unfold readTrailings at success
      split at success
      · rename_i none
        cases success
        exact ⟨[], rfl, by simpa using derived.loosen _ (by simpa using tight),
          loose_of_trailingNext? none⟩
      · rename_i form next
        obtain ⟨isForm, power⟩ := nextForm?_of_trailingNext? next
        obtain ⟨kind, trailing, cut⟩ := eq_cons_of_nextForm? isForm
        obtain ⟨extended, between, first, remaining⟩ := andThen_eq_done success
        rw [cut] at follows
        obtain ⟨consumed, extendedLevel, split, extendedDerived, extendedTight, extendedFollows⟩ :=
          readTrailing_sound sound few trailing power derived follows first
        have shorter : between.length < bound := by
          rw [cut, split] at enough
          simp at enough
          omega
        obtain ⟨more, moreSplit, final, loose⟩ :=
          induction shorter extendedDerived extendedTight extendedFollows remaining
        refine ⟨kind :: consumed ++ more, ?_, by simpa using final, loose⟩
        rw [cut, split, moreSplit]
        simp

end Trailing

theorem readOperators_sound (sound : operand.Sound) : (readOperators operand).Sound := by
  intro least tokens tree rest few success
  unfold readOperators at success
  split at success
  · cases success
  · rename_i form leads
    obtain ⟨first, afterFirst, leading, remaining⟩ := andThen_eq_done success
    obtain ⟨result, afterResult, trailings, ending⟩ := andThen_eq_done remaining
    split at ending
    · cases ending
    · rename_i target
      cases ending
      obtain ⟨consumed, level, split, derived, tight, follows⟩ :=
        readLeading_sound sound few leads leading
      obtain ⟨more, moreSplit, final, loose⟩ :=
        readTrailings_sound sound few (Nat.lt_succ_self _) derived tight follows trailings
      have cut : tokens = tokens.headD .endOfInput :: tokens.tail := by
        cases tokens with
        | nil => cases leads
        | cons kind rest => rfl
      refine ⟨tokens.headD .endOfInput :: consumed ++ more, ?_, by simpa using final, loose, ?_⟩
      · rw [List.cons_append, List.cons_append, List.append_assoc, ← moreSplit, ← split]
        exact cut
      · rintro rfl
        simpa using target

/-- Whatever is read is derivable. -/
theorem read_sound (levels : Nat) : OperandReader.Sound (read levels) := by
  induction levels with
  | zero =>
      intro least tokens tree rest _ success
      cases success
  | succ levels induction => exact readOperators_sound induction

end

end Syntax

end ScriptEngine
