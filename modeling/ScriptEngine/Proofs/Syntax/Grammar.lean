import ScriptEngine.Proofs.Syntax.Tree

/-!
# The grammar of expressions

The grammar has one nonterminal for every level of binding, loosest first:

    assignment  → NAME "=" assignment
                | call "." NAME "=" assignment
                | call "[" assignment "]" "=" assignment
                | disjunction
    disjunction → conjunction "or" disjunction | conjunction
    conjunction → equality "and" conjunction | equality
    equality    → equality ("==" | "!=") comparison | comparison
    comparison  → comparison (">" | ">=" | "<" | "<=") term | term
    term        → term ("+" | "-") factor | factor
    factor      → factor ("*" | "/" | "%") unary | unary
    unary       → ("-" | "!") unary | call
    call        → call "(" list ")" | call "." NAME "(" list ")"
                | call "." NAME | call "[" assignment "]" | primary
    primary     → NUMBER | STRING | "true" | "false" | "null" | NAME | "this"
                | "(" assignment ")" | "[" list "]"
    list        → nothing | assignment ("," assignment)*

A property that is called at once is one node, so the callee of a plain call is
never a bare property.  The grammar mentions neither the tables of forms nor the
binding powers that the compiler goes by.
-/

namespace ScriptEngine.Syntax

/-- The levels of the grammar, loosest first. -/
inductive Level where
  | assignment
  | disjunction
  | conjunction
  | equality
  | comparison
  | term
  | factor
  | unary
  | call
  | primary
deriving Repr, DecidableEq

namespace Level

/-- The level whose expressions stand for themselves at a level. -/
def next : Level → Level
  | assignment => disjunction
  | disjunction => conjunction
  | conjunction => equality
  | equality => comparison
  | comparison => term
  | term => factor
  | factor => unary
  | unary => call
  | call | primary => primary

/-- The binary operators of a level, all of which group to the left. -/
def operator? : Level → Punctuation → Option BinaryOperator
  | equality, .equalEqual => some .equal
  | equality, .bangEqual => some .notEqual
  | comparison, .greater => some .greater
  | comparison, .greaterEqual => some .greaterEqual
  | comparison, .less => some .less
  | comparison, .lessEqual => some .lessEqual
  | term, .plus => some .plus
  | term, .minus => some .minus
  | factor, .star => some .times
  | factor, .slash => some .dividedBy
  | factor, .percent => some .remainder
  | _, _ => none

end Level

/-- The operators with one operand. -/
def unaryOperator? : Punctuation → Option UnaryOperator
  | .minus => some .negative
  | .bang => some .complement
  | _ => none

/-- The words that are expressions by themselves. -/
def literal? : Keyword → Option Expr
  | .trueWord => some (.literal .trueWord)
  | .falseWord => some (.literal .falseWord)
  | .nullWord => some (.literal .nullWord)
  | .thisWord => some .receiver
  | _ => none

/-- Sequences of tokens with commas between them. -/
def separated : List (List TokenKind) → List TokenKind
  | [] => []
  | [only] => only
  | first :: second :: rest => first ++ .punctuation .comma :: separated (second :: rest)

/-- `Derives level tokens tree`: the tokens are an expression of a level, with the given tree. -/
inductive Derives : Level → List TokenKind → Expr → Prop where
  | assignName
      {name : String} {value : List TokenKind} {valueTree : Expr}
      (valueDerived : Derives .assignment value valueTree) :
      Derives .assignment
        (.identifier name :: .punctuation .equal :: value)
        (.assignName name valueTree)
  | assignProperty
      {owner value : List TokenKind} {name : String} {ownerTree valueTree : Expr}
      (ownerDerived : Derives .call owner ownerTree)
      (valueDerived : Derives .assignment value valueTree) :
      Derives .assignment
        (owner ++ .punctuation .dot :: .identifier name :: .punctuation .equal :: value)
        (.assignProperty ownerTree name valueTree)
  | assignSubscript
      {owner index value : List TokenKind} {ownerTree indexTree valueTree : Expr}
      (ownerDerived : Derives .call owner ownerTree)
      (indexDerived : Derives .assignment index indexTree)
      (valueDerived : Derives .assignment value valueTree) :
      Derives .assignment
        (owner ++ .punctuation .leftBracket ::
          (index ++ .punctuation .rightBracket :: .punctuation .equal :: value))
        (.assignSubscript ownerTree indexTree valueTree)
  | disjunction
      {left right : List TokenKind} {leftTree rightTree : Expr}
      (leftDerived : Derives .conjunction left leftTree)
      (rightDerived : Derives .disjunction right rightTree) :
      Derives .disjunction (left ++ .keyword .orWord :: right) (.disjunction leftTree rightTree)
  | conjunction
      {left right : List TokenKind} {leftTree rightTree : Expr}
      (leftDerived : Derives .equality left leftTree)
      (rightDerived : Derives .conjunction right rightTree) :
      Derives .conjunction (left ++ .keyword .andWord :: right) (.conjunction leftTree rightTree)
  | binary
      {level : Level} {mark : Punctuation} {operator : BinaryOperator}
      {left right : List TokenKind} {leftTree rightTree : Expr}
      (isOperator : level.operator? mark = some operator)
      (leftDerived : Derives level left leftTree)
      (rightDerived : Derives level.next right rightTree) :
      Derives level (left ++ .punctuation mark :: right) (.binary operator leftTree rightTree)
  | unary
      {mark : Punctuation} {operator : UnaryOperator}
      {operand : List TokenKind} {operandTree : Expr}
      (isOperator : unaryOperator? mark = some operator)
      (operandDerived : Derives .unary operand operandTree) :
      Derives .unary (.punctuation mark :: operand) (.unary operator operandTree)
  | call
      {callee : List TokenKind} {calleeTree : Expr}
      (calleeDerived : Derives .call callee calleeTree)
      (notProperty : calleeTree.isProperty = false)
      (items : List (List TokenKind × Expr))
      (itemsDerived : ∀ item ∈ items, Derives .assignment item.1 item.2) :
      Derives .call
        (callee ++ .punctuation .leftParen ::
          (separated (items.map Prod.fst) ++ [.punctuation .rightParen]))
        (.call calleeTree (items.map Prod.snd))
  | invocation
      {owner : List TokenKind} {name : String} {ownerTree : Expr}
      (ownerDerived : Derives .call owner ownerTree)
      (items : List (List TokenKind × Expr))
      (itemsDerived : ∀ item ∈ items, Derives .assignment item.1 item.2) :
      Derives .call
        (owner ++ .punctuation .dot :: .identifier name :: .punctuation .leftParen ::
          (separated (items.map Prod.fst) ++ [.punctuation .rightParen]))
        (.invocation ownerTree name (items.map Prod.snd))
  | property
      {owner : List TokenKind} {name : String} {ownerTree : Expr}
      (ownerDerived : Derives .call owner ownerTree) :
      Derives .call
        (owner ++ [.punctuation .dot, .identifier name])
        (.property ownerTree name)
  | subscript
      {owner index : List TokenKind} {ownerTree indexTree : Expr}
      (ownerDerived : Derives .call owner ownerTree)
      (indexDerived : Derives .assignment index indexTree) :
      Derives .call
        (owner ++ .punctuation .leftBracket :: (index ++ [.punctuation .rightBracket]))
        (.subscript ownerTree indexTree)
  | number {value : Float} : Derives .primary [.number value] (.number value)
  | string {content : String} : Derives .primary [.string content] (.string content)
  | name {name : String} : Derives .primary [.identifier name] (.named name)
  | word
      {word : Keyword} {tree : Expr}
      (isLiteral : literal? word = some tree) :
      Derives .primary [.keyword word] tree
  | grouping
      {inner : List TokenKind} {innerTree : Expr}
      (innerDerived : Derives .assignment inner innerTree) :
      Derives .primary
        (.punctuation .leftParen :: (inner ++ [.punctuation .rightParen]))
        (.grouping innerTree)
  | array
      (items : List (List TokenKind × Expr))
      (itemsDerived : ∀ item ∈ items, Derives .assignment item.1 item.2) :
      Derives .primary
        (.punctuation .leftBracket ::
          (separated (items.map Prod.fst) ++ [.punctuation .rightBracket]))
        (.array (items.map Prod.snd))
  /-- An expression of a tighter level is one of every looser level. -/
  | descend
      {level : Level} {tokens : List TokenKind} {tree : Expr}
      (derived : Derives level.next tokens tree) :
      Derives level tokens tree

/-! ## Levels and binding powers -/

namespace Level

/-- The place of a level among all of them. -/
def rank : Level → Nat
  | assignment => 1
  | disjunction => 2
  | conjunction => 3
  | equality => 4
  | comparison => 5
  | term => 6
  | factor => 7
  | unary => 8
  | call => 9
  | primary => 10

/-- The level that a binding power stands for. -/
def ofPrecedence : Precedence → Level
  | .assignment => assignment
  | .disjunction => disjunction
  | .conjunction => conjunction
  | .equality => equality
  | .comparison => comparison
  | .term => term
  | .factor => factor
  | .unary => unary
  | .call => call
  | .primary => primary

@[simp]
theorem rank_ofPrecedence (power : Precedence) : (ofPrecedence power).rank = power.rank := by
  cases power <;> rfl

@[simp]
theorem ofPrecedence_tighter (power : Precedence) :
    ofPrecedence power.tighter = (ofPrecedence power).next := by
  cases power <;> rfl

theorem rank_le_ten (level : Level) : level.rank ≤ 10 := by
  cases level <;> decide

theorem rank_next (level : Level) : level.next.rank = min (level.rank + 1) 10 := by
  cases level <;> rfl

theorem eq_of_rank_eq {first second : Level} (same : first.rank = second.rank) :
    first = second := by
  cases first <;> cases second <;> first | rfl | cases same

/-- The operators of a level are the forms after an operand with its binding power. -/
theorem operator?_eq_some_iff
    {level : Level}
    {mark : Punctuation}
    {operator : BinaryOperator} :
    level.operator? mark = some operator ↔
      (TokenKind.punctuation mark).trailing? = some (.binary operator) ∧
        ofPrecedence operator.precedence = level := by
  constructor
  · intro found
    cases level <;> cases mark <;> cases found <;> exact ⟨rfl, rfl⟩
  · rintro ⟨trailing, rfl⟩
    cases mark <;> cases trailing <;> rfl

theorem rank_of_operator?
    {level : Level}
    {mark : Punctuation}
    {operator : BinaryOperator}
    (found : level.operator? mark = some operator) :
    4 ≤ level.rank ∧ level.rank ≤ 7 := by
  cases level <;> cases mark <;> cases found <;> decide

end Level

/-- An expression of a level is one of every looser level. -/
theorem Derives.loosen
    {level : Level}
    {tokens : List TokenKind}
    {tree : Expr}
    (derived : Derives level tokens tree)
    (looser : Level)
    (loose : looser.rank ≤ level.rank) :
    Derives looser tokens tree := by
  generalize distance : level.rank - looser.rank = steps
  induction steps generalizing looser with
  | zero =>
      have same : looser = level := Level.eq_of_rank_eq (by omega)
      rwa [same]
  | succ steps induction =>
      have bound := level.rank_le_ten
      have next := looser.rank_next
      exact .descend (induction _ (by omega) (by omega))

theorem allAssign_iff {allowed : String → Prop} {trees : List Expr} :
    AllAssign allowed trees ↔ ∀ tree ∈ trees, tree.Assigns allowed := by
  induction trees with
  | nil => simp [AllAssign]
  | cons first rest induction => simp [AllAssign, induction]

theorem mem_separated {kind : TokenKind} {items : List (List TokenKind)} {item : List TokenKind}
    (member : item ∈ items) (inside : kind ∈ item) : kind ∈ separated items := by
  induction items with
  | nil => cases member
  | cons first rest induction =>
      cases rest with
      | nil =>
          rw [List.mem_singleton.mp member] at inside
          exact inside
      | cons second more =>
          rw [separated, List.mem_append, List.mem_cons]
          rcases List.mem_cons.mp member with rfl | later
          · exact .inl inside
          · exact .inr (.inr (induction later))

/-- A name that is assigned stands among the tokens. -/
theorem Derives.assigns
    {allowed : String → Prop}
    {level : Level}
    {tokens : List TokenKind}
    {tree : Expr}
    (derived : Derives level tokens tree)
    (names : ∀ name, .identifier name ∈ tokens → allowed name) :
    tree.Assigns allowed := by
  induction derived with
  | number | string | name => trivial
  | word isLiteral =>
      rename_i word tree
      cases word <;> cases isLiteral <;> trivial
  | assignName _ valueAssigns =>
      exact ⟨names _ (by simp), valueAssigns fun name member => names name (by simp [member])⟩
  | descend _ assigns => exact assigns names
  | unary _ _ operandAssigns =>
      exact operandAssigns fun name member => names name (by simp [member])
  | grouping _ innerAssigns =>
      exact innerAssigns fun name member => names name (by simp [member])
  | property _ ownerAssigns =>
      exact ownerAssigns fun name member => names name (by simp [member])
  | binary _ _ _ leftAssigns rightAssigns | conjunction _ _ leftAssigns rightAssigns
  | disjunction _ _ leftAssigns rightAssigns | assignProperty _ _ leftAssigns rightAssigns
  | subscript _ _ leftAssigns rightAssigns =>
      exact ⟨leftAssigns fun name member => names name (by simp [member]),
        rightAssigns fun name member => names name (by simp [member])⟩
  | assignSubscript _ _ _ ownerAssigns indexAssigns valueAssigns =>
      exact ⟨ownerAssigns fun name member => names name (by simp [member]),
        indexAssigns fun name member => names name (by simp [member]),
        valueAssigns fun name member => names name (by simp [member])⟩
  | call _ _ items _ calleeAssigns itemsAssign | invocation _ items _ calleeAssigns itemsAssign =>
      refine ⟨calleeAssigns fun name member => names name (by simp [member]),
        allAssign_iff.mpr fun tree member => ?_⟩
      obtain ⟨item, isItem, rfl⟩ := List.mem_map.mp member
      refine itemsAssign item isItem fun name inside => names name ?_
      have listed := mem_separated (List.mem_map_of_mem isItem) inside
      simp [listed]
  | array items _ itemsAssign =>
      refine allAssign_iff.mpr fun tree member => ?_
      obtain ⟨item, isItem, rfl⟩ := List.mem_map.mp member
      refine itemsAssign item isItem fun name inside => names name ?_
      have listed := mem_separated (List.mem_map_of_mem isItem) inside
      simp [listed]

end ScriptEngine.Syntax
