import ScriptEngine.Proofs.Syntax.Tree

/-!
# Reading an expression without writing code

`read levels least` reads an expression of at least a binding power from a list
of token kinds and builds its tree, with at most `levels` operands inside one
another.  It goes through the tokens as the compiler does, but has neither
scopes nor chunks; the only ways not to succeed are a refusal of the tokens and
the exhaustion of the levels.
-/

namespace ScriptEngine

/-- Whether the token of a form is an expression by itself. -/
def LeadingForm.isWhole : LeadingForm → Bool
  | grouping | arrayLiteral | unary _ => false
  | _ => true

namespace Syntax

/-- What reading a list of tokens leads to. -/
inductive Reading (α : Type) where
  /-- Something was read, and some tokens are left. -/
  | done (value : α) (rest : List TokenKind)
  /-- The tokens have no reading. -/
  | refused
  /-- There were not enough levels to decide. -/
  | exhausted

namespace Reading

/-- Goes on with what has been read. -/
def andThen (reading : Reading α) (next : α → List TokenKind → Reading β) : Reading β :=
  match reading with
  | done value rest => next value rest
  | refused => refused
  | exhausted => exhausted

@[simp]
theorem andThen_done
    (value : α)
    (rest : List TokenKind)
    (next : α → List TokenKind → Reading β) :
    (done value rest).andThen next = next value rest := rfl

@[simp]
theorem andThen_refused (next : α → List TokenKind → Reading β) :
    (refused : Reading α).andThen next = refused := rfl

@[simp]
theorem andThen_exhausted (next : α → List TokenKind → Reading β) :
    (exhausted : Reading α).andThen next = exhausted := rfl

theorem andThen_eq_done
    {reading : Reading α}
    {next : α → List TokenKind → Reading β}
    {value : β}
    {rest : List TokenKind}
    (success : reading.andThen next = done value rest) :
    ∃ first between, reading = done first between ∧ next first between = done value rest := by
  cases reading with
  | done first between => exact ⟨first, between, rfl, success⟩
  | refused => cases success
  | exhausted => cases success

end Reading

open Reading

/-- Reads an operand of at least a given binding power. -/
abbrev OperandReader := Precedence → List TokenKind → Reading Expr

/-- Whether a given mark comes next. -/
def startsWith (mark : Punctuation) (tokens : List TokenKind) : Bool :=
  (tokens.headD .endOfInput).isMark mark

/-- Reads a mark that must stand here. -/
def expect (mark : Punctuation) (tokens : List TokenKind)
    (next : List TokenKind → Reading α) : Reading α :=
  if startsWith mark tokens then next tokens.tail else refused

/-- Reads expressions separated by commas, at most `bound` of them. -/
def readItems (operand : OperandReader) :
    Nat → List Expr → List TokenKind → Reading (List Expr)
  | 0, items, tokens => done items tokens
  | bound + 1, items, tokens =>
    (operand .assignment tokens).andThen fun item rest =>
      if startsWith .comma rest then
        readItems operand bound (items ++ [item]) rest.tail
      else
        done (items ++ [item]) rest

/-- Reads expressions separated by commas up to a closing mark. -/
def readList (operand : OperandReader) (closing : Punctuation) (tokens : List TokenKind) :
    Reading (List Expr) :=
  if startsWith closing tokens then
    done [] tokens.tail
  else
    (readItems operand (tokens.length + 1) [] tokens).andThen fun items rest =>
      expect closing rest fun rest => done items rest

/-- Reads a form at the beginning of an expression after its first token. -/
def readLeading (operand : OperandReader) (canAssign : Bool) :
    LeadingForm → List TokenKind → Reading Expr
  | .grouping, tokens =>
    (operand .assignment tokens).andThen fun inner rest =>
      expect .rightParen rest fun rest => done (.grouping inner) rest
  | .arrayLiteral, tokens =>
    (readList operand .rightBracket tokens).andThen fun elements rest =>
      done (.array elements) rest
  | .unary operator, tokens =>
    (operand .unary tokens).andThen fun inner rest => done (.unary operator inner) rest
  | .number value, tokens => done (.number value) tokens
  | .string content, tokens => done (.string content) tokens
  | .literal instruction, tokens =>
    match Literal.ofInstruction? instruction with
    | some word => done (.literal word) tokens
    | none => refused
  | .named name, tokens =>
    if canAssign && startsWith .equal tokens then
      (operand .assignment tokens.tail).andThen fun value rest =>
        done (.assignName name value) rest
    else
      done (.named name) tokens
  | .receiver, tokens => done .receiver tokens

/-- Reads what follows the point of a property. -/
def readProperty (operand : OperandReader) (canAssign : Bool) (owner : Expr)
    (tokens : List TokenKind) : Reading Expr :=
  match tokens with
  | .identifier name :: rest =>
    if canAssign && startsWith .equal rest then
      (operand .assignment rest.tail).andThen fun value rest =>
        done (.assignProperty owner name value) rest
    else if startsWith .leftParen rest then
      (readList operand .rightParen rest.tail).andThen fun arguments rest =>
        done (.invocation owner name arguments) rest
    else
      done (.property owner name) rest
  | _ => refused

/-- Reads what follows the opening mark of a subscript. -/
def readSubscript (operand : OperandReader) (canAssign : Bool) (owner : Expr)
    (tokens : List TokenKind) : Reading Expr :=
  (operand .assignment tokens).andThen fun index rest =>
    expect .rightBracket rest fun rest =>
      if canAssign && startsWith .equal rest then
        (operand .assignment rest.tail).andThen fun value rest =>
          done (.assignSubscript owner index value) rest
      else
        done (.subscript owner index) rest

/-- Reads a form after an operand, whose first token has been read. -/
def readTrailing (operand : OperandReader) (canAssign : Bool) (left : Expr) :
    TrailingForm → List TokenKind → Reading Expr
  | .binary operator, tokens =>
    (operand operator.precedence.tighter tokens).andThen fun right rest =>
      done (.binary operator left right) rest
  | .conjunction, tokens =>
    (operand .conjunction tokens).andThen fun right rest => done (.conjunction left right) rest
  | .disjunction, tokens =>
    (operand .disjunction tokens).andThen fun right rest => done (.disjunction left right) rest
  | .call, tokens =>
    (readList operand .rightParen tokens).andThen fun arguments rest =>
      done (.call left arguments) rest
  | .property, tokens => readProperty operand canAssign left tokens
  | .subscript, tokens => readSubscript operand canAssign left tokens

/-- The form after an operand that comes next and binds tightly enough. -/
def trailingNext? (least : Precedence) (tokens : List TokenKind) : Option TrailingForm :=
  (tokens.headD .endOfInput).trailing?.filter fun form => least.rank ≤ form.precedence.rank

/-- Reads the forms after an operand that bind tightly enough, at most `bound` of them. -/
def readTrailings (operand : OperandReader) (least : Precedence) (canAssign : Bool) :
    Nat → Expr → List TokenKind → Reading Expr
  | 0, left, tokens => done left tokens
  | bound + 1, left, tokens =>
    match trailingNext? least tokens with
    | none => done left tokens
    | some form =>
      (readTrailing operand canAssign left form tokens.tail).andThen fun result rest =>
        readTrailings operand least canAssign bound result rest

/-- Reads the rest of an operand that begins with a form whose token has been read. -/
def readForms (operand : OperandReader) (least : Precedence) (form : LeadingForm)
    (tokens : List TokenKind) : Reading Expr :=
  let canAssign := decide (least = .assignment)
  (readLeading operand canAssign form tokens).andThen fun first rest =>
    (readTrailings operand least canAssign (rest.length + 1) first rest).andThen
      fun result rest =>
        if canAssign && startsWith .equal rest then refused else done result rest

/-- Reads an operand and the forms after it that bind tightly enough. -/
def readOperators (operand : OperandReader) : OperandReader :=
  fun least tokens =>
    match (tokens.headD .endOfInput).leading? with
    | none => refused
    | some form => readForms operand least form tokens.tail

/-- Reads an operand with at most `levels` operands inside one another. -/
def read : Nat → OperandReader
  | 0, _, _ => exhausted
  | levels + 1, least, tokens => readOperators (read levels) least tokens

/-- Nothing is read at the end of the input. -/
def OperandReader.StopsAtEnd (reader : OperandReader) : Prop :=
  ∀ least tokens,
    (tokens.headD .endOfInput).isEnd →
      ∀ tree rest, reader least tokens ≠ done tree rest

theorem readOperators_of_isEnd
    (operand : OperandReader)
    (least : Precedence)
    {tokens : List TokenKind}
    (ended : (tokens.headD .endOfInput).isEnd) :
    readOperators operand least tokens = refused := by
  unfold readOperators
  generalize tokens.headD .endOfInput = kind at ended ⊢
  cases kind <;> simp_all [TokenKind.isEnd, TokenKind.leading?]

theorem read_stopsAtEnd (levels : Nat) : OperandReader.StopsAtEnd (read levels) := by
  intro least tokens ended tree rest success
  cases levels with
  | zero => cases success
  | succ levels =>
      rw [read, readOperators_of_isEnd _ _ ended] at success
      cases success

/-- At the end of the input no form is complete that needs something after its first token. -/
theorem readLeading_ne_done_of_isEnd
    {operand : OperandReader}
    (stops : operand.StopsAtEnd)
    (canAssign : Bool)
    {form : LeadingForm}
    (partly : form.isWhole = false)
    {tokens : List TokenKind}
    (ended : (tokens.headD .endOfInput).isEnd)
    (tree : Expr)
    (rest : List TokenKind) :
    readLeading operand canAssign form tokens ≠ done tree rest := by
  have unopened : startsWith .rightBracket tokens = false := by
    unfold startsWith
    generalize tokens.headD .endOfInput = kind at ended ⊢
    cases kind <;> simp_all [TokenKind.isEnd, TokenKind.isMark]
  intro success
  cases form with
  | grouping =>
      obtain ⟨inner, between, first, -⟩ := andThen_eq_done success
      exact stops _ tokens ended _ _ first
  | unary operator =>
      obtain ⟨inner, between, first, -⟩ := andThen_eq_done success
      exact stops _ tokens ended _ _ first
  | arrayLiteral =>
      obtain ⟨elements, between, list, -⟩ := andThen_eq_done success
      rw [readList, unopened] at list
      obtain ⟨items, between, items, -⟩ := andThen_eq_done list
      obtain ⟨item, between, first, -⟩ := andThen_eq_done items
      exact stops _ tokens ended _ _ first
  | _ => cases partly

end Syntax

end ScriptEngine
