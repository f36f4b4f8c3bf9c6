import ScriptEngine.Proofs.Syntax.Soundness

/-!
# What is derivable is read

The tokens of a derivation are read with its tree, given enough levels.  The
statement that goes through the induction says more: wherever an expression of a
level stands at the beginning of an operand, reading the operand continues with
the loop over the forms after it, from the tree of that expression on
(`Continues`).

Readers with more levels give the same answers, so the tree is unique.
-/

namespace ScriptEngine.Syntax

open Reading

section Loop

variable {operand : OperandReader} {least : Precedence}

/-- The loop over the forms after an operand, with as many rounds as there can be. -/
def readOn (operand : OperandReader) (least : Precedence) (left : Expr)
    (tokens : List TokenKind) : Reading Expr :=
  readTrailings operand least (decide (least = .assignment)) (tokens.length + 1) left tokens

/-- Reads an operand without the test for an assignment after it. -/
def readBare (operand : OperandReader) (least : Precedence) (tokens : List TokenKind) :
    Reading Expr :=
  match (tokens.headD .endOfInput).leading? with
  | none => refused
  | some form =>
    (readLeading operand (decide (least = .assignment)) form tokens.tail).andThen
      (readOn operand least)

theorem readOperators_eq (tokens : List TokenKind) :
    readOperators operand least tokens =
      (readBare operand least tokens).andThen fun result rest =>
        if decide (least = .assignment) && startsWith .equal rest then refused
        else done result rest := by
  unfold readOperators readBare readForms
  cases (tokens.headD .endOfInput).leading? with
  | none => rfl
  | some form =>
      dsimp only
      cases readLeading operand (decide (least = .assignment)) form tokens.tail <;> rfl

theorem length_le_of_readTrailing
    (sound : operand.Sound)
    {canAssign : Bool}
    {left result : Expr}
    {form : TrailingForm}
    {tokens rest : List TokenKind}
    (success : readTrailing operand canAssign left form tokens = done result rest) :
    rest.length ≤ tokens.length := by
  have shorter :
      ∀ least tokens tree rest,
        least.rank ≤ 8 →
        operand least tokens = done tree rest → rest.length ≤ tokens.length := by
    intro least tokens tree rest few read
    obtain ⟨consumed, rfl, -, -⟩ := sound least tokens tree rest few read
    simp
  cases form with
  | binary operator =>
      obtain ⟨right, between, first, finished⟩ := andThen_eq_done success
      cases finished
      exact shorter _ _ _ _ (by cases operator <;> decide) first
  | conjunction =>
      obtain ⟨right, between, first, finished⟩ := andThen_eq_done success
      cases finished
      exact shorter _ _ _ _ (by decide) first
  | disjunction =>
      obtain ⟨right, between, first, finished⟩ := andThen_eq_done success
      cases finished
      exact shorter _ _ _ _ (by decide) first
  | call =>
      obtain ⟨arguments, between, list, finished⟩ := andThen_eq_done success
      cases finished
      obtain ⟨read, -, -, rfl⟩ := readList_sound sound list
      simp
      omega
  | property =>
      simp only [readTrailing, readProperty] at success
      split at success
      · split at success
        · obtain ⟨value, between, first, finished⟩ := andThen_eq_done success
          cases finished
          have := shorter _ _ _ _ (by decide) first
          simp at this ⊢
          omega
        · split at success
          · obtain ⟨arguments, between, list, finished⟩ := andThen_eq_done success
            cases finished
            obtain ⟨read, -, -, split⟩ := readList_sound sound list
            have := congrArg List.length split
            simp at this ⊢
            omega
          · cases success
            simp
      · cases success
  | subscript =>
      obtain ⟨index, between, first, ending⟩ := andThen_eq_done success
      obtain ⟨following, rfl, finished⟩ := expect_eq_done ending
      have indexLength := shorter _ _ _ _ (by decide) first
      simp only [List.length_cons] at indexLength
      split at finished
      · obtain ⟨value, between, second, finished⟩ := andThen_eq_done finished
        cases finished
        have := shorter _ _ _ _ (by decide) second
        simp at this
        omega
      · cases finished
        omega

/-- The loop does not depend on the number of rounds, if there are enough of them. -/
theorem readTrailings_congr
    (sound : operand.Sound)
    {canAssign : Bool}
    {first second : Nat}
    {left : Expr}
    {tokens : List TokenKind}
    (firstEnough : tokens.length < first)
    (secondEnough : tokens.length < second) :
    readTrailings operand least canAssign first left tokens =
      readTrailings operand least canAssign second left tokens := by
  induction first generalizing second left tokens with
  | zero => exact absurd firstEnough (Nat.not_lt_zero _)
  | succ first induction =>
      obtain ⟨second, rfl⟩ := Nat.exists_eq_succ_of_ne_zero (Nat.ne_zero_of_lt secondEnough)
      unfold readTrailings
      rcases next : trailingNext? least tokens with _ | form
      · rfl
      · simp only
        obtain ⟨kind, -, cut⟩ := eq_cons_of_nextForm? (nextForm?_of_trailingNext? next).1
        have length : tokens.length = tokens.tail.length + 1 := by rw [cut]; rfl
        rcases result : readTrailing operand canAssign left form tokens.tail with
          ⟨extended, rest⟩ | _ | _
        · have shorter := length_le_of_readTrailing sound result
          exact induction (by omega) (by omega)
        · rfl
        · rfl

theorem readOn_of_none
    {left : Expr}
    {tokens : List TokenKind}
    (next : trailingNext? least tokens = none) :
    readOn operand least left tokens = done left tokens := by
  simp [readOn, readTrailings, next]

/-- One round of the loop. -/
theorem readOn_of_some
    (sound : operand.Sound)
    {left : Expr}
    {form : TrailingForm}
    {kind : TokenKind}
    {tokens : List TokenKind}
    (trailing : kind.trailing? = some form)
    (tight : least.rank ≤ form.precedence.rank) :
    readOn operand least left (kind :: tokens) =
      (readTrailing operand (decide (least = .assignment)) left form tokens).andThen
        (readOn operand least) := by
  have next : trailingNext? least (kind :: tokens) = some form := by
    simp [trailingNext?, trailing, tight]
  simp only [readOn, readTrailings, next, List.tail_cons]
  rcases result : readTrailing operand (decide (least = .assignment)) left form tokens with
    ⟨extended, rest⟩ | _ | _
  · have shorter := length_le_of_readTrailing sound result
    exact readTrailings_congr sound (by simpa using Nat.lt_succ_of_le shorter)
      (Nat.lt_succ_self _)
  · rfl
  · rfl

end Loop

/-! ## Operands -/

/--
Wherever tokens stand at the beginning of an operand, reading goes on with the
forms after them from the given tree on.
-/
def Continues (operand : OperandReader) (level : Level) (tokens : List TokenKind)
    (tree : Expr) : Prop :=
  ∀ least rest,
    least.rank ≤ level.rank →
    Follows level tree rest →
    (least = .assignment → startsWith .equal rest = false) →
      readBare operand least (tokens ++ rest) = readOn operand least tree rest

/-- The tokens of an operand are read with the given tree wherever the operand can end. -/
def Accepts (operand : OperandReader) (level : Level) (tokens : List TokenKind)
    (tree : Expr) : Prop :=
  ∀ least rest,
    least.rank ≤ 8 →
    least.rank ≤ level.rank →
    Stops least rest →
      operand least (tokens ++ rest) = done tree rest

theorem accepts_of_continues
    {levels : Nat}
    {level : Level}
    {tokens : List TokenKind}
    {tree : Expr}
    (continues : Continues (read levels) level tokens tree) :
    Accepts (read (levels + 1)) level tokens tree := by
  intro least rest few tight stops
  have follows : Follows level tree rest := by
    refine ⟨fun form next => ?_, fun _ => ?_⟩
    · exact Nat.le_trans (TrailingForm.leftRank_le_of_lt (stops.loose form next)) tight
    · -- An opening parenthesis would be a form that binds tighter than any operand.
      cases opened : startsWith .leftParen rest with
      | false => rfl
      | true =>
          have cut := eq_cons_of_startsWith opened
          have loose : 9 < least.rank := stops.loose .call (by rw [cut]; rfl)
          omega
  have next : trailingNext? least rest = none := by
    apply Option.filter_eq_none_iff.mpr
    intro form isForm
    have loose := stops.loose form isForm
    simpa using loose
  have bare := continues least rest tight follows stops.notAssigned
  rw [readOn_of_none next] at bare
  show readOperators (read levels) least (tokens ++ rest) = done tree rest
  rw [readOperators_eq, bare, andThen_done]
  by_cases assigns : least = .assignment
  · simp [stops.notAssigned assigns]
  · simp [assigns]

section Forms

variable {operand : OperandReader}

theorem stops_of_mark
    {mark : Punctuation}
    {rest : List TokenKind}
    (least : Precedence)
    (closes : (TokenKind.punctuation mark).trailing? = none)
    (notEqual : mark ≠ .equal) :
    Stops least (.punctuation mark :: rest) where
  loose form next := by
    rw [nextForm?, List.headD_cons, closes] at next
    cases next
  notAssigned _ := by simpa [startsWith, TokenKind.isMark] using notEqual

/-- An operand of the loosest power ends where nothing can follow an assignment. -/
theorem stops_of_follows_assignment
    {tree : Expr}
    {rest : List TokenKind}
    (follows : Follows .assignment tree rest)
    (notAssigned : startsWith .equal rest = false) :
    Stops .assignment rest where
  loose form next :=
    Nat.lt_of_lt_of_le
      (show form.precedence.rank < _ by
        have bound := follows.loose form next
        have power : 2 ≤ form.leftRank := by
          cases form with
          | binary operator =>
              have := TrailingForm.rank_binary operator
              simp only [TrailingForm.leftRank]
              omega
          | _ => decide
        exact absurd bound (Nat.not_le.mpr power))
      (Nat.le_refl _)
  notAssigned _ := notAssigned

theorem readItems_complete
    {items : List (List TokenKind × Expr)}
    (accepts : ∀ item ∈ items, Accepts operand .assignment item.1 item.2)
    (nonempty : items ≠ [])
    {bound : Nat}
    (enough : items.length ≤ bound)
    {closing : Punctuation}
    (closes : (TokenKind.punctuation closing).trailing? = none)
    (notEqual : closing ≠ .equal)
    (notComma : closing ≠ .comma)
    (earlier : List Expr)
    (rest : List TokenKind) :
    readItems operand bound earlier
        (separated (items.map Prod.fst) ++ .punctuation closing :: rest) =
      done (earlier ++ items.map Prod.snd) (.punctuation closing :: rest) := by
  induction items generalizing bound earlier with
  | nil => exact absurd rfl nonempty
  | cons first others induction =>
      obtain ⟨bound, rfl⟩ := Nat.exists_eq_succ_of_ne_zero
        (Nat.ne_zero_of_lt (Nat.lt_of_lt_of_le (Nat.zero_lt_succ _) enough))
      have firstAccepted := accepts first (List.mem_cons_self ..)
      have othersAccepted : ∀ item ∈ others, Accepts operand .assignment item.1 item.2 :=
        fun item member => accepts item (List.mem_cons_of_mem _ member)
      cases others with
      | nil =>
          have read := firstAccepted .assignment (.punctuation closing :: rest) (by decide)
            (by decide) (stops_of_mark _ closes notEqual)
          have last : startsWith .comma (.punctuation closing :: rest) = false := by
            simpa [startsWith, TokenKind.isMark] using notComma
          simp [readItems, separated, read, last]
      | cons second more =>
          have read := firstAccepted .assignment
            (.punctuation .comma ::
              (separated ((second :: more).map Prod.fst) ++ .punctuation closing :: rest))
            (by decide) (by decide) (stops_of_mark _ rfl (by decide))
          have following := induction othersAccepted (List.cons_ne_nil _ _)
            (Nat.le_of_succ_le_succ enough) (earlier ++ [first.2])
          simp only [List.map_cons] at read following
          simp only [List.map_cons, separated, List.append_assoc, List.cons_append, readItems,
            read, andThen_done, startsWith_cons_self, if_true, List.tail_cons, following]
          simp

theorem length_le_separated (items : List (List TokenKind)) :
    items.length ≤ (separated items).length + 1 := by
  induction items with
  | nil => simp
  | cons first others induction =>
      cases others with
      | nil => simp [separated]
      | cons second more =>
          simp only [separated, List.length_append, List.length_cons] at induction ⊢
          omega

/-- An expression begins with a token that can begin one. -/
theorem exists_leading_of_derives
    {level : Level}
    {tokens : List TokenKind}
    {tree : Expr}
    (derived : Derives level tokens tree) :
    ∃ kind following, tokens = kind :: following ∧ kind.leading? ≠ none := by
  induction derived with
  | assignName | number | string | name => exact ⟨_, _, rfl, by simp [TokenKind.leading?]⟩
  | grouping | array => exact ⟨_, _, rfl, by simp [TokenKind.leading?]⟩
  | word isLiteral =>
      rename_i word tree
      exact ⟨_, _, rfl, by cases word <;> simp_all [TokenKind.leading?, literal?]⟩
  | unary isOperator =>
      rename_i mark operator operand operandTree operandDerived induction
      exact ⟨_, _, rfl, by cases mark <;> simp_all [TokenKind.leading?, unaryOperator?]⟩
  | descend derived induction => exact induction
  | assignProperty _ _ ownerInduction | assignSubscript _ _ _ ownerInduction
  | disjunction _ _ ownerInduction | conjunction _ _ ownerInduction
  | binary _ _ _ ownerInduction | call _ _ _ _ ownerInduction
  | invocation _ _ _ ownerInduction | property _ ownerInduction
  | subscript _ _ ownerInduction =>
      obtain ⟨kind, following, rfl, leads⟩ := ownerInduction
      exact ⟨kind, _, rfl, leads⟩

/-- Nothing that begins an expression closes a list. -/
theorem startsWith_eq_false_of_derives
    {level : Level}
    {tokens : List TokenKind}
    {tree : Expr}
    (derived : Derives level tokens tree)
    {closing : Punctuation}
    (closes : (TokenKind.punctuation closing).leading? = none)
    (rest : List TokenKind) :
    startsWith closing (tokens ++ rest) = false := by
  obtain ⟨kind, following, rfl, leads⟩ := exists_leading_of_derives derived
  cases kind with
  | punctuation mark =>
      simp only [List.cons_append, startsWith, List.headD_cons, TokenKind.isMark]
      apply beq_false_of_ne
      rintro rfl
      exact leads closes
  | _ => rfl

theorem readList_complete
    {items : List (List TokenKind × Expr)}
    (derived : ∀ item ∈ items, Derives .assignment item.1 item.2)
    (accepts : ∀ item ∈ items, Accepts operand .assignment item.1 item.2)
    (closing : Punctuation)
    (opens : (TokenKind.punctuation closing).leading? = none)
    (closes : (TokenKind.punctuation closing).trailing? = none)
    (notEqual : closing ≠ .equal)
    (notComma : closing ≠ .comma)
    (rest : List TokenKind) :
    readList operand closing
        (separated (items.map Prod.fst) ++ .punctuation closing :: rest) =
      done (items.map Prod.snd) rest := by
  cases items with
  | nil => simp [readList, separated]
  | cons first others =>
      have begun :
          startsWith closing
              (separated ((first :: others).map Prod.fst) ++ .punctuation closing :: rest) =
            false := by
        have head := startsWith_eq_false_of_derives (derived first (List.mem_cons_self ..)) opens
        cases others with
        | nil => simpa [separated] using head (.punctuation closing :: rest)
        | cons second more =>
            simp only [List.map_cons, separated, List.append_assoc, List.cons_append]
            exact head _
      have bound :
          (first :: others).length ≤
            (separated ((first :: others).map Prod.fst) ++ .punctuation closing :: rest).length +
              1 := by
        have commas := length_le_separated ((first :: others).map Prod.fst)
        simp only [List.length_map, List.length_append] at commas ⊢
        omega
      have items := readItems_complete accepts (List.cons_ne_nil _ _) bound closes notEqual
        notComma [] rest
      simp only [readList, begun, items]
      simp [expect]

end Forms

/-! ## Derivations -/

/-- Readers with enough levels go on after the tokens with the given tree. -/
def Recognized (level : Level) (tokens : List TokenKind) (tree : Expr) : Prop :=
  ∃ enough, ∀ levels, enough ≤ levels → Continues (read levels) level tokens tree

/-- Tokens that are recognized are accepted with one more level. -/
theorem Recognized.accepts
    {level : Level}
    {tokens : List TokenKind}
    {tree : Expr}
    (recognized : Recognized level tokens tree) :
    ∃ enough, ∀ levels, enough ≤ levels → Accepts (read levels) level tokens tree := by
  obtain ⟨enough, continues⟩ := recognized
  refine ⟨enough + 1, fun levels many => ?_⟩
  obtain ⟨levels, rfl⟩ := Nat.exists_eq_succ_of_ne_zero
    (Nat.ne_zero_of_lt (Nat.lt_of_lt_of_le (Nat.zero_lt_succ _) many))
  exact accepts_of_continues (continues levels (Nat.le_of_succ_le_succ many))

/-- One number of levels is enough for all items of a list. -/
theorem accepts_all
    {items : List (List TokenKind × Expr)}
    (recognized : ∀ item ∈ items, Recognized .assignment item.1 item.2) :
    ∃ enough, ∀ levels, enough ≤ levels →
      ∀ item ∈ items, Accepts (read levels) .assignment item.1 item.2 := by
  induction items with
  | nil => exact ⟨0, fun _ _ _ member => absurd member (List.not_mem_nil)⟩
  | cons first others induction =>
      obtain ⟨firstEnough, firstAccepts⟩ := (recognized first (List.mem_cons_self ..)).accepts
      obtain ⟨othersEnough, othersAccept⟩ :=
        induction fun item member => recognized item (List.mem_cons_of_mem _ member)
      refine ⟨max firstEnough othersEnough, fun levels many item member => ?_⟩
      rcases List.mem_cons.mp member with rfl | later
      · exact firstAccepts levels (by omega)
      · exact othersAccept levels (by omega) item later

/-- A single token is an operand by itself. -/
theorem continues_of_token
    {operand : OperandReader}
    {kind : TokenKind}
    {form : LeadingForm}
    {tree : Expr}
    (leads : kind.leading? = some form)
    (whole :
      ∀ canAssign tokens,
        (canAssign && startsWith .equal tokens) = false →
          readLeading operand canAssign form tokens = done tree tokens) :
    Continues operand .primary [kind] tree := by
  intro least rest _ _ notAssigned
  have unassigned : (decide (least = .assignment) && startsWith .equal rest) = false := by
    by_cases assigns : least = .assignment
    · simp [notAssigned assigns]
    · simp [assigns]
  simp [readBare, leads, whole _ _ unassigned]

/-- The form that comes next can be read after what stands before it. -/
theorem follows_cons
    {level : Level}
    {tree : Expr}
    {kind : TokenKind}
    {form : TrailingForm}
    {rest : List TokenKind}
    (trailing : kind.trailing? = some form)
    (bound : form.leftRank ≤ level.rank)
    (notCalled : tree.isProperty = true → form ≠ .call) :
    Follows level tree (kind :: rest) where
  loose other next := by
    rw [nextForm?, List.headD_cons, trailing] at next
    cases next
    exact bound
  notCalled isProperty := by
    cases called : startsWith .leftParen (kind :: rest) with
    | false => rfl
    | true =>
        have cut := eq_cons_of_startsWith called
        obtain ⟨rfl, -⟩ := List.cons.inj cut
        cases trailing
        exact absurd rfl (notCalled isProperty)

theorem not_equal_of_trailing
    {kind : TokenKind}
    {form : TrailingForm}
    {rest : List TokenKind}
    (trailing : kind.trailing? = some form) :
    startsWith .equal (kind :: rest) = false := by
  cases kind with
  | punctuation mark => cases mark <;> first | rfl | cases trailing
  | _ => rfl

/-- After an operand, a form that binds tightly enough is read next. -/
theorem continues_of_trailing
    {levels : Nat}
    {leftLevel level : Level}
    {left more : List TokenKind}
    {leftTree tree : Expr}
    {kind : TokenKind}
    {form : TrailingForm}
    (trailing : kind.trailing? = some form)
    (power : level.rank ≤ form.precedence.rank)
    (leftContinues : Continues (read levels) leftLevel left leftTree)
    (bound : form.leftRank ≤ leftLevel.rank)
    (notCalled : leftTree.isProperty = true → form ≠ .call)
    (reads :
      ∀ (least : Precedence) (rest : List TokenKind),
        least.rank ≤ level.rank →
        Follows level tree rest →
        (least = .assignment → startsWith .equal rest = false) →
          readTrailing (read levels) (decide (least = .assignment)) leftTree form
            (more ++ rest) = done tree rest) :
    Continues (read levels) level (left ++ kind :: more) tree := by
  intro least rest tight follows notAssigned
  have leftTight : least.rank ≤ leftLevel.rank := by
    have := form.rank_le_leftRank
    omega
  have first := leftContinues least (kind :: (more ++ rest)) leftTight
    (follows_cons trailing bound notCalled) (fun _ => not_equal_of_trailing trailing)
  rw [List.append_assoc, List.cons_append, first,
    readOn_of_some (read_sound levels) trailing (Nat.le_trans tight power),
    reads least rest tight follows notAssigned, andThen_done]

/-- What follows a right operand of a power does not belong to it. -/
theorem stops_of_follows
    {least : Precedence}
    {level : Level}
    {tree : Expr}
    {rest : List TokenKind}
    (follows : Follows level tree rest)
    (notAssignment : least ≠ .assignment)
    (loose :
      ∀ form : TrailingForm, form.leftRank ≤ level.rank → form.precedence.rank < least.rank) :
    Stops least rest where
  loose form next := loose form (follows.loose form next)
  notAssigned assigns := absurd assigns notAssignment

theorem eq_assignment_of_rank_le
    {least : Precedence}
    (loose : least.rank ≤ Level.assignment.rank) :
    least = .assignment := by
  cases least <;> first | rfl | exact absurd loose (by decide)

/-- Whatever is derivable is recognized. -/
theorem recognized_of_derives
    {level : Level}
    {tokens : List TokenKind}
    {tree : Expr}
    (derived : Derives level tokens tree) :
    Recognized level tokens tree := by
  induction derived with
  | assignName _ valueRecognized =>
      obtain ⟨enough, accepts⟩ := valueRecognized.accepts
      refine ⟨enough, fun levels many least rest tight follows notAssigned => ?_⟩
      obtain rfl := eq_assignment_of_rank_le tight
      have value := accepts levels many .assignment rest (by decide) (by decide)
        (stops_of_follows_assignment follows (notAssigned rfl))
      simp [readBare, TokenKind.leading?, readLeading, value]
  | assignProperty _ _ ownerRecognized valueRecognized =>
      obtain ⟨ownerEnough, continues⟩ := ownerRecognized
      obtain ⟨valueEnough, accepts⟩ := valueRecognized.accepts
      refine ⟨max ownerEnough valueEnough, fun levels many => ?_⟩
      refine continues_of_trailing rfl (by decide) (continues levels (by omega)) (by decide)
        (by simp) ?_
      intro least rest tight follows notAssigned
      obtain rfl := eq_assignment_of_rank_le tight
      have value := accepts levels (by omega) .assignment rest (by decide) (by decide)
        (stops_of_follows_assignment follows (notAssigned rfl))
      simp [readTrailing, readProperty, value]
  | assignSubscript _ _ _ ownerRecognized indexRecognized valueRecognized =>
      obtain ⟨ownerEnough, continues⟩ := ownerRecognized
      obtain ⟨indexEnough, indexAccepts⟩ := indexRecognized.accepts
      obtain ⟨valueEnough, accepts⟩ := valueRecognized.accepts
      refine ⟨max ownerEnough (max indexEnough valueEnough), fun levels many => ?_⟩
      refine continues_of_trailing rfl (by decide) (continues levels (by omega)) (by decide)
        (by simp) ?_
      intro least rest tight follows notAssigned
      obtain rfl := eq_assignment_of_rank_le tight
      have value := accepts levels (by omega) .assignment rest (by decide) (by decide)
        (stops_of_follows_assignment follows (notAssigned rfl))
      have index (following : List TokenKind) :=
        indexAccepts levels (by omega) .assignment (.punctuation .rightBracket :: following)
          (by decide) (by decide) (stops_of_mark _ rfl (by decide))
      simp [readTrailing, readSubscript, index, expect, value]
  | disjunction _ _ leftRecognized rightRecognized =>
      obtain ⟨leftEnough, continues⟩ := leftRecognized
      obtain ⟨rightEnough, accepts⟩ := rightRecognized.accepts
      refine ⟨max leftEnough rightEnough, fun levels many => ?_⟩
      refine continues_of_trailing rfl (by decide) (continues levels (by omega)) (by decide)
        (by simp) ?_
      intro least rest _ follows _
      have right := accepts levels (by omega) .disjunction rest (by decide) (by decide)
        (stops_of_follows follows (by decide) fun form bound =>
          TrailingForm.rank_lt_of_leftRank_le bound (by decide))
      simp [readTrailing, right]
  | conjunction _ _ leftRecognized rightRecognized =>
      obtain ⟨leftEnough, continues⟩ := leftRecognized
      obtain ⟨rightEnough, accepts⟩ := rightRecognized.accepts
      refine ⟨max leftEnough rightEnough, fun levels many => ?_⟩
      refine continues_of_trailing rfl (by decide) (continues levels (by omega)) (by decide)
        (by simp) ?_
      intro least rest _ follows _
      have right := accepts levels (by omega) .conjunction rest (by decide) (by decide)
        (stops_of_follows follows (by decide) fun form bound =>
          TrailingForm.rank_lt_of_leftRank_le bound (by decide))
      simp [readTrailing, right]
  | binary isOperator _ _ leftRecognized rightRecognized =>
      obtain ⟨leftEnough, continues⟩ := leftRecognized
      obtain ⟨rightEnough, accepts⟩ := rightRecognized.accepts
      obtain ⟨trailing, rfl⟩ := Level.operator?_eq_some_iff.mp isOperator
      rename_i operator _ _ _ _ _ _
      have bounds := TrailingForm.rank_binary operator
      have power : operator.precedence.tighter.rank = operator.precedence.rank + 1 := by
        cases operator <;> rfl
      refine ⟨max leftEnough rightEnough, fun levels many => ?_⟩
      refine continues_of_trailing trailing (by simp [TrailingForm.precedence])
        (continues levels (by omega)) (by simp [TrailingForm.leftRank]) (by simp) ?_
      intro least rest _ follows _
      have read := accepts levels (by omega) operator.precedence.tighter rest (by omega)
        (Nat.le_of_eq (by rw [← Level.ofPrecedence_tighter, Level.rank_ofPrecedence]))
        (stops_of_follows follows (by cases operator <;> decide) fun form bound => by
          have := form.rank_le_leftRank
          rw [Level.rank_ofPrecedence] at bound
          omega)
      simp [readTrailing, read]
  | unary isOperator _ operandRecognized =>
      rename_i mark operator tokens tree _
      obtain ⟨enough, accepts⟩ := operandRecognized.accepts
      refine ⟨enough, fun levels many least rest _ follows _ => ?_⟩
      have leads : (TokenKind.punctuation mark).leading? = some (.unary operator) := by
        cases mark <;> cases isOperator <;> rfl
      have read := accepts levels many .unary rest (by decide) (by decide)
        (stops_of_follows follows (by decide) fun form bound =>
          TrailingForm.rank_lt_of_leftRank_le bound (by decide))
      simp [readBare, leads, readLeading, read]
  | call _ notProperty items itemsDerived calleeRecognized itemsRecognized =>
      obtain ⟨calleeEnough, continues⟩ := calleeRecognized
      obtain ⟨itemsEnough, accepts⟩ := accepts_all itemsRecognized
      refine ⟨max calleeEnough itemsEnough, fun levels many => ?_⟩
      refine continues_of_trailing rfl (by decide) (continues levels (by omega)) (by decide)
        (by simp [notProperty]) ?_
      intro least rest _ _ _
      have list := readList_complete itemsDerived (accepts levels (by omega)) .rightParen
        rfl rfl (by decide) (by decide) rest
      simp [readTrailing, list]
  | invocation _ items itemsDerived ownerRecognized itemsRecognized =>
      obtain ⟨ownerEnough, continues⟩ := ownerRecognized
      obtain ⟨itemsEnough, accepts⟩ := accepts_all itemsRecognized
      refine ⟨max ownerEnough itemsEnough, fun levels many => ?_⟩
      refine continues_of_trailing rfl (by decide) (continues levels (by omega)) (by decide)
        (by simp) ?_
      intro least rest _ _ _
      have list := readList_complete itemsDerived (accepts levels (by omega)) .rightParen
        rfl rfl (by decide) (by decide) rest
      simp [readTrailing, readProperty, list, startsWith, TokenKind.isMark]
  | property _ ownerRecognized =>
      obtain ⟨enough, continues⟩ := ownerRecognized
      refine ⟨enough, fun levels many => ?_⟩
      refine continues_of_trailing rfl (by decide) (continues levels many) (by decide)
        (by simp) ?_
      intro least rest _ follows notAssigned
      have unopened := follows.notCalled rfl
      by_cases assigns : least = .assignment
      · simp [readTrailing, readProperty, unopened, notAssigned assigns]
      · simp [readTrailing, readProperty, unopened, assigns]
  | subscript _ _ ownerRecognized indexRecognized =>
      obtain ⟨ownerEnough, continues⟩ := ownerRecognized
      obtain ⟨indexEnough, accepts⟩ := indexRecognized.accepts
      refine ⟨max ownerEnough indexEnough, fun levels many => ?_⟩
      refine continues_of_trailing rfl (by decide) (continues levels (by omega)) (by decide)
        (by simp) ?_
      intro least rest _ _ notAssigned
      have index := accepts levels (by omega) .assignment (.punctuation .rightBracket :: rest)
        (by decide) (by decide) (stops_of_mark _ rfl (by decide))
      by_cases assigns : least = .assignment
      · simp [readTrailing, readSubscript, index, expect, notAssigned assigns]
      · simp [readTrailing, readSubscript, index, expect, assigns]
  | number => exact ⟨0, fun _ _ => continues_of_token rfl fun _ _ _ => rfl⟩
  | string => exact ⟨0, fun _ _ => continues_of_token rfl fun _ _ _ => rfl⟩
  | name =>
      refine ⟨0, fun _ _ => continues_of_token rfl fun canAssign tokens unassigned => ?_⟩
      simp only [readLeading, unassigned]
      rfl
  | word isLiteral =>
      rename_i word tree
      refine ⟨0, fun levels _ => ?_⟩
      cases word <;> cases isLiteral <;> exact continues_of_token rfl fun _ _ _ => rfl
  | grouping _ innerRecognized =>
      obtain ⟨enough, accepts⟩ := innerRecognized.accepts
      refine ⟨enough, fun levels many least rest _ _ _ => ?_⟩
      have inner := accepts levels many .assignment (.punctuation .rightParen :: rest)
        (by decide) (by decide) (stops_of_mark _ rfl (by decide))
      simp [readBare, TokenKind.leading?, readLeading, inner, expect]
  | array items itemsDerived itemsRecognized =>
      obtain ⟨enough, accepts⟩ := accepts_all itemsRecognized
      refine ⟨enough, fun levels many least rest _ _ _ => ?_⟩
      have list := readList_complete itemsDerived (accepts levels many) .rightBracket
        rfl rfl (by decide) (by decide) rest
      simp [readBare, TokenKind.leading?, readLeading, list]
  | descend _ recognized =>
      rename_i level tokens tree _
      obtain ⟨enough, continues⟩ := recognized
      refine ⟨enough, fun levels many least rest tight follows notAssigned => ?_⟩
      have next : level.rank ≤ level.next.rank := by
        have := level.rank_next
        have := level.rank_le_ten
        omega
      exact continues levels many least rest (Nat.le_trans tight next)
        ⟨fun form isForm => Nat.le_trans (follows.loose form isForm) next, follows.notCalled⟩
        notAssigned

/-! ## More levels -/

namespace Reading

/-- Two readings agree unless the first one ran out of levels. -/
def Below (first second : Reading α) : Prop :=
  first = exhausted ∨ first = second

theorem Below.refl (reading : Reading α) : Below reading reading :=
  Or.inr rfl

theorem Below.andThen
    {first second : Reading α}
    {next better : α → List TokenKind → Reading β}
    (below : Below first second)
    (nextBelow : ∀ value rest, Below (next value rest) (better value rest)) :
    Below (first.andThen next) (second.andThen better) := by
  rcases below with rfl | rfl
  · exact Or.inl rfl
  · cases first with
    | done value rest => exact nextBelow value rest
    | refused => exact .refl refused
    | exhausted => exact Or.inl rfl

end Reading

/-- A reader of operands agrees with another one unless it runs out of levels. -/
def OperandReader.Below (operand better : OperandReader) : Prop :=
  ∀ least tokens, Reading.Below (operand least tokens) (better least tokens)

section Below

variable {operand better : OperandReader} (below : operand.Below better)

include below

omit below in
theorem expect_below
    {mark : Punctuation}
    {tokens : List TokenKind}
    {next other : List TokenKind → Reading α}
    (nextBelow : ∀ rest, Reading.Below (next rest) (other rest)) :
    Reading.Below (expect mark tokens next) (expect mark tokens other) := by
  unfold expect
  split
  · exact nextBelow _
  · exact .refl _

theorem readItems_below (bound : Nat) (items : List Expr) (tokens : List TokenKind) :
    Reading.Below (readItems operand bound items tokens)
      (readItems better bound items tokens) := by
  induction bound generalizing items tokens with
  | zero => exact .refl _
  | succ bound induction =>
      refine (below .assignment tokens).andThen fun item rest => ?_
      split
      · exact induction _ _
      · exact .refl _

theorem readList_below (closing : Punctuation) (tokens : List TokenKind) :
    Reading.Below (readList operand closing tokens) (readList better closing tokens) := by
  unfold readList
  split
  · exact .refl _
  · exact (readItems_below below _ _ _).andThen fun _ _ => .refl _

theorem readLeading_below (canAssign : Bool) (form : LeadingForm) (tokens : List TokenKind) :
    Reading.Below (readLeading operand canAssign form tokens)
      (readLeading better canAssign form tokens) := by
  cases form with
  | grouping => exact (below _ _).andThen fun _ _ => .refl _
  | arrayLiteral => exact (readList_below below _ _).andThen fun _ _ => .refl _
  | unary operator => exact (below _ _).andThen fun _ _ => .refl _
  | named name =>
      simp only [readLeading]
      split
      · exact (below _ _).andThen fun _ _ => .refl _
      · exact .refl _
  | _ => exact .refl _

theorem readTrailing_below
    (canAssign : Bool)
    (left : Expr)
    (form : TrailingForm)
    (tokens : List TokenKind) :
    Reading.Below (readTrailing operand canAssign left form tokens)
      (readTrailing better canAssign left form tokens) := by
  cases form with
  | binary operator => exact (below _ _).andThen fun _ _ => .refl _
  | conjunction => exact (below _ _).andThen fun _ _ => .refl _
  | disjunction => exact (below _ _).andThen fun _ _ => .refl _
  | call => exact (readList_below below _ _).andThen fun _ _ => .refl _
  | property =>
      simp only [readTrailing, readProperty]
      split
      · split
        · exact (below _ _).andThen fun _ _ => .refl _
        · split
          · exact (readList_below below _ _).andThen fun _ _ => .refl _
          · exact .refl _
      · exact .refl _
  | subscript =>
      refine (below _ _).andThen fun index rest => expect_below fun rest => ?_
      split
      · exact (below _ _).andThen fun _ _ => .refl _
      · exact .refl _

theorem readTrailings_below
    (least : Precedence)
    (canAssign : Bool)
    (bound : Nat)
    (left : Expr)
    (tokens : List TokenKind) :
    Reading.Below (readTrailings operand least canAssign bound left tokens)
      (readTrailings better least canAssign bound left tokens) := by
  induction bound generalizing left tokens with
  | zero => exact .refl _
  | succ bound induction =>
      unfold readTrailings
      split
      · exact .refl _
      · exact (readTrailing_below below _ _ _ _).andThen fun _ _ => induction _ _

theorem readOperators_below : (readOperators operand).Below (readOperators better) := by
  intro least tokens
  unfold readOperators
  split
  · exact .refl _
  · refine (readLeading_below below _ _ _).andThen fun first rest => ?_
    exact (readTrailings_below below _ _ _ _ _).andThen fun _ _ => .refl _

end Below

/-- More levels change an answer only if there was none. -/
theorem read_below {levels more : Nat} (many : levels ≤ more) :
    OperandReader.Below (read levels) (read more) := by
  induction levels generalizing more with
  | zero => exact fun _ _ => Or.inl rfl
  | succ levels induction =>
      obtain ⟨more, rfl⟩ := Nat.exists_eq_succ_of_ne_zero
        (Nat.ne_zero_of_lt (Nat.lt_of_lt_of_le (Nat.zero_lt_succ _) many))
      exact readOperators_below (induction (Nat.le_of_succ_le_succ many))

/-- An expression that can end here is read with its tree, unless the levels run out. -/
theorem read_of_derives
    {tokens rest : List TokenKind}
    {tree : Expr}
    (derived : Derives .assignment tokens tree)
    (stops : Stops .assignment rest)
    {levels : Nat}
    (decided : read levels .assignment (tokens ++ rest) ≠ exhausted) :
    read levels .assignment (tokens ++ rest) = done tree rest := by
  obtain ⟨enough, accepts⟩ := (recognized_of_derives derived).accepts
  have answer := accepts (max levels enough) (by omega) .assignment rest (by decide) (by decide)
    stops
  have below : OperandReader.Below (read levels) (read (max levels enough)) :=
    read_below (by omega)
  rcases below .assignment (tokens ++ rest) with ran | same
  · exact absurd ran decided
  · rw [same, answer]

/-- No sequence of tokens has two trees. -/
theorem derives_unique
    {tokens : List TokenKind}
    {first second : Expr}
    (firstDerived : Derives .assignment tokens first)
    (secondDerived : Derives .assignment tokens second) :
    first = second := by
  have stops : Stops .assignment [] := ⟨nofun, fun _ => rfl⟩
  obtain ⟨firstEnough, firstAccepts⟩ := (recognized_of_derives firstDerived).accepts
  obtain ⟨secondEnough, secondAccepts⟩ := (recognized_of_derives secondDerived).accepts
  have firstRead := firstAccepts (max firstEnough secondEnough) (by omega) .assignment []
    (by decide) (by decide) stops
  have secondRead := secondAccepts (max firstEnough secondEnough) (by omega) .assignment []
    (by decide) (by decide) stops
  rw [firstRead] at secondRead
  injection secondRead

end ScriptEngine.Syntax
