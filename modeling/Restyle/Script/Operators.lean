import Restyle.Script.Operands

/-!
# Operators

Expressions from their operators: the ones in front of an operand and behind it, the ones
between two operands by how tightly they bind, conditional expressions and assignments.

Two combinations need parentheses that no level tells: a power of an operand with an
operator in front of it, and `??` beside `&&` or `||`.
-/

namespace Restyle.Script

/-! ### One operand -/

/-- An operand with an operator in front of it. -/
def unaryOperation (grammar : Grammar) (context : Context) : Reader Piece := do
  step
  let node ← value grammar context .unary
  pure { Piece.ofNodes [node] with isUnary := true }

/-- An operand with an operator behind it, perhaps. -/
def postfixOperation (grammar : Grammar) (context : Context) : Reader Piece := do
  let piece ← grammar context .leftHandSide
  let cursor ← here
  if (cursor.isMark "++" || cursor.isMark "--") && !cursor.afterLineEnd then
    check piece.isPlace
    step
    pure (.ofNodes [piece.node])
  else pure piece

/-- A value that is taken for a type. -/
def typeAssertion (grammar : Grammar) (context : Context) : Reader Piece := do
  expect "<"
  let type ← typeNode grammar context
  expect ">"
  let piece ← grammar context .unary
  check !piece.needsTarget
  let node := Node.group [type, piece.node]
  pure { (if piece.isPlace then Piece.place node else { node }) with isUnary := true }

/-- An operand with operators in front of it. -/
def unary (grammar : Grammar) (context : Context) : Reader Piece := do
  let cursor ← here
  if ["+", "-", "!", "~"].any cursor.isMark || ["typeof", "void", "delete"].any cursor.isWord ||
      (context.inAsync && cursor.isWord "await") then
    unaryOperation grammar context
  else if cursor.isMark "++" || cursor.isMark "--" then
    step
    let piece ← grammar context .unary
    check piece.isPlace
    pure (.ofNodes [piece.node])
  else if cursor.isMark "<" && context.dialect.hasTypes && !context.dialect.hasElements then
    typeAssertion grammar context
  else postfixOperation grammar context

/-! ### Two operands -/

/-- The operators between two operands, by the level on which they bind. -/
def operatorLevels : List (String × Nat) :=
  [("??", 1), ("||", 2), ("&&", 3), ("|", 4), ("^", 5), ("&", 6), ("==", 7), ("!=", 7),
    ("===", 7), ("!==", 7), ("<", 8), (">", 8), ("<=", 8), (">=", 8), ("<<", 9), (">>", 9),
    (">>>", 9), ("+", 10), ("-", 10), ("*", 11), ("/", 11), ("%", 11), ("**", 12)]

/-- The operator that the token is, and its level. -/
def Cursor.operator? (cursor : Cursor) (context : Context) : Option (String × Nat) :=
  match cursor.kind with
  | .mark mark => (operatorLevels.lookup mark).map fun level => (mark, level)
  | .name word false =>
    if word = "instanceof" ∨ (word = "in" ∧ context.allowsIn) ∨
        ((word = "as" ∨ word = "satisfies") ∧ context.dialect.hasTypes ∧
          !cursor.afterLineEnd) then some (word, 8)
    else none
  | _ => none

/-- What a logical operator makes of its operands; nothing if they need parentheses. -/
def Logic.join? (operator : String) (left right : Logic) : Option Logic :=
  if operator = "??" then
    if left = .boolean ∨ right = .boolean then none else some .nullish
  else if operator = "||" ∨ operator = "&&" then
    if left = .nullish ∨ right = .nullish then none else some .boolean
  else some .plain

/-- An operand, an operator and what binds more tightly to its right. -/
def operation (grammar : Grammar) (context : Context) (left : Piece) (operator : String)
    (level : Nat) : Reader Piece := do
  check !left.needsTarget
  if operator = "as" ∨ operator = "satisfies" then
    let type ← typeNode grammar context
    let node := Node.group [left.node, type]
    pure (if left.isPlace then .place node else { node })
  else
    let isPower := operator = "**"
    check (!(isPower && left.isUnary))
    let right ← grammar context (.binary (if isPower then level - 1 else level))
    check !right.needsTarget
    match Logic.join? operator left.logic right.logic with
    | some logic => pure { Piece.ofNodes [left.node, right.node] with logic }
    | none => failure

/-- An operand, or a private name that is looked for in an object. -/
def firstOperand (grammar : Grammar) (context : Context) : Reader Piece := do
  let cursor ← here
  if cursor.kind == .privateName then
    check (cursor.next.isWord "in")
    step
    pure .none
  else grammar context .unary

/-- Operands with operators that bind more tightly than a level. -/
def binary (grammar : Grammar) (context : Context) (level : Nat) : Reader Piece := do
  let first ← firstOperand grammar context
  iterate (fun left => do
    let cursor := (← here).asClosingOperator
    match cursor.operator? context with
    | some (operator, higher) =>
      if higher ≤ level then pure none
      else
        set cursor.next
        return some (← operation grammar context left operator higher)
    | none => pure none) context.limit first

/-! ### Whole expressions -/

/-- The operators that change what is to their left. -/
def assignmentOperators : List String :=
  ["=", "+=", "-=", "*=", "/=", "%=", "**=", "<<=", ">>=", ">>>=", "&=", "|=", "^=", "&&=",
    "||=", "??="]

/-- The operator that the token is, if it changes what is to its left. -/
def Cursor.assignmentOperator? (cursor : Cursor) : Option String :=
  assignmentOperators.find? cursor.isMark

/-- Gives a value to whoever runs a generator. -/
def yieldExpression (grammar : Grammar) (context : Context) : Reader Piece := do
  expectWord "yield"
  let cursor ← here
  if cursor.isMark "*" && !cursor.afterLineEnd then
    step
    return .ofNodes [← value grammar context .assignment]
  else if !cursor.afterLineEnd && cursor.startsExpression then
    return .ofNodes [← value grammar context .assignment]
  else pure .none

/-- The rest of a conditional expression behind its test. -/
def conditionalRest (grammar : Grammar) (context : Context) (test : Piece) : Reader Piece := do
  check !test.needsTarget
  expect "?"
  let inner := { context with allowsIn := true, arrowNeedsColon := context.dialect.hasTypes }
  let thenNode ← value grammar inner .assignment
  expect ":"
  let elseNode ← value grammar context .assignment
  pure (.ofNodes [test.node, thenNode, elseNode])

/-- One expression without commas. -/
def assignment (grammar : Grammar) (context : Context) : Reader Piece := do
  if context.inGenerator && (← here).isWord "yield" then yieldExpression grammar context
  else
    match ← arrow? grammar context with
    | some piece => pure piece
    | none =>
      let left ← grammar context (.binary 0)
      let cursor := (← here).asClosingOperator
      match cursor.assignmentOperator? with
      | some operator =>
        check (if operator = "=" then left.isTarget else left.isPlace)
        set cursor.next
        let node ← value grammar context .assignment
        pure { Piece.ofNodes [left.node, node] with isElement := operator = "=" }
      | none =>
        if cursor.isMark "?" then conditionalRest grammar context left else pure left

/-- Expressions separated by commas. -/
def expression (grammar : Grammar) (context : Context) : Reader Piece := do
  let pieces ← separated context.limit "," (grammar context .assignment)
  match pieces with
  | [piece] => pure piece
  | _ =>
    check (pieces.all (!·.needsTarget))
    pure (.gather pieces)

end Restyle.Script
