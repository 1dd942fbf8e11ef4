import DesignTokens.Expr.Basic
import DesignTokens.Expr.Lexer
import DesignTokens.Decimal.Text

/-!
# Parsing calculations

Sums of products of signed operands, all operators grouping to the left. The parser is a machine
that takes one lexeme at a time. Besides what it has just read it remembers, for the innermost open
parenthesis and for every one around it, the left operands and signs that wait for their operand. A
fault is therefore noticed at the first lexeme after which no calculation can follow.
-/

namespace DesignTokens

/-- What is wrong with a calculation. -/
inductive ParseProblem where
  | unexpectedChar (found : Char)
  | empty
  | unexpectedEnd
  | unexpected (text : String)
  /-- A lexeme follows a calculation that is complete. -/
  | trailing (text : String)
  /-- A parenthesis is not closed where it has to be; nothing is found at the end. -/
  | unclosed (found : Option String)
deriving DecidableEq, Repr

/-- A problem and the index of the character it is noticed at. -/
structure ParseFault where
  problem : ParseProblem
  pos : Nat
deriving DecidableEq, Repr

/-- The wording of a parse fault. -/
def ParseFault.message (f : ParseFault) : String :=
  match f.problem with
  | .unexpectedChar c => LexFault.message ⟨c, f.pos⟩
  | .empty => "Empty expression"
  | .unexpectedEnd => "Unexpected end of expression"
  | .unexpected text => "Unexpected token " ++ Text.quoted text
  | .trailing text => "Unexpected token " ++ Text.quoted text ++ " after expression"
  | .unclosed (some text) => "Expected ')', got " ++ Text.quoted text
  | .unclosed none => "Expected ')', got end of expression"

namespace Expr

/-- What waits for an operand inside one pair of parentheses: a sum that has begun, a product inside
it, and signs, the innermost first. -/
structure Pending where
  sum : Option (Expr × BinaryOp) := none
  product : Option (Expr × BinaryOp) := none
  signs : List UnaryOp := []

/-- An operand with the signs that wait for it. -/
def Pending.signed (p : Pending) (e : Expr) : Expr :=
  p.signs.foldl (fun e op => .unary op e) e

/-- An operand as the right end of the product that waits for it. -/
def Pending.factor (p : Pending) (e : Expr) : Expr :=
  match p.product with
  | some (left, op) => .binary op left (p.signed e)
  | none => p.signed e

/-- An operand as the right end of all that waits for it. -/
def Pending.total (p : Pending) (e : Expr) : Expr :=
  match p.sum with
  | some (left, op) => .binary op left (p.factor e)
  | none => p.factor e

/-- What an open parenthesis belongs to: a group, or a call with the arguments read so far. -/
inductive Opener where
  | group
  | call (function : String) (arguments : List Expr)

/-- What the machine has just read. -/
inductive Phase where
  /-- An operand has to follow. -/
  | operand
  /-- The parenthesis of a call; an operand or the end of the call has to follow. -/
  | arguments
  /-- An identifier, which is a function if a parenthesis follows and a name otherwise. -/
  | ident (word : String)
  /-- A complete operand. -/
  | value (e : Expr)

/-- The state of the machine. -/
structure ParseState where
  phase : Phase := .operand
  pending : Pending := {}
  /-- The open parentheses from the innermost outwards, with what waits around each of them. -/
  opened : List (Opener × Pending) := []

namespace ParseState

/-- Opens a parenthesis. -/
def openWith (s : ParseState) (opener : Opener) (phase : Phase) : ParseState :=
  { phase, pending := {}, opened := (opener, s.pending) :: s.opened }

/-- Takes the lexeme where an operand has to begin. -/
def takeOperand (s : ParseState) (t : Lexeme) : Except ParseFault ParseState :=
  match t.kind with
  | .number =>
    let value := ((Decimal.Numeral.ofChars? t.text.toList).map Decimal.Numeral.toFloat).getD 0.0
    .ok { s with phase := .value (.number value) }
  | .ident => .ok { s with phase := .ident t.text }
  | .minus =>
    .ok { s with phase := .operand, pending.signs := .neg :: s.pending.signs }
  | .plus =>
    .ok { s with phase := .operand, pending.signs := .pos :: s.pending.signs }
  | .leftParen => .ok (s.openWith .group .operand)
  | .star | .slash | .rightParen | .comma => .error ⟨.unexpected t.text, t.pos⟩

/-- Takes an operator of a product after an operand. -/
def multiply (s : ParseState) (e : Expr) (op : BinaryOp) : ParseState :=
  { s with
    phase := .operand
    pending := { s.pending with product := some (s.pending.factor e, op), signs := [] } }

/-- Takes an operator of a sum after an operand. -/
def addTo (s : ParseState) (e : Expr) (op : BinaryOp) : ParseState :=
  { s with phase := .operand, pending := { sum := some (s.pending.total e, op) } }

/-- The fault of a lexeme that cannot follow an operand. -/
def misplaced (s : ParseState) (t : Lexeme) : ParseFault :=
  if s.opened.isEmpty then ⟨.trailing t.text, t.pos⟩ else ⟨.unclosed (some t.text), t.pos⟩

/-- Closes the innermost parenthesis after an operand. -/
def close (s : ParseState) (e : Expr) (t : Lexeme) : Except ParseFault ParseState :=
  match s.opened with
  | (.group, outer) :: rest =>
    .ok { phase := .value (s.pending.total e), pending := outer, opened := rest }
  | (.call function arguments, outer) :: rest =>
    .ok { phase := .value (.call function (arguments ++ [s.pending.total e]))
          pending := outer, opened := rest }
  | [] => .error (s.misplaced t)

/-- Ends an argument of a call after an operand. -/
def nextArgument (s : ParseState) (e : Expr) (t : Lexeme) : Except ParseFault ParseState :=
  match s.opened with
  | (.call function arguments, outer) :: rest =>
    .ok { phase := .operand, pending := {}
          opened := (.call function (arguments ++ [s.pending.total e]), outer) :: rest }
  | _ => .error (s.misplaced t)

/-- Takes the lexeme after a complete operand. -/
def takeOperator (s : ParseState) (e : Expr) (t : Lexeme) : Except ParseFault ParseState :=
  match t.kind with
  | .plus => .ok (s.addTo e .add)
  | .minus => .ok (s.addTo e .sub)
  | .star => .ok (s.multiply e .mul)
  | .slash => .ok (s.multiply e .div)
  | .rightParen => s.close e t
  | .comma => s.nextArgument e t
  | .number | .ident | .leftParen => .error (s.misplaced t)

/-- Takes the lexeme after the parenthesis of a call. -/
def takeArgument (s : ParseState) (t : Lexeme) : Except ParseFault ParseState :=
  match t.kind, s.opened with
  | .rightParen, (.call function arguments, outer) :: rest =>
    .ok { phase := .value (.call function arguments), pending := outer, opened := rest }
  | _, _ => s.takeOperand t

/-- Takes one lexeme. -/
def step (s : ParseState) (t : Lexeme) : Except ParseFault ParseState :=
  match s.phase with
  | .operand => s.takeOperand t
  | .arguments => s.takeArgument t
  | .ident word =>
    if t.kind = .leftParen then .ok (s.openWith (.call word []) .arguments)
    else s.takeOperator (.name word) t
  | .value e => s.takeOperator e t

/-- The calculation that an operand completes at the end of the text. -/
def complete (s : ParseState) (length : Nat) (e : Expr) : Except ParseFault Expr :=
  if s.opened.isEmpty then .ok (s.pending.total e) else .error ⟨.unclosed none, length⟩

/-- The calculation at the end of the text, which has the given length. -/
def finish (s : ParseState) (length : Nat) : Except ParseFault Expr :=
  match s.phase with
  | .operand | .arguments => .error ⟨.unexpectedEnd, length⟩
  | .ident word => s.complete length (.name word)
  | .value e => s.complete length e

/-- Takes lexemes one after the other. -/
def run (s : ParseState) : List Lexeme → Except ParseFault ParseState
  | [] => .ok s
  | t :: rest => match s.step t with
    | .ok s => run s rest
    | .error fault => .error fault

end ParseState

/-- The tree of a list of lexemes from a text of the given length. -/
def ofLexemes (lexemes : List Lexeme) (length : Nat) : Except ParseFault Expr :=
  match ParseState.run {} lexemes with
  | .ok s => s.finish length
  | .error fault => .error fault

/-- The tree of a text. -/
def parse (source : String) : Except ParseFault Expr :=
  match Lexeme.scan source with
  | .error fault => .error ⟨.unexpectedChar fault.found, fault.pos⟩
  | .ok [] => .error ⟨.empty, 0⟩
  | .ok lexemes => ofLexemes lexemes source.length

end Expr

end DesignTokens
