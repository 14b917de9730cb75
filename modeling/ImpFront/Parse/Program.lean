import ImpFront.Parse.Statement
import ImpFront.Syntax.Program
import ImpFront.Token.Scan
/-!
# ImpFront.Parse.Program

**Reading programs.** The declarations at the start are read as globals; after
them come functions and statements in any order to the end of the input. Two
tokens of lookahead tell a global or a function from the rest: a type and a name,
and then what follows the name.
-/

namespace ImpFront.Parse

/-- Whether a type and a name come next, and a kind that passes the test after them. -/
def atDeclared (test : Kind → Bool) (s : Stream) : Bool :=
  s.current.kind.isType && (s.peek 1).kind = .identifier && test (s.peek 2).kind

/-- Whether a global comes next: a name with a value or a semicolon behind it. -/
def atGlobal (s : Stream) : Bool := atDeclared (fun k => k = .assign || k = .semicolon) s

/-- Whether a function comes next: a name with a parenthesis behind it. -/
def atFunction (s : Stream) : Bool := atDeclared (· = .openParen) s

/-- Tests what comes next. -/
def lookingAt (test : Stream → Bool) : ParseM Bool := fun s => .ok (test s.stream) s

/-- The text of the token after the current one. -/
def nameAhead : ParseM String := fun s => .ok (s.stream.peek 1).text s

/-- A further global, if one comes next. -/
def globalItem (expr : ExprReader) : ParseM (Option Item) := do
  if ← lookingAt atGlobal then
    note ⟨.trace, "global declaration", [("name", ← nameAhead)]⟩
    return some (.global (← declaration expr))
  else return none

/-- A further function or statement, unless the input ends. -/
def laterItem (R : Rules) (n : Nat) : ParseM (Option Item) := do
  if (← kind) = .eof then return none
  else if ← lookingAt atFunction then
    note ⟨.debug, "function declaration", [("name", ← nameAhead)]⟩
    return some (.function (← functionWith (blockAt R n)))
  else return some (.statement (← statementAt R n))

/-- A whole program, with `n` levels of nesting free. -/
def programAt (R : Rules) (n : Nat) : ParseM Program := do
  let start ← position
  let globals ← many (globalItem (exprAt R n))
  let others ← many (laterItem R n)
  let items := globals ++ others
  note ⟨.debug, "parsed program", [("items", toString items.length)]⟩
  return ⟨items, ⟨start, ← position⟩⟩

/-- A whole program, with all levels that are free. -/
def program (R : Rules) : ParseM Program := withLevels R (programAt R)

end ImpFront.Parse

namespace ImpFront.Program

/-- Reads tokens as a program, with the state reached. -/
def parseTokens (settings : Settings) (tokens : List Token) : Outcome Program :=
  Parse.program (.standard settings) (.ofTokens tokens)

/-- The program that tokens write. -/
def ofTokens (settings : Settings) (tokens : List Token) : Except Diagnostic Program :=
  (parseTokens settings tokens).result

/-- The program that a source writes. -/
def ofSource (settings : Settings) (source : String) : Except Diagnostic Program := do
  ofTokens settings (← Token.scan source)

end ImpFront.Program
