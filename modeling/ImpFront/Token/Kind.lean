/-!
# ImpFront.Token.Kind

The **kinds of tokens**. Parsing looks at kinds alone; the text of a token
matters only for identifiers and literals.

`Kind.all` fixes the order in which kinds are listed, for instance in the set of
kinds an error expects. A kind other than the first four has one spelling.
-/

namespace ImpFront

/-- The class of a token. -/
inductive Kind where
  | eof | number | string | identifier
  | openCurly | closeCurly | openParen | closeParen
  | assign | equals | not | notEquals
  | less | lessEquals | greater | greaterEquals
  | or | and
  | semicolon | comma
  | plusPlus | minusMinus | plusEquals | minusEquals | starEquals | slashEquals | percentEquals
  | plus | dash | star | slash | percent
  | intType | floatType | doubleType | stringType | voidType
  | ifWord | elseWord | forWord | whileWord | returnWord
  deriving DecidableEq, Repr, Inhabited

namespace Kind

/-- Every kind once, in the order of listing. -/
def all : List Kind :=
  [.eof, .number, .string, .identifier,
   .openCurly, .closeCurly, .openParen, .closeParen,
   .assign, .equals, .not, .notEquals,
   .less, .lessEquals, .greater, .greaterEquals,
   .or, .and,
   .semicolon, .comma,
   .plusPlus, .minusMinus, .plusEquals, .minusEquals, .starEquals, .slashEquals, .percentEquals,
   .plus, .dash, .star, .slash, .percent,
   .intType, .floatType, .doubleType, .stringType, .voidType,
   .ifWord, .elseWord, .forWord, .whileWord, .returnWord]

/-- The name of a kind in token listings. -/
def name : Kind → String
  | .eof => "EOF"
  | .number => "Number"
  | .string => "String"
  | .identifier => "Identifier"
  | .openCurly => "OpenCurly"
  | .closeCurly => "CloseCurly"
  | .openParen => "OpenParen"
  | .closeParen => "CloseParen"
  | .assign => "Assignment"
  | .equals => "Equals"
  | .not => "Not"
  | .notEquals => "NotEquals"
  | .less => "Less"
  | .lessEquals => "LessEquals"
  | .greater => "Greater"
  | .greaterEquals => "GreaterEquals"
  | .or => "Or"
  | .and => "And"
  | .semicolon => "Semicolon"
  | .comma => "Comma"
  | .plusPlus => "PlusPlus"
  | .minusMinus => "MinusMinus"
  | .plusEquals => "PlusEquals"
  | .minusEquals => "MinusEquals"
  | .starEquals => "StarEquals"
  | .slashEquals => "SlashEquals"
  | .percentEquals => "PercentEquals"
  | .plus => "Plus"
  | .dash => "Dash"
  | .star => "Star"
  | .slash => "Slash"
  | .percent => "Percent"
  | .intType => "Int"
  | .floatType => "Float"
  | .doubleType => "Double"
  | .stringType => "StringType"
  | .voidType => "Void"
  | .ifWord => "If"
  | .elseWord => "Else"
  | .forWord => "For"
  | .whileWord => "While"
  | .returnWord => "Return"

/-- How messages call a kind: its spelling, or what it stands for when it has no fixed one. -/
def describe : Kind → String
  | .eof => "end of input"
  | .number => "number"
  | .string => "string literal"
  | .identifier => "identifier"
  | .openCurly => "\x7b"
  | .closeCurly => "\x7d"
  | .openParen => "("
  | .closeParen => ")"
  | .assign => "="
  | .equals => "=="
  | .not => "!"
  | .notEquals => "!="
  | .less => "<"
  | .lessEquals => "<="
  | .greater => ">"
  | .greaterEquals => ">="
  | .or => "||"
  | .and => "&&"
  | .semicolon => ";"
  | .comma => ","
  | .plusPlus => "++"
  | .minusMinus => "--"
  | .plusEquals => "+="
  | .minusEquals => "-="
  | .starEquals => "*="
  | .slashEquals => "/="
  | .percentEquals => "%="
  | .plus => "+"
  | .dash => "-"
  | .star => "*"
  | .slash => "/"
  | .percent => "%"
  | .intType => "int"
  | .floatType => "float"
  | .doubleType => "double"
  | .stringType => "string"
  | .voidType => "void"
  | .ifWord => "if"
  | .elseWord => "else"
  | .forWord => "for"
  | .whileWord => "while"
  | .returnWord => "return"

/-- The text of every token of the kind, where there is only one. -/
def spelling? : Kind → Option String
  | .eof | .number | .string | .identifier => none
  | kind => some kind.describe

/-- The reserved words. -/
def reserved : List Kind :=
  [.intType, .floatType, .doubleType, .stringType, .voidType, .ifWord, .elseWord, .forWord,
   .whileWord, .returnWord]

/-- The kind of a word: its own kind when reserved, otherwise an identifier. -/
def ofWord (word : String) : Kind :=
  (reserved.find? (·.describe = word)).getD .identifier

/-- Kinds in the order of listing, repetitions kept. -/
def sort (kinds : List Kind) : List Kind := all.flatMap fun kind => kinds.filter (· = kind)

/-- A list of kinds in words. -/
def describeAll (kinds : List Kind) : String :=
  match kinds.map fun kind => "`" ++ kind.describe ++ "`" with
  | [] => "nothing"
  | [one] => one
  | described => "one of " ++ ", ".intercalate described

/-! ### Laws -/

theorem mem_all (kind : Kind) : kind ∈ all := by cases kind <;> decide

theorem nodup_all : all.Nodup := by decide

/-- Sorting changes only the order. -/
theorem count_sort (kind : Kind) (kinds : List Kind) : (sort kinds).count kind = kinds.count kind := by
  have key : ∀ order : List Kind, order.Nodup →
      (order.flatMap fun k => kinds.filter (· = k)).count kind
        = if kind ∈ order then kinds.count kind else 0 := by
    intro order hnodup
    induction order with
    | nil => simp
    | cons k order ih =>
      obtain ⟨hk, hrest⟩ := List.nodup_cons.1 hnodup
      rw [List.flatMap_cons, List.count_append, ih hrest]
      by_cases hkind : kind = k
      · subst hkind
        simp [hk, List.count_filter]
      · have : (kinds.filter (· = k)).count kind = 0 := by
          rw [List.count_eq_zero]; simp [hkind]
        simp [this, hkind]
  rw [sort, key all nodup_all, if_pos (mem_all kind)]

end Kind

end ImpFront
