/-!
# ImpFront.Text.Literal

The **notation of string literals**: `encode` writes a text as a literal, quotes
included, and `decode` reads the characters between the quotes.

Writing is canonical, reading is lenient. `encode` has one form for each
character; `decode` also takes hexadecimal escapes of one digit, and keeps the
backslash of an escape it does not know, so no body is refused.
-/

namespace ImpFront.Text

/-! ### Hexadecimal digits -/

/-- The ASCII hexadecimal digits, of either case. -/
def isHexDigit (c : Char) : Bool :=
  c.isDigit || ('a' ≤ c && c ≤ 'f') || ('A' ≤ c && c ≤ 'F')

/-- The value of a hexadecimal digit. -/
def hexValue (c : Char) : Nat :=
  if c.isDigit then c.toNat - '0'.toNat
  else if 'a' ≤ c then c.toNat - 'a'.toNat + 10
  else c.toNat - 'A'.toNat + 10

/-- The number that hexadecimal digits write. -/
def hexNumber (digits : List Char) : Nat :=
  digits.foldl (fun value c => 16 * value + hexValue c) 0

/-! ### Writing -/

/-- The form of one character inside a literal: the six characters with an escape letter, the
other ASCII controls by two hexadecimal digits, everything else as it is. -/
def encodeChar (c : Char) : List Char :=
  if c = '\n' then ['\\', 'n']
  else if c = '\t' then ['\\', 't']
  else if c = '\r' then ['\\', 'r']
  else if c = '\\' then ['\\', '\\']
  else if c = '"' then ['\\', '"']
  else if c = '\x00' then ['\\', '0']
  else if c.toNat < 0x20 || c.toNat = 0x7f then
    ['\\', 'x', Nat.digitChar (c.toNat / 16), Nat.digitChar (c.toNat % 16)]
  else [c]

/-- The body of the literal for a text, without the quotes. -/
def encodeBody (text : List Char) : List Char := text.flatMap encodeChar

/-- The literal for a text. -/
def encode (text : String) : String :=
  String.ofList ('"' :: encodeBody text.toList ++ ['"'])

/-! ### Reading -/

/-- The character that an escape letter stands for. -/
def escapeLetter? : Char → Option Char
  | 'n' => some '\n'
  | 't' => some '\t'
  | 'r' => some '\r'
  | '\\' => some '\\'
  | '"' => some '"'
  | '0' => some '\x00'
  | _ => none

/-- What a backslash and the text after it stand for, with the text still to read. Up to two
hexadecimal digits after `x` give a code point; without one, `\x` stands for itself. A backslash
before any other character stands for itself, and that character is still to read. -/
def decodeEscape : List Char → List Char × List Char
  | [] => (['\\'], [])
  | c :: rest =>
    match escapeLetter? c with
    | some d => ([d], rest)
    | none =>
      if c = 'x' then
        let digits := (rest.take 2).takeWhile isHexDigit
        if digits = [] then (['\\', 'x'], rest)
        else ([Char.ofNat (hexNumber digits)], rest.drop digits.length)
      else (['\\'], c :: rest)

/-- Reading an escape never gives back more than it was handed. -/
theorem decodeEscape_length (cs : List Char) : (decodeEscape cs).2.length ≤ cs.length := by
  unfold decodeEscape
  split
  · simp
  · split
    · simp
    · split
      · dsimp only
        split
        · simp
        · rw [List.length_drop, List.length_cons]
          omega
      · simp

/-- The text that the body of a literal stands for. -/
def decodeBody : List Char → List Char
  | [] => []
  | c :: rest =>
    if c = '\\' then (decodeEscape rest).1 ++ decodeBody (decodeEscape rest).2
    else c :: decodeBody rest
termination_by cs => cs.length
decreasing_by
  · have := decodeEscape_length rest
    simp; omega
  · simp

/-- The text that the body of a literal stands for. -/
def decode (body : String) : String := String.ofList (decodeBody body.toList)

/-! ### Laws -/

@[simp] theorem toList_encode (text : String) :
    (encode text).toList = '"' :: encodeBody text.toList ++ ['"'] := by
  simp [encode]

@[simp] theorem toList_decode (body : String) : (decode body).toList = decodeBody body.toList := by
  simp [decode]

@[simp] theorem encodeBody_nil : encodeBody [] = [] := rfl

@[simp] theorem encodeBody_cons (c : Char) (text : List Char) :
    encodeBody (c :: text) = encodeChar c ++ encodeBody text := rfl

@[simp] theorem decodeBody_nil : decodeBody [] = [] := by
  rw [decodeBody]

/-- A character that starts no escape stands for itself. -/
theorem decodeBody_cons_of_ne {c : Char} (h : c ≠ '\\') (rest : List Char) :
    decodeBody (c :: rest) = c :: decodeBody rest := by
  rw [decodeBody, if_neg h]

/-- A backslash is read together with what follows it. -/
theorem decodeBody_backslash (rest : List Char) :
    decodeBody ('\\' :: rest)
      = (decodeEscape rest).1 ++ decodeBody (decodeEscape rest).2 := by
  rw [decodeBody, if_pos rfl]

end ImpFront.Text
