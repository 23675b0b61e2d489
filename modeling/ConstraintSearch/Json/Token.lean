import ConstraintSearch.BinaryFloat.Text

/-!
# Tokens of JSON documents

The lexical grammar of JSON, without extensions: no comments, no byte order mark, no control
characters inside strings, no unpaired surrogates, and no numbers beyond the range of 64-bit
floats. A document is cut into tokens as far as it is well formed; the first text that is no
token becomes the token `invalid`, which stands for all the rest.
-/

namespace ConstraintSearch.Json

/-- A number: `units * 10 ^ exponent`, and whether it is written without a point and without
an exponent. -/
structure Numeral where
  negative : Bool
  units : Nat
  exponent : Int
  isInteger : Bool
  deriving DecidableEq

/-- The tokens of a document. -/
inductive Token
  | openObject
  | closeObject
  | openArray
  | closeArray
  | colon
  | comma
  | null
  | bool (b : Bool)
  | number (n : Numeral)
  | string (s : String)
  | invalid
  deriving DecidableEq

/-! ### Strings -/

/-- A piece of a string: a character, or a UTF-16 code unit given by an escape. -/
inductive Piece
  | char (c : Char)
  | unit (n : Nat)

/-- The value of a hexadecimal digit. -/
def hexDigit? (c : Char) : Option Nat :=
  if c.isDigit then some (c.toNat - '0'.toNat)
  else if 'a' ≤ c ∧ c ≤ 'f' then some (c.toNat - 'a'.toNat + 10)
  else if 'A' ≤ c ∧ c ≤ 'F' then some (c.toNat - 'A'.toNat + 10)
  else none

/-- The value of four hexadecimal digits. -/
def hexUnit? (a b c d : Char) : Option Nat := do
  return ((← hexDigit? a) * 16 + (← hexDigit? b)) * 256 + (← hexDigit? c) * 16 + (← hexDigit? d)

/-- The character that an escape of one letter stands for. -/
def escaped? (c : Char) : Option Char :=
  match c with
  | '"' => some '"'
  | '\\' => some '\\'
  | '/' => some '/'
  | 'b' => some '\x08'
  | 'f' => some '\x0c'
  | 'n' => some '\n'
  | 'r' => some '\r'
  | 't' => some '\t'
  | _ => none

/-- The pieces of a string up to its closing quotation mark, and what follows that. -/
def pieces : List Char → Option (List Piece × List Char)
  | [] => none
  | '"' :: rest => some ([], rest)
  | '\\' :: 'u' :: a :: b :: c :: d :: rest => do
    let n ← hexUnit? a b c d
    let (ps, after) ← pieces rest
    return (.unit n :: ps, after)
  | '\\' :: c :: rest => do
    let c ← escaped? c
    let (ps, after) ← pieces rest
    return (.char c :: ps, after)
  | c :: rest =>
    if c = '\\' ∨ c.toNat < 0x20 then none
    else do
      let (ps, after) ← pieces rest
      return (.char c :: ps, after)

/-- The characters of the pieces of a string; two code units that form a surrogate pair are
one character, and an unpaired one is none. -/
def joinPieces : List Piece → Option (List Char)
  | [] => some []
  | .char c :: rest => do return c :: (← joinPieces rest)
  | .unit hi :: .unit lo :: rest =>
    if 0xD800 ≤ hi ∧ hi < 0xDC00 then
      if 0xDC00 ≤ lo ∧ lo < 0xE000 then do
        return Char.ofNat (0x10000 + (hi - 0xD800) * 0x400 + (lo - 0xDC00)) ::
          (← joinPieces rest)
      else none
    else if 0xDC00 ≤ hi ∧ hi < 0xE000 then none
    else do return Char.ofNat hi :: (← joinPieces (.unit lo :: rest))
  | .unit n :: rest =>
    if 0xD800 ≤ n ∧ n < 0xE000 then none else do return Char.ofNat n :: (← joinPieces rest)

/-- The string whose opening quotation mark has been read, and what follows it. -/
def string? (cs : List Char) : Option (Token × List Char) := do
  let (ps, rest) ← pieces cs
  return (.string (String.ofList (← joinPieces ps)), rest)

/-! ### Numbers -/

/-- The digits at the beginning of a text, and what follows them. -/
def takeDigits (cs : List Char) : List Char × List Char :=
  cs.span Char.isDigit

/-- The fraction of a number, if there is one: a point and at least one digit. -/
def fraction? : List Char → Option (List Char × List Char)
  | '.' :: cs =>
    let (ds, rest) := takeDigits cs
    if ds.isEmpty then none else some (ds, rest)
  | cs => some ([], cs)

/-- The exponent of a number, if there is one: a letter `e`, an optional sign and at least one
digit. -/
def exponent? (cs : List Char) : Option (Option Int × List Char) :=
  let digits (negative : Bool) (cs : List Char) : Option (Option Int × List Char) :=
    let (ds, rest) := takeDigits cs
    let n : Int := Text.ofDigits ds
    if ds.isEmpty then none else some (some (if negative then -n else n), rest)
  match cs with
  | 'e' :: '-' :: cs | 'E' :: '-' :: cs => digits true cs
  | 'e' :: '+' :: cs | 'E' :: '+' :: cs => digits false cs
  | 'e' :: cs | 'E' :: cs => digits false cs
  | cs => some (none, cs)

/-- The number at the beginning of a text without its sign, and what follows it. An integer
part of several digits does not begin with a zero. -/
def number? (negative : Bool) (cs : List Char) : Option (Token × List Char) := do
  let (whole, rest) := takeDigits cs
  if whole.isEmpty || (whole.head? == some '0' && 1 < whole.length) then none
  else
    let (fraction, rest) ← fraction? rest
    let (exponent, rest) ← exponent? rest
    let n : Numeral :=
      { negative, units := Text.ofDigits (whole ++ fraction)
        exponent := exponent.getD 0 - fraction.length
        isInteger := fraction.isEmpty && exponent.isNone }
    match BinaryFloat.ofDecimal .w64 n.negative n.units n.exponent with
    | .infinite _ => none
    | _ => return (.number n, rest)

/-! ### Documents -/

/-- Whether a character may stand between tokens. -/
def isSpace (c : Char) : Bool :=
  c == ' ' || c == '\n' || c == '\t' || c == '\r'

/-- The token at the beginning of a text, and what follows it. -/
def token? : List Char → Option (Token × List Char)
  | '\x7b' :: cs => some (.openObject, cs)
  | '\x7d' :: cs => some (.closeObject, cs)
  | '[' :: cs => some (.openArray, cs)
  | ']' :: cs => some (.closeArray, cs)
  | ':' :: cs => some (.colon, cs)
  | ',' :: cs => some (.comma, cs)
  | '"' :: cs => string? cs
  | '-' :: cs => number? true cs
  | 'n' :: 'u' :: 'l' :: 'l' :: cs => some (.null, cs)
  | 't' :: 'r' :: 'u' :: 'e' :: cs => some (.bool true, cs)
  | 'f' :: 'a' :: 'l' :: 's' :: 'e' :: cs => some (.bool false, cs)
  | cs => number? false cs

/-- The tokens of a text; `fuel` bounds their number. -/
def tokensWithin : Nat → List Char → List Token
  | 0, _ => []
  | fuel + 1, cs =>
    match cs.dropWhile isSpace with
    | [] => []
    | cs =>
      match token? cs with
      | some (t, rest) => t :: tokensWithin fuel rest
      | none => [.invalid]

/-- The tokens of a document; there are no more of them than characters. -/
def tokens (document : String) : List Token :=
  tokensWithin (document.length + 1) document.toList

end ConstraintSearch.Json
