import Gatekeeper.Json.Numeral

/-!
# Json/Token — the lexical parts of a document

`tokens` cuts a document into its brackets, commas, colons, words, numbers and strings, one
character at a time: a `Lexer` says what has been begun, `Lexer.step` what a character does to it.
Blanks between tokens leave no trace.  At the first character that belongs to no token there is one
last token `bad`, and nothing after it.

A string whose escapes name half of a surrogate pair is a token, but it has no text.
-/

namespace Gatekeeper.Json

/-- A lexical part of a document. -/
inductive Token
  | openList
  | closeList
  | openObject
  | closeObject
  | comma
  | colon
  | null
  | bool (b : Bool)
  | num (n : Numeral)
  /-- A string, with its text if it has one. -/
  | text (s : Option String)
  /-- The place where the document stops being one. -/
  | bad
  deriving DecidableEq, Repr

/-! ## Strings -/

/-- What has been read of a string. -/
structure Gathered where
  /-- The characters, last first, unless half of a surrogate pair has been met. -/
  chars : Option (List Char)
  /-- The first half of a surrogate pair, if the last escape named one. -/
  high : Option Nat
  deriving DecidableEq, Repr

namespace Gathered

/-- Nothing yet. -/
def empty : Gathered := ⟨some [], none⟩

/-- One more character; a first half that is left alone spoils the text. -/
def push (g : Gathered) (c : Char) : Gathered :=
  match g.high with
  | some _ => ⟨none, none⟩
  | none => ⟨g.chars.map (c :: ·), none⟩

/-- One more code unit, named by an escape. -/
def pushUnit (g : Gathered) (n : Nat) : Gathered :=
  match g.high with
  | some h =>
    if 0xDC00 ≤ n ∧ n ≤ 0xDFFF then
      ⟨g.chars.map (Char.ofNat (0x10000 + (h - 0xD800) * 0x400 + (n - 0xDC00)) :: ·), none⟩
    else ⟨none, none⟩
  | none =>
    if 0xD800 ≤ n ∧ n ≤ 0xDBFF then ⟨g.chars, some n⟩
    else if 0xDC00 ≤ n ∧ n ≤ 0xDFFF then ⟨none, none⟩
    else ⟨g.chars.map (Char.ofNat n :: ·), none⟩

/-- The text of a string that ends here. -/
def finish (g : Gathered) : Option String :=
  match g.high with
  | some _ => none
  | none => g.chars.map fun cs => String.ofList cs.reverse

end Gathered

/-! ## Numbers -/

/-- How far a number has been read. -/
inductive Stage
  /-- Only a minus sign. -/
  | sign
  /-- A zero, which no digit may follow. -/
  | zero
  /-- Digits before the point. -/
  | whole
  /-- The point. -/
  | point
  /-- Digits after the point. -/
  | fraction
  /-- The letter of the exponent. -/
  | letter
  /-- The sign of the exponent. -/
  | exponentSign
  /-- Digits of the exponent. -/
  | exponent
  deriving DecidableEq, Repr

/-- The value of a decimal digit. -/
def digit? (c : Char) : Option Nat :=
  if '0' ≤ c ∧ c ≤ '9' then some (c.toNat - '0'.toNat) else none

/-- The value of a hexadecimal digit. -/
def hexDigit? (c : Char) : Option Nat :=
  if '0' ≤ c ∧ c ≤ '9' then some (c.toNat - '0'.toNat)
  else if 'a' ≤ c ∧ c ≤ 'f' then some (c.toNat - 'a'.toNat + 10)
  else if 'A' ≤ c ∧ c ≤ 'F' then some (c.toNat - 'A'.toNat + 10)
  else none

/-- What a number gains from a character that continues it.  The digits of a number that is being
read stand last first. -/
def Stage.next (stage : Stage) (n : Numeral) (c : Char) : Option (Stage × Numeral) :=
  match stage, digit? c with
  | .sign, some 0 => some (.zero, { n with whole := [0] })
  | .sign, some d => some (.whole, { n with whole := [d] })
  | .whole, some d => some (.whole, { n with whole := d :: n.whole })
  | .point, some d => some (.fraction, { n with fraction := some [d] })
  | .fraction, some d => some (.fraction, { n with fraction := n.fraction.map (d :: ·) })
  | .letter, some d => some (.exponent, { n with exponent := some (false, [d]) })
  | .exponentSign, some d =>
    some (.exponent, { n with exponent := n.exponent.map fun e => (e.1, [d]) })
  | .exponent, some d =>
    some (.exponent, { n with exponent := n.exponent.map fun e => (e.1, d :: e.2) })
  | .zero, none | .whole, none =>
    if c = '.' then some (.point, n)
    else if c = 'e' ∨ c = 'E' then some (.letter, n)
    else none
  | .fraction, none => if c = 'e' ∨ c = 'E' then some (.letter, n) else none
  | .letter, none =>
    if c = '+' then some (.exponentSign, { n with exponent := some (false, []) })
    else if c = '-' then some (.exponentSign, { n with exponent := some (true, []) })
    else none
  | _, _ => none

/-- Whether a number may end here, before the character `c`: a zero may not before a digit. -/
def Stage.mayEnd (stage : Stage) (next : Option Char) : Bool :=
  match stage with
  | .zero => (next.bind digit?).isNone
  | .whole | .fraction | .exponent => true
  | _ => false

/-- A number with its digits in the order in which they were read. -/
def Numeral.inOrder (n : Numeral) : Numeral :=
  ⟨n.negative, n.whole.reverse, n.fraction.map List.reverse,
    n.exponent.map fun e => (e.1, e.2.reverse)⟩

/-! ## The lexer -/

/-- What has been begun of the next token. -/
inductive Lexer
  /-- Nothing. -/
  | between
  /-- A word, of which these letters are still to come. -/
  | word (left : List Char) (token : Token)
  /-- A number. -/
  | number (stage : Stage) (n : Numeral)
  /-- A string. -/
  | text (g : Gathered)
  /-- A string, and a backslash in it. -/
  | escape (g : Gathered)
  /-- A string, and in it some of the four digits of a code unit. -/
  | unit (g : Gathered) (count value : Nat)
  /-- The document has stopped being one. -/
  | stopped
  deriving DecidableEq, Repr

/-- The blanks of the format. -/
def isSpace (c : Char) : Bool := c == ' ' || c == '\t' || c == '\n' || c == '\r'

namespace Lexer

/-- A number of which nothing has been read but perhaps the sign. -/
def noDigits (negative : Bool) : Numeral := ⟨negative, [], none, none⟩

/-- What a character between two tokens begins. -/
def start (c : Char) : List Token × Lexer :=
  if isSpace c then ([], .between)
  else match c with
    | '[' => ([.openList], .between)
    | ']' => ([.closeList], .between)
    | '\x7b' => ([.openObject], .between)
    | '\x7d' => ([.closeObject], .between)
    | ',' => ([.comma], .between)
    | ':' => ([.colon], .between)
    | '"' => ([], .text .empty)
    | 'n' => ([], .word ['u', 'l', 'l'] .null)
    | 't' => ([], .word ['r', 'u', 'e'] (.bool true))
    | 'f' => ([], .word ['a', 'l', 's', 'e'] (.bool false))
    | '-' => ([], .number .sign (noDigits true))
    | _ =>
      match Stage.sign.next (noDigits false) c with
      | some (stage, n) => ([], .number stage n)
      | none => ([.bad], .stopped)

/-- What a character does after a backslash. -/
def unescape (g : Gathered) (c : Char) : List Token × Lexer :=
  match c with
  | '"' | '\\' | '/' => ([], .text (g.push c))
  | 'b' => ([], .text (g.push '\x08'))
  | 'f' => ([], .text (g.push '\x0c'))
  | 'n' => ([], .text (g.push '\n'))
  | 'r' => ([], .text (g.push '\r'))
  | 't' => ([], .text (g.push '\t'))
  | 'u' => ([], .unit g 0 0)
  | _ => ([.bad], .stopped)

/-- What one character does: the tokens it completes, and what it leaves begun. -/
def step : Lexer → Char → List Token × Lexer
  | .between, c => start c
  | .word [] token, c => let (ts, m) := start c; (token :: ts, m)
  | .word [l] token, c => if c = l then ([token], .between) else ([.bad], .stopped)
  | .word (l :: left) token, c => if c = l then ([], .word left token) else ([.bad], .stopped)
  | .number stage n, c =>
    match stage.next n c with
    | some (stage', n') => ([], .number stage' n')
    | none =>
      if stage.mayEnd (some c) then let (ts, m) := start c; (.num n.inOrder :: ts, m)
      else ([.bad], .stopped)
  | .text g, c =>
    if c = '"' then ([.text g.finish], .between)
    else if c = '\\' then ([], .escape g)
    else if c.toNat < 0x20 then ([.bad], .stopped)
    else ([], .text (g.push c))
  | .escape g, c => unescape g c
  | .unit g count value, c =>
    match hexDigit? c with
    | none => ([.bad], .stopped)
    | some d =>
      if count = 3 then ([], .text (g.pushUnit (value * 16 + d)))
      else ([], .unit g (count + 1) (value * 16 + d))
  | .stopped, _ => ([], .stopped)

/-- The tokens that the end of the document completes. -/
def finish : Lexer → List Token
  | .between | .stopped => []
  | .number stage n => if stage.mayEnd none then [.num n.inOrder] else [.bad]
  | _ => [.bad]

/-- The tokens of the characters that follow what has been begun. -/
def run : Lexer → List Char → List Token
  | m, [] => m.finish
  | m, c :: cs => (m.step c).1 ++ run (m.step c).2 cs

end Lexer

/-- The tokens of a document. -/
def tokens (s : String) : List Token := Lexer.between.run s.toList

end Gatekeeper.Json
