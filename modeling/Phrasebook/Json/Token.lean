import Phrasebook.Decimal.Nearest
import Phrasebook.Text.Cut
import Phrasebook.Value

namespace Phrasebook.Json

inductive Fault where
  | value
  | name
  | colon
  | comma
  | extra
  | unterminated
  | control
  | escape
  | codePoint
  | byteOrderMark
  | tooLong (limit : Nat) (n : Int)
deriving DecidableEq, Repr

namespace Fault

def message : Fault → String
  | value => "Expecting value"
  | name => "Expecting property name enclosed in double quotes"
  | colon => "Expecting ':' delimiter"
  | comma => "Expecting ',' delimiter"
  | extra => "Extra data"
  | unterminated => "Unterminated string starting at"
  | control => "Invalid control character at"
  | escape => "Invalid \\escape"
  | codePoint => "Invalid \\uXXXX escape"
  | byteOrderMark => "Unexpected UTF-8 BOM (decode using utf-8-sig)"
  | tooLong limit n => beyondLimit limit (some (digitCount n))

end Fault

def isSpace (c : Char) : Bool :=
  c == ' ' || c == '\t' || c == '\n' || c == '\r'

def skip (text : List Char) : List Char :=
  text.dropWhile isSpace

def digit? (c : Char) : Option Nat :=
  if '0' ≤ c ∧ c ≤ '9' then some (c.toNat - '0'.toNat)
  else if 'a' ≤ c ∧ c ≤ 'f' then some (c.toNat - 'a'.toNat + 10)
  else if 'A' ≤ c ∧ c ≤ 'F' then some (c.toNat - 'A'.toNat + 10)
  else none

def unit : List Char → Except Fault Nat
  | a :: b :: c :: d :: _ :: _ =>
    match digit? a, digit? b, digit? c, digit? d with
    | some a, some b, some c, some d => .ok (((a * 16 + b) * 16 + c) * 16 + d)
    | _, _, _, _ => .error .codePoint
  | _ => .error .codePoint

-- A string holds characters, and halves of pairs that stand alone.
inductive Symbol where
  | char (c : Char)
  | half (n : Nat) (h : IsHalf n)
deriving DecidableEq

def ofUnit (n : Nat) : Symbol :=
  if h : IsHalf n then .half n h else .char (Char.ofNat n)

def joined (high low : Nat) : Char :=
  Char.ofNat (0x10000 + (high - 0xD800) * 0x400 + (low - 0xDC00))

-- The symbol that digits stand for, and the length of its spelling: a pair of units is one.
def codePoint (text : List Char) : Except Fault (Symbol × Nat) := do
  let high ← unit text
  match text.drop 4 with
  | '\\' :: 'u' :: rest =>
    if 0xD800 ≤ high ∧ high < 0xDC00 ∧ 4 < rest.length then
      let low ← unit rest
      if 0xDC00 ≤ low ∧ low < 0xE000 then return (.char (joined high low), 10)
    return (ofUnit high, 4)
  | _ => return (ofUnit high, 4)

def short? : Char → Option Char
  | '"' => some '"'
  | '\\' => some '\\'
  | '/' => some '/'
  | 'b' => some '\x08'
  | 'f' => some '\x0c'
  | 'n' => some '\n'
  | 'r' => some '\r'
  | 't' => some '\t'
  | _ => none

def escaped : List Char → Except Fault (Symbol × Nat)
  | [] => .error .unterminated
  | c :: text =>
    if c = 'u' then (codePoint text).map fun (c, n) => (c, n + 1)
    else match short? c with
      | some d => .ok (.char d, 1)
      | none => .error .escape

-- The symbols of a string up to its closing mark, and what follows the mark. The first argument is
-- the number of characters that an escape has already covered.
def string : Nat → List Char → Except Fault (List Symbol × List Char)
  | _, [] => .error .unterminated
  | n + 1, _ :: text => string n text
  | 0, c :: text =>
    if c = '"' then .ok ([], text)
    else if c = '\\' then do
      let (d, n) ← escaped text
      let (ds, rest) ← string n text
      return (d :: ds, rest)
    else if c.toNat < 0x20 then .error .control
    else do
      let (ds, rest) ← string 0 text
      return (.char c :: ds, rest)

def digits (text : List Char) : List Char × List Char :=
  text.span Char.isDigit

def ofDigits (ds : List Char) : Nat :=
  ds.foldl (fun n d => n * 10 + (d.toNat - '0'.toNat)) 0

def whole? : List Char → Option (List Char × List Char)
  | '0' :: text => some (['0'], text)
  | text =>
    match digits text with
    | ([], _) => none
    | found => some found

def fraction (text : List Char) : List Char × List Char :=
  match text with
  | '.' :: rest => if (digits rest).1.isEmpty then ([], text) else digits rest
  | _ => ([], text)

def signed : List Char → Bool × List Char
  | '-' :: text => (true, text)
  | '+' :: text => (false, text)
  | text => (false, text)

def exponent? (text : List Char) : Option (Int × List Char) :=
  match text with
  | c :: rest =>
    if c = 'e' ∨ c = 'E' then
      let (negative, rest) := signed rest
      match digits rest with
      | ([], _) => none
      | (ds, rest) => some (if negative then -ofDigits ds else ofDigits ds, rest)
    else none
  | [] => none

def minus : List Char → Bool × List Char
  | '-' :: text => (true, text)
  | text => (false, text)

def check (c : Conversion) (n : Int) : Except Fault Unit :=
  match c.exceeded? n with
  | none => .ok ()
  | some limit => .error (.tooLong limit n)

def number (c : Conversion) (text : List Char) : Except Fault (Value × List Char) :=
  let (negative, text) := minus text
  match whole? text with
  | none => .error .value
  | some (ds, text) =>
    let (fs, text) := fraction text
    let float (e : Int) : Value :=
      .float (Decimal.nearest negative (ofDigits (ds ++ fs)) (e - fs.length))
    match exponent? text, fs with
    | some (e, text), _ => .ok (float e, text)
    | none, [] => do
      let n : Int := if negative then -ofDigits ds else ofDigits ds
      check c n
      return (.int n, text)
    | none, _ => .ok (float 0, text)

def words : List (List Char × Value) :=
  [("null".toList, .null), ("true".toList, .bool true), ("false".toList, .bool false),
    ("NaN".toList, .float (0.0 / 0.0)), ("Infinity".toList, .float (1.0 / 0.0)),
    ("-Infinity".toList, .float (-1.0 / 0.0))]

def word? (text : List Char) : Option (Value × List Char) :=
  words.findSome? fun (word, v) => (Text.after? word text).map (v, ·)

end Phrasebook.Json
