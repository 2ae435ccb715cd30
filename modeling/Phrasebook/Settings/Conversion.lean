import Phrasebook.Json.Token
import Phrasebook.Text.Blank

namespace Phrasebook.Settings

inductive Issue where
  | boolParsing
  | boolType
  | intParsing
  | intParsingSize
  | intFromFloat
  | finiteNumber
  | intType
  | greaterThanEqual
  | stringType
  | listType
deriving DecidableEq

namespace Issue

def name : Issue → String
  | boolParsing => "bool_parsing"
  | boolType => "bool_type"
  | intParsing => "int_parsing"
  | intParsingSize => "int_parsing_size"
  | intFromFloat => "int_from_float"
  | finiteNumber => "finite_number"
  | intType => "int_type"
  | greaterThanEqual => "greater_than_equal"
  | stringType => "string_type"
  | listType => "list_type"

end Issue

def text : Value → Except Issue String
  | .text s => .ok s
  | _ => .error .stringType

-- The whole number that a float is. It has to be closer to zero than `2 ^ 63`.
def ofFloat (x : Float) : Except Issue Int :=
  match Decimal.Double.ofFloat x with
  | .finite negative significand exponent =>
    match (Decimal.Double.finite negative significand exponent).whole? with
    | none => .error .intFromFloat
    | some n => if n.natAbs < Nat.pow 2 63 then .ok n else .error .intParsingSize
  | _ => .error .finiteNumber

def trueWords : List String :=
  ["1", "on", "t", "true", "y", "yes"]

def falseWords : List String :=
  ["0", "off", "f", "false", "n", "no"]

-- A switch: a truth value, one of the words for it in any case, or one or zero. Numbers that do not
-- fit into 64 bits are not taken for switches at all.
def switch : Value → Except Issue Bool
  | .bool b => .ok b
  | .text s =>
    if trueWords.contains s.toLower then .ok true
    else if falseWords.contains s.toLower then .ok false
    else .error .boolParsing
  | .int n => if -Int.pow 2 63 ≤ n ∧ n < Int.pow 2 63 then ofNumber n else .error .boolType
  | .float x =>
    match ofFloat x with
    | .ok n => ofNumber n
    | .error _ => .error .boolType
  | _ => .error .boolType
where
  ofNumber (n : Int) : Except Issue Bool :=
    if n = 1 then .ok true else if n = 0 then .ok false else .error .boolParsing

-- Takes the zeros in front off a number, and any underscores among them. If no digit follows them,
-- the last of these characters stays.
def unpadded? (text : List Char) : Option (List Char) :=
  match text with
  | '0' :: _ =>
    let (padding, rest) := text.span fun c => c == '0' || c == '_'
    match rest with
    | [] | '.' :: _ => some (padding.drop (padding.length - 1) ++ rest)
    | c :: _ => if c.isDigit then some rest else none
  | c :: _ => if c.isDigit then some text else none
  | [] => none

def unpointed (text : List Char) : List Char :=
  match Text.cut? ['.'] text with
  | some (places, zeros) => if !zeros.isEmpty && zeros.all (· == '0') then places else text
  | none => text

def ungrouped? (text : List Char) : Option (List Char) :=
  let groups := Text.parts ['_'] text
  if groups.all (!·.isEmpty) then some groups.flatten else none

-- A whole number in decimal places. There may be one sign, padding, zeros behind a point, and
-- groups; what is left without them is a number as JSON writes it.
def decimal (text : List Char) : Except Issue Int :=
  let (negative, text) := Json.signed (Text.trimmedOf Text.isSpace text)
  let plain? := do ungrouped? (unpointed (← unpadded? text))
  match plain?.map (Json.number .standard) with
  | some (.ok (.int n, [])) => .ok (if negative then -n else n)
  | some (.error (.tooLong ..)) => .error .intParsingSize
  | _ => .error .intParsing

def integer : Value → Except Issue Int
  | .bool b => .ok (if b then 1 else 0)
  | .int n => .ok n
  | .text s => decimal s.toList
  | .float x => ofFloat x
  | _ => .error .intType

def positive (v : Value) : Except Issue { n : Int // 1 ≤ n } := do
  let n ← integer v
  if h : 1 ≤ n then .ok ⟨n, h⟩ else .error .greaterThanEqual

def texts : Value → Except (List (Option Nat × Issue)) (List String)
  | .list vs =>
    let items := vs.map text
    let issues := items.zipIdx.filterMap fun (item, i) =>
      match item with
      | .ok _ => none
      | .error issue => some (some i, issue)
    if issues.isEmpty then .ok (items.filterMap Except.toOption) else .error issues
  | _ => .error [(none, .listType)]

end Phrasebook.Settings
