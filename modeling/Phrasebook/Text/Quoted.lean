import Phrasebook.Conversion
import Phrasebook.Text.Unprintable

namespace Phrasebook.Text

def hex (width n : Nat) : List Char :=
  let digits := Nat.toDigits 16 n
  List.replicate (width - digits.length) '0' ++ digits

def mark (text : List Char) : Char :=
  if text.contains '\'' && !text.contains '"' then '"' else '\''

def quotedChar (mark c : Char) : List Char :=
  if c = mark ∨ c = '\\' then ['\\', c]
  else if c = '\n' then ['\\', 'n']
  else if c = '\r' then ['\\', 'r']
  else if c = '\t' then ['\\', 't']
  else if isPrintable c then [c]
  else if c.toNat < 0x100 then '\\' :: 'x' :: hex 2 c.toNat
  else if c.toNat < 0x10000 then '\\' :: 'u' :: hex 4 c.toNat
  else '\\' :: 'U' :: hex 8 c.toNat

-- A character that cannot be seen is written by number, and a lone half of a pair by its own one.
def quoted (conversion : Conversion) (text : String) : String :=
  let m := mark text.toList
  let inside (c : Char) : List Char :=
    match conversion.half? c with
    | some n => '\\' :: 'u' :: hex 4 n
    | none => quotedChar m c
  String.ofList (m :: text.toList.flatMap inside ++ [m])

end Phrasebook.Text
