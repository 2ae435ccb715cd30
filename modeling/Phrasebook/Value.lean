import Phrasebook.Decimal.Layout
import Phrasebook.Members
import Phrasebook.Text.Mark
import Phrasebook.Text.Quoted

namespace Phrasebook

inductive Value where
  | null
  | bool (b : Bool)
  | int (n : Int)
  | float (x : Float)
  | text (s : String)
  | list (items : List Value)
  | object (members : List (String × Value))

abbrev Bag := Members Value

namespace Value

-- Numbers from `0.0001` up to but not including `10 ^ 16` are written out in places.
def floats : Decimal.Layout where
  least := -4
  limit := 16
  exponentWidth := 2

mutual

def written (c : Conversion) : Value → String
  | null => "None"
  | bool true => "True"
  | bool false => "False"
  | int n => toString n
  | float x => floats.float x
  | text s => Text.quoted c s
  | list items => "[" ++ ", ".intercalate (writtenItems c items) ++ "]"
  | object members => "\x7b" ++ ", ".intercalate (writtenMembers c members) ++ "\x7d"

def writtenItems (c : Conversion) : List Value → List String
  | [] => []
  | v :: vs => written c v :: writtenItems c vs

def writtenMembers (c : Conversion) : List (String × Value) → List String
  | [] => []
  | (name, v) :: ms => (Text.quoted c name ++ ": " ++ written c v) :: writtenMembers c ms

end

def shown (v : Value) (c : Conversion := .standard) : String :=
  match v with
  | text s => s
  | v => written c v

mutual

def integers : Value → List Int
  | int n => [n]
  | list items => integersOfItems items
  | object members => integersOfMembers members
  | _ => []

def integersOfItems : List Value → List Int
  | [] => []
  | v :: vs => integers v ++ integersOfItems vs

def integersOfMembers : List (String × Value) → List Int
  | [] => []
  | (_, v) :: ms => integers v ++ integersOfMembers ms

end

def members? : Value → Option (Members Value)
  | object ms => some ms
  | _ => none

def text? : Value → Option String
  | text s => some s
  | _ => none

def descend? : Value → List String → Option Value
  | v, [] => some v
  | v, name :: names => do descend? (← (← v.members?).get? name) names

end Value

namespace Bag

-- The value of a name: the member of that very name, or else the one at the end of the path into
-- which the separator splits the name.
def lookup? (bag : Bag) (name : String) (separator : Option String) : Option Value :=
  bag.get? name <|> do (Value.object bag).descend? (← Text.path? separator name)

def context? (bag : Bag) : Option String :=
  ((bag.get? "context").bind Value.text?).filter (!·.isEmpty)

def count? (bag : Bag) : Option Int :=
  match bag.get? "count" with
  | some (.int n) => some n
  | _ => none

end Bag
end Phrasebook
