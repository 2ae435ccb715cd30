import Phrasebook.Locale
import Phrasebook.Options

namespace Phrasebook.Plural

structure Rule where
  -- A number for each form, in the order of the forms.
  numbers : List Int
  -- The form of a count.
  form : Int → Int
  -- Whether the form depends on the sign of the count.
  signed : Bool := false

namespace Rule

def isSimple (r : Rule) : Bool :=
  r.numbers.length == 2 && r.numbers.head? == some 1

def formOf (r : Rule) (count : Int) : Int :=
  r.form (if r.signed then count else count.natAbs)

def suffix {ι : Type} (r : Rule) (count : Int) (o : Options ι) : String :=
  let separator := o.pluralSeparator.textOr ""
  if r.numbers.length = 1 then ""
  else if r.isSimple then
    if r.formOf count = 0 then "" else separator ++ o.pluralSuffix.textOr "plural"
  else separator ++ toString (r.formOf count)

end Rule

abbrev Rulebook := Members Rule

-- The rule for the whole tag comes before the one for the language.
def Rulebook.rule? (rules : Rulebook) (l : Locale) : Option Rule :=
  Members.get? rules l.tag <|> Members.get? rules l.language

end Phrasebook.Plural
