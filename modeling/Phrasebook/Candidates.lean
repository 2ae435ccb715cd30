import Phrasebook.Event

namespace Phrasebook

variable {ι : Type}

def variants (o : Options ι) (key : String) (context suffix : Option String) : List String :=
  let inContext := context.map fun c => key ++ o.contextSeparator.textOr "" ++ c
  let counted (key : Option String) : Option String := do return (← key) ++ (← suffix)
  [counted inContext, inContext, counted (some key), some key].filterMap id

def Site.pluralSuffix (site : Site ι) (count : Int) : Run (Event ι) String := do
  site.emit (.pluralize site.locale count site.options)
  match site.host.rules.rule? site.locale with
  | none =>
    site.emit (.notice (.noPluralRule site.locale.tag))
    return ""
  | some rule => return rule.suffix count site.options

def candidates (site : Site ι) (key : String) (bag : Bag) : Run (Event ι) (List String) := do
  let suffix ←
    match bag.count? with
    | none => pure none
    | some count => some <$> site.pluralSuffix count
  return (variants site.options key bag.context? suffix).eraseDups

end Phrasebook
