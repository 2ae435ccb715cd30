import Phrasebook.Json.Reader
import Phrasebook.Template.Interpolation

namespace Phrasebook.Template

variable {ι : Type}

abbrev Resolver (ι : Type) :=
  String → Locale → Bag → Options ι → Run (Event ι) (Option String)

structure Nested where
  key : String
  inner : String
deriving DecidableEq

namespace Nested

def parse (o : Options ι) (content : List Char) : Nested :=
  let (key, inner) := (Text.cut? (o.nestSeparator.textOr ",").toList content).getD (content, [])
  { key := String.ofList (Text.trimmed key), inner := String.ofList inner }

-- Why own variables cannot be read. A number that is too long is no fault of their text.
def unreadable (refuse : Cause → Failure) : Json.Fault → Failure
  | .tooLong limit n => .host "ValueError" (Json.Fault.tooLong limit n).message
  | fault => refuse (.unreadableOptions fault)

-- The variables of the nested key: its own ones over those of the template. Its own ones may be
-- made from those of the template, and are not escaped, since they are no markup yet.
def bag (site : Site ι) (outer : Bag) (refuse : Cause → Failure) (n : Nested) :
    Run (Event ι) Bag :=
  if (Text.trimmed n.inner.toList).isEmpty then return outer
  else do
    let text ← interpolate { site with options := site.options.unescaped } outer n.inner
    match Json.read text site.host.conversion with
    | .error fault => .raise (unreadable refuse fault)
    | .ok (.object ms) => return outer.putAll ms
    | .ok _ => .raise (refuse .optionsNotObject)

def text (site : Site ι) (outer : Bag) (resolve : Resolver ι) (refuse : Cause → Failure)
    (n : Nested) : Run (Event ι) (List Char) :=
  if n.key.isEmpty then .raise (refuse .emptyNesting)
  else do
    let inner ← n.bag site outer refuse
    site.emit (.nest n.key site.locale inner site.options)
    match ← resolve n.key site.locale inner site.options with
    | none => .raise (refuse (.nestedMissing n.key))
    | some s => return s.toList

end Nested

def nest (site : Site ι) (bag : Bag) (resolve : Resolver ι) (template : String) :
    Run (Event ι) String :=
  let marks := site.options.nestingMarks
  String.ofList <$> (marks.split template.toList).renderM pure fun content =>
    (Nested.parse site.options content).text site bag resolve
      fun cause => .render cause template (String.ofList (marks.token content))

end Phrasebook.Template
