import Phrasebook.Event
import Phrasebook.Markup
import Phrasebook.Template.Marks
import Phrasebook.Text.Blank

namespace Phrasebook.Template

variable {ι : Type}

structure Variable where
  raw : Bool
  name : String
  format : Option String
deriving DecidableEq

namespace Variable

def ofContent (mark : Option String) (content : List Char) : Bool × List Char :=
  let content := Text.trimmed content
  match (mark.filter (!·.isEmpty)).bind fun m => Text.after? m.toList content with
  | some rest => (true, Text.trimmed rest)
  | none => (false, content)

-- The name stands before the first format separator. A blank format is none.
def parse (o : Options ι) (content : List Char) : Variable :=
  let (raw, content) := ofContent o.rawMark.value? content
  let (name, format) :=
    (Text.cut? (o.formatSeparator.textOr ",").toList content).getD (content, [])
  { raw
    name := String.ofList (Text.trimmed name)
    format := some (String.ofList (Text.trimmed format)) |>.filter (!·.isEmpty) }

def plainText (site : Site ι) (refuse : Cause → Failure) (value : Value) :
    Option String → Run (Event ι) String
  | none => Run.ofExcept (site.host.write value)
  | some format =>
    match ((site.options.formats.value?).getD []).get? format with
    | none => .raise (refuse (.unknownFormat format))
    | some formatter => do
      site.emit (.format formatter value format site.locale site.options)
      match ← Run.ofExcept (site.host.format formatter value format site.locale site.options) with
      | none => .raise (refuse (.silentFormat format))
      | some formatted => Run.ofExcept (site.host.write formatted)

def text (site : Site ι) (bag : Bag) (refuse : Cause → Failure) (v : Variable) :
    Run (Event ι) (List Char) :=
  if v.name.isEmpty then .raise (refuse .emptyToken)
  else match bag.lookup? v.name site.options.keySeparator.value? with
    | none | some .null => .raise (refuse (.unbound v.name))
    | some value => do
      let s ← plainText site refuse value v.format
      if v.raw || site.options.escapes.value? == some false then return s.toList
      else return Markup.escape s.toList

end Variable

def fill (site : Site ι) (bag : Bag) (template : String) (part : List Char) :
    Run (Event ι) (List Char) :=
  let marks := site.options.variableMarks
  (marks.split part).renderM pure fun content =>
    (Variable.parse site.options content).text site bag
      fun cause => .render cause template (String.ofList (marks.token content))

def interpolate (site : Site ι) (bag : Bag) (template : String) : Run (Event ι) String :=
  String.ofList <$> fill site bag template template.toList

def interpolateAround (site : Site ι) (bag : Bag) (template : String) : Run (Event ι) String :=
  let marks := site.options.nestingMarks
  String.ofList <$> (marks.split template.toList).renderM (fill site bag template) fun content =>
    return marks.token content

end Phrasebook.Template
