import Phrasebook.Failure
import Phrasebook.Text.Blank
import Phrasebook.Text.Cut

namespace Phrasebook

structure Locale where
  language : String
  region : Option String
deriving DecidableEq

namespace Locale

def tag (l : Locale) : String :=
  match l.region.filter (!·.isEmpty) with
  | some region => l.language ++ "-" ++ region
  | none => l.language

-- Reads a tag, without the blanks around it and with either a dash or an underscore between
-- language and region. The first dash ends the language.
def parse (text : String) : Except Failure Locale :=
  let tag := (Text.trimmed text.toList).map fun c => if c = '_' then '-' else c
  if tag.isEmpty then .error .blankTag
  else match Text.cut? ['-'] tag with
    | some (language, region) =>
      .ok ⟨String.ofList language, if region.isEmpty then none else some (String.ofList region)⟩
    | none => .ok ⟨String.ofList tag, none⟩

inductive Given where
  | tag (text : String)
  | locale (l : Locale)

def Given.read : Given → Except Failure Locale
  | tag text => parse text
  | locale l => .ok l

end Locale
end Phrasebook
