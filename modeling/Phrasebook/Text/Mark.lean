import Phrasebook.Text.Cut

namespace Phrasebook.Text

def present? (mark : Option String) (text : String) : Option String :=
  mark.filter fun m => !m.isEmpty && (cut? m.toList text.toList).isSome

def split? (mark : Option String) (text : String) : Option (String × String) :=
  (present? mark text).bind fun m =>
    (cut? m.toList text.toList).map fun (before, rest) =>
      (String.ofList before, String.ofList rest)

def path? (mark : Option String) (text : String) : Option (List String) :=
  (present? mark text).map fun m => (parts m.toList text.toList).map String.ofList

end Phrasebook.Text
