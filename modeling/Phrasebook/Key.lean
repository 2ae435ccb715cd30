import Phrasebook.Text.Mark

namespace Phrasebook

structure Key where
  ns : Option String
  path : String
  separator : String := ":"

namespace Key

def parse (raw : String) (separator : Option String) : Key :=
  match separator, Text.split? separator raw with
  | some separator, some (ns, path) => ⟨some ns, path, separator⟩
  | _, _ => { ns := none, path := raw }

def text (k : Key) : String :=
  match k.ns with
  | none => k.path
  | some ns => ns ++ k.separator ++ k.path

-- Keys name the same entry whatever they were split at.
def same (k₁ k₂ : Key) : Bool :=
  k₁.ns == k₂.ns && k₁.path == k₂.path

end Key
end Phrasebook
