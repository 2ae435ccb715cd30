import Phrasebook.Locale
import Phrasebook.Notice
import Phrasebook.Options
import Phrasebook.Run

namespace Phrasebook

mutual

-- Writes a tree over another one: trees of one name are merged, all else is replaced.
def mergeTree (target : Members Value) : List (String × Value) → Members Value
  | [] => target
  | (name, v) :: source =>
    mergeTree (target.put name (mergeValue (target.get? name) v)) source

def mergeValue (old : Option Value) : Value → Value
  | .object source => .object (mergeTree ((old.bind Value.members?).getD []) source)
  | v => v

end

structure Catalog where
  -- By locale tag, then by namespace.
  data : Members (Members (Members Value)) := []

namespace Catalog

def tree? (c : Catalog) (tag ns : String) : Option (Members Value) := do
  (← c.data.get? tag).get? ns

def modify (c : Catalog) (tag ns : String) (f : Members Value → Members Value) : Catalog :=
  let spaces := (c.data.get? tag).getD []
  ⟨c.data.put tag (spaces.put ns (f ((spaces.get? ns).getD [])))⟩

def add (c : Catalog) (locale : Locale.Given) (ns key : String) (v : Value) :
    Except Failure Catalog := do
  let l ← locale.read
  return c.modify l.tag ns (·.put key v)

def addBundle (c : Catalog) (locale : Locale.Given) (ns : String) (source : Members Value) :
    Run Notice Catalog := do
  let l ← Run.ofExcept locale.read
  Run.emit (.bundleAdded l.tag ns source.length)
  return c.modify l.tag ns (mergeTree · source)

def ofBundles (bundles : Members (Members (Members Value))) : Run Notice Catalog :=
  bundles.foldlM (fun c (tag, spaces) =>
    spaces.foldlM (fun c (ns, source) => c.addBundle (.tag tag) ns source) c) {}

def hasNamespace (c : Catalog) (locale : Locale.Given) (ns : String) : Except Failure Bool := do
  let l ← locale.read
  return (c.tree? l.tag ns).isSome

-- The template under a key of a tree: the text under that very name, or else the text at the end of
-- the path into which the separator splits the key. What is not text is no template.
def walk? (tree : Members Value) (key : String) (separator : Option String) : Option String :=
  (tree.get? key).bind Value.text? <|> do
    Value.text? (← (Value.object tree).descend? (← Text.path? separator key))

def retrieve {ι : Type} (c : Catalog) (l : Locale) (ns key : String) (o : Options ι) :
    Option String :=
  [l.tag, l.language].findSome? fun tag =>
    (c.tree? tag ns).bind fun tree => walk? tree key o.keySeparator.value?

end Catalog
end Phrasebook
