import Phrasebook.Notice
import Phrasebook.Plural.Rule
import Phrasebook.Run

namespace Phrasebook

-- A store, formatters and handlers, told by their names, and plural rules. They answer the same
-- question always in the same way.
structure Host (ι : Type) where
  retrieve : Locale → String → String → Options ι → Except Failure (Option String)
  format : ι → Value → String → Locale → Options ι → Except Failure (Option Value)
  missing : ι → Locale → String → Bag → Options ι → Except Failure (Option String)
  failed : ι → Locale → String → String → Bag → Options ι → Failure →
    Except Failure (Option String)
  rules : Plural.Rulebook
  conversion : Conversion := .standard

def Host.write {ι : Type} (h : Host ι) (v : Value) : Except Failure String :=
  match v.integers.findSome? h.conversion.exceeded? with
  | none => .ok (v.shown h.conversion)
  | some limit => .error (.host "ValueError" (beyondLimit limit none))

def Host.ofTemplates (templates : Members String) : Host Empty where
  retrieve _ _ key _ := .ok (templates.get? key)
  format := nofun
  missing := nofun
  failed := nofun
  rules := []

structure Frame where
  ns : String
  key : String
  context : Option String
deriving DecidableEq

inductive Act (ι : Type) where
  | retrieve (locale : Locale) (ns key : String) (options : Options ι)
  | pluralize (locale : Locale) (count : Int) (options : Options ι)
  | render (frame : Frame) (template : String) (bag : Bag)
  | format (formatter : ι) (value : Value) (name : String) (locale : Locale) (options : Options ι)
  | nest (key : String) (locale : Locale) (bag : Bag) (options : Options ι)
  | fail (handler : OnFailure ι) (locale : Locale) (ns key : String) (bag : Bag)
      (options : Options ι) (failure : Failure)
  | miss (handler : ι) (locale : Locale) (key : String) (bag : Bag) (options : Options ι)
  | fallback (key : String)
  | notice (n : Notice)

-- An act, and the templates that are being rendered when it takes place, outermost first.
structure Event (ι : Type) where
  chain : List Frame
  act : Act ι

structure Site (ι : Type) where
  host : Host ι
  locale : Locale
  options : Options ι
  chain : List Frame := []

namespace Site

variable {ι : Type}

def emit (site : Site ι) (act : Act ι) : Run (Event ι) Unit :=
  Run.emit ⟨site.chain, act⟩

def enter (site : Site ι) (frame : Frame) : Site ι :=
  { site with chain := site.chain ++ [frame] }

end Site
end Phrasebook
