import Phrasebook.Json.Reader
import Phrasebook.Settings.Basic
import Phrasebook.Settings.Conversion

namespace Phrasebook.Settings

inductive Field where
  | stage
  | logLevel
  | defaultLocale
  | nsSeparator
  | contextSeparator
  | pluralSeparator
  | keySeparator
  | escapes
  | fallbacks
  | depthLimit
deriving DecidableEq

namespace Field

def name : Field → String
  | stage => "PREFIX"
  | logLevel => "LOG_LEVEL"
  | defaultLocale => "default_locale"
  | nsSeparator => "namespace_separator"
  | contextSeparator => "context_separator"
  | pluralSeparator => "plural_separator"
  | keySeparator => "key_separator"
  | escapes => "escape_value"
  | fallbacks => "fallback_namespaces"
  | depthLimit => "max_nesting_depth"

def label : Field → String
  | stage => "PREFIX"
  | logLevel => "LOG_LEVEL"
  | defaultLocale => "I18N_DEFAULT_LOCALE"
  | nsSeparator => "I18N_NAMESPACE_SEPARATOR"
  | contextSeparator => "I18N_CONTEXT_SEPARATOR"
  | pluralSeparator => "I18N_PLURAL_SEPARATOR"
  | keySeparator => "I18N_KEY_SEPARATOR"
  | escapes => "I18N_ESCAPE_VALUE"
  | fallbacks => "I18N_FALLBACK_NAMESPACES"
  | depthLimit => "I18N_MAX_NESTING_DEPTH"

end Field

structure Entry (α : Type) where
  name : String
  value : α

def Field.member? {α : Type} (f : Field) (ms : Members α) : Option (Entry α) :=
  [f.label, f.name].findSome? fun name => (Members.get? ms name).map (Entry.mk name)

inductive Origin where
  | environment
  | file
deriving DecidableEq

def Origin.name : Origin → String
  | environment => "EnvSettingsSource"
  | file => "DotEnvSettingsSource"

structure Complaint where
  name : String
  item : Option Nat := none
  issue : Issue
deriving DecidableEq

def Complaint.text (c : Complaint) : String :=
  let place := c.item.elim c.name fun i => c.name ++ "." ++ toString i
  place ++ ": " ++ c.issue.name

inductive Fault where
  -- The list of a field is not JSON.
  | unreadable (field : Field) (origin : Origin)
  | invalid (complaints : List Complaint)
deriving DecidableEq

namespace Fault

def kind : Fault → String
  | unreadable .. => "SettingsError"
  | invalid _ => "ValidationError"

def message : Fault → String
  | unreadable field origin =>
    "error parsing value for field \"" ++ field.name ++ "\" from source \"" ++ origin.name ++ "\""
  | invalid complaints => "; ".intercalate (complaints.map Complaint.text)

end Fault

structure Source where
  origin : Origin
  texts : Members String

namespace Source

-- What a source says about a field. A list that is null says nothing.
def read? (s : Source) (f : Field) : Except Fault (Option (Entry Value)) :=
  match f, f.member? s.texts with
  | _, none => .ok none
  | .fallbacks, some e =>
    match Json.read e.value with
    | .ok .null => .ok none
    | .ok v => .ok (some ⟨e.name, v⟩)
    | .error _ => .error (.unreadable f s.origin)
  | _, some e => .ok (some ⟨e.name, .text e.value⟩)

def uncommented : List Char → List Char
  | [] => []
  | [c] => [c]
  | c :: '#' :: cs => if Text.isBlank c then [] else c :: uncommented ('#' :: cs)
  | c :: cs => c :: uncommented cs

def definition? (line : List Char) : Option (String × String) :=
  match Text.trimmed line with
  | '#' :: _ => none
  | line =>
    (Text.cut? ['='] line).map fun (name, value) =>
      let value := uncommented (value.dropWhile Text.isBlank)
      (String.ofList (Text.trimmed name), String.ofList (Text.trimmed value))

-- A file of definitions, of which the last one of a name counts.
def ofLines (content : String) : Source where
  origin := .file
  texts :=
    let lines := Text.parts ['\n'] (content.toList.map fun c => if c = '\r' then '\n' else c)
    Members.putAll [] (lines.filterMap definition?)

end Source

def chosen (given : Members Value) (sources : List Source) (f : Field) :
    Except Fault (Option (Entry Value)) := do
  let entries := (← sources.mapM (·.read? f)).filterMap id
  return f.member? given <|> entries.find? (·.name == f.label) <|> entries.head?

abbrev Checked (α : Type) :=
  Except (List Complaint) α

def checked {α : Type} (convert : Value → Except Issue α) (default : α)
    (entry : Option (Entry Value)) : Checked α :=
  match entry with
  | none => .ok default
  | some e => (convert e.value).mapError fun issue => [{ name := e.name, issue }]

def checkedList (default : List String) (entry : Option (Entry Value)) : Checked (List String) :=
  match entry with
  | none => .ok default
  | some e => (texts e.value).mapError fun found => found.map fun (item, issue) =>
      { name := e.name, item, issue }

def complaints {α : Type} : Checked α → List Complaint
  | .ok _ => []
  | .error found => found

-- Reads all fields. The complaints about all of them come together, in the order of the fields.
def ofSources (given : Members Value) (sources : List Source) : Except Fault Settings := do
  let entry := chosen given sources
  let d : Settings := {}
  let stage := checked text d.stage (← entry .stage)
  let logLevel := checked text d.logLevel (← entry .logLevel)
  let defaultLocale := checked text d.defaultLocale (← entry .defaultLocale)
  let nsSeparator := checked text d.nsSeparator (← entry .nsSeparator)
  let contextSeparator := checked text d.contextSeparator (← entry .contextSeparator)
  let pluralSeparator := checked text d.pluralSeparator (← entry .pluralSeparator)
  let keySeparator := checked text d.keySeparator (← entry .keySeparator)
  let escapes := checked switch d.escapes (← entry .escapes)
  let fallbacks := checkedList d.fallbacks (← entry .fallbacks)
  let depthLimit := checked positive ⟨d.depthLimit, d.one_le_depthLimit⟩ (← entry .depthLimit)
  let found := complaints stage ++ complaints logLevel ++ complaints defaultLocale ++
    complaints nsSeparator ++ complaints contextSeparator ++ complaints pluralSeparator ++
    complaints keySeparator ++ complaints escapes ++ complaints fallbacks ++ complaints depthLimit
  let all : Checked Settings := do
    let limit ← depthLimit
    return {
      stage := ← stage
      logLevel := ← logLevel
      defaultLocale := ← defaultLocale
      nsSeparator := ← nsSeparator
      contextSeparator := ← contextSeparator
      pluralSeparator := ← pluralSeparator
      keySeparator := ← keySeparator
      escapes := ← escapes
      fallbacks := ← fallbacks
      depthLimit := limit.val
      one_le_depthLimit := limit.property }
  all.mapError fun _ => .invalid found

end Phrasebook.Settings
