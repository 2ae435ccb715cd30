import Phrasebook.Notice
import Phrasebook.Settings.Basic

namespace Phrasebook.Reporting

inductive Form where
  | json
  | console
  -- Nothing is written.
  | silent
deriving DecidableEq

structure Report where
  level : Nat
  form : Form
deriving DecidableEq

-- The one name that is known but names no level.
structure UnknownLevel where
  name : String

def UnknownLevel.message (e : UnknownLevel) : String :=
  "Unknown level: '" ++ e.name ++ "'"

-- Beside the ASCII letters, two small letters have a capital among them.
def capital (c : Char) : Char :=
  if c = 'ı' then 'I' else if c = 'ſ' then 'S' else c.toUpper

def rankOf (name : String) : Except UnknownLevel Nat :=
  match name.map capital with
  | "DEBUG" => .ok 10
  | "INFO" => .ok 20
  | "WARNING" | "WARN" => .ok 30
  | "ERROR" => .ok 40
  | "CRITICAL" | "FATAL" => .ok 50
  | "NOTSET" => .ok 0
  | "BASIC_FORMAT" => .error ⟨"%(levelname)s:%(name)s:%(message)s"⟩
  | _ => .ok 30

def configure (settings : Settings) (logLevel : Option String) (production : Option Bool)
    (testing : Bool) : Except UnknownLevel Report := do
  if testing then
    return ⟨51, .silent⟩
  let rank ← rankOf ((logLevel.filter (!·.isEmpty)).getD settings.logLevel)
  return ⟨rank, if production.getD settings.isProduction then .json else .console⟩

-- A channel without a level of its own has that of the one above it, which is `WARNING`.
def Report.threshold (r : Report) : Nat :=
  if r.level = 0 then 30 else r.level

def Report.enabled (r : Report) (l : Level) : Bool :=
  r.threshold ≤ l.rank

def Report.records (r : Report) (notices : List Notice) : List (Members Value) :=
  (notices.filter fun n => r.enabled n.level).map Notice.record

end Phrasebook.Reporting
