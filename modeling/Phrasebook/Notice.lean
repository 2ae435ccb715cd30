import Phrasebook.Failure
import Phrasebook.Locale

namespace Phrasebook

inductive Level where
  | debug
  | info
  | warning
  | error
  | critical
deriving DecidableEq

namespace Level

def all : List Level :=
  [debug, info, warning, error, critical]

def name : Level → String
  | debug => "debug"
  | info => "info"
  | warning => "warning"
  | error => "error"
  | critical => "critical"

def rank : Level → Nat
  | debug => 10
  | info => 20
  | warning => 30
  | error => 40
  | critical => 50

end Level

inductive Notice where
  | bundleAdded (tag ns : String) (size : Nat)
  | noPluralRule (tag : String)
  | cycle (ns key : String) (context : Option String)
  | notFound (tag ns key : String) (candidates : List String)
  | failed (tag ns key : String) (failure : Failure)
  | unresolved (key tag : String)
  | created (tag : String) (fallbacks : List String)
deriving DecidableEq

namespace Notice

def level : Notice → Level
  | failed .. => .warning
  | created .. => .info
  | _ => .debug

def event : Notice → String
  | bundleAdded .. => "added_resource_bundle"
  | noPluralRule _ => "no_plural_rule"
  | cycle .. => "nesting_cycle_detected"
  | notFound .. => "translation_missing"
  | failed .. => "translation_failed"
  | unresolved .. => "key_not_resolved"
  | created .. => "i18next_created"

def component : Notice → String
  | bundleAdded .. => "resource_store"
  | noPluralRule _ => "plural"
  | cycle .. | notFound .. | failed .. => "translator"
  | unresolved .. => "service"
  | created .. => "factory"

def texts (ss : List String) : Value :=
  .list (ss.map .text)

def details : Notice → Members Value
  | bundleAdded tag ns size =>
    [("locale", .text tag), ("namespace", .text ns), ("key_count", .int size)]
  | noPluralRule tag => [("locale", .text tag)]
  | cycle ns key context =>
    [("namespace", .text ns), ("key", .text key), ("context", (context.map .text).getD .null)]
  | notFound tag ns key candidates =>
    [("locale", .text tag), ("namespace", .text ns), ("key", .text key),
      ("candidates", texts candidates)]
  | failed tag ns key failure =>
    [("locale", .text tag), ("namespace", .text ns), ("key", .text key),
      ("error", .text failure.message), ("error_type", .text failure.kind)]
  | unresolved key tag => [("key", .text key), ("locale", .text tag)]
  | created tag fallbacks =>
    [("default_locale", .text tag), ("fallback_namespaces", texts fallbacks)]

def channel : String :=
  "i18next"

def record (n : Notice) : Members Value :=
  [("event", .text n.event), ("level", .text n.level.name), ("logger", .text channel),
    ("component", .text n.component), ("module_path", .text (channel ++ "." ++ n.component))] ++
    n.details

end Notice
end Phrasebook
