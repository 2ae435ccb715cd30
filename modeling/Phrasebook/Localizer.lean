import Phrasebook.Catalog
import Phrasebook.Resolution
import Phrasebook.Settings.Basic

namespace Phrasebook

variable {ι : Type}

def Host.withCatalog (host : Host ι) (c : Catalog) : Host ι :=
  { host with retrieve := fun l ns key o => .ok (c.retrieve l ns key o) }

structure Request (ι : Type) where
  key : String
  locale : Locale
  bag : Bag
  options : Options ι

namespace Request

def build (key : String) (locale : Locale.Given) (bag : Bag) (options : Option (Options ι))
    (context count : Option Value) : Except Failure (Request ι) := do
  let bag := context.elim bag (bag.put "context")
  let bag := count.elim bag (bag.put "count")
  return ⟨key, ← locale.read, bag, options.getD .base⟩

end Request

structure Query (ι : Type) where
  key : String
  locale : Option Locale.Given := none
  context : Option Value := none
  count : Option Value := none
  bag : Bag := []
  options : Option (Options ι) := none

structure Localizer (ι : Type) where
  locale : Locale
  host : Host ι
  options : Options ι := {}

namespace Localizer

-- The options of a call lie over those of the localizer, and these over the base.
def effective (l : Localizer ι) (options : Option (Options ι)) : Options ι :=
  (Options.base.merge l.options).merge? options

def request (l : Localizer ι) (q : Query ι) : Except Failure (Request ι) :=
  Request.build q.key (q.locale.getD (.locale l.locale)) q.bag (some (l.effective q.options))
    q.context q.count

theorem options_of_request {l : Localizer ι} {q : Query ι} {r : Request ι}
    (h : l.request q = .ok r) : r.options = l.effective q.options := by
  simp only [request, Request.build] at h
  cases hl : (q.locale.getD (.locale l.locale)).read
  case error => simp [hl, bind, Except.bind] at h
  case ok =>
    rw [hl] at h
    cases h
    rfl

def answer (l : Localizer ι) (r : Request ι) : Run (Event ι) (Option String) := do
  match ← Resolution.resolver l.host {} r.key r.locale r.bag r.options with
  | some s => return some s
  | none =>
    Run.emit ⟨[], .notice (.unresolved r.key r.locale.tag)⟩
    return none

def text? (l : Localizer ι) (q : Query ι) : Run (Event ι) (Option String) := do
  l.answer (← Run.ofExcept (l.request q))

-- The text of a key. A key without one is handed to `orElse` if that is given; if not, to the
-- handler for missing keys, and if there is none or it has no answer, the key stands for itself.
def text (l : Localizer ι) (q : Query ι)
    (orElse : Option (String → Except Failure (Option String)) := none) :
    Run (Event ι) (Option String) := do
  let r ← Run.ofExcept (l.request q)
  match ← l.answer r with
  | some s => return some s
  | none =>
    match orElse, r.options.onMissing.value? with
    | some producer, _ =>
      Run.emit ⟨[], .fallback q.key⟩
      Run.ofExcept (producer q.key)
    | none, some handler =>
      Run.emit ⟨[], .miss handler r.locale q.key r.bag r.options⟩
      let s ← Run.ofExcept (l.host.missing handler r.locale q.key r.bag r.options)
      return some (s.getD q.key)
    | none, none => return some q.key

def create (host : Host ι) (settings : Settings) (options : Option (Options ι)) :
    Run Notice (Localizer ι) := do
  let options := settings.options.merge? options
  let l ← Run.ofExcept (Locale.parse settings.defaultLocale)
  Run.emit (.created l.tag (options.fallbacks.value?.getD []))
  return ⟨l, host, options⟩

end Localizer
end Phrasebook
