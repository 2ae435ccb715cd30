import Phrasebook.Candidates
import Phrasebook.Key
import Phrasebook.Template.Nested

namespace Phrasebook

variable {ι : Type}

-- What a level of resolution knows: the namespace of keys without one, and the open templates.
structure Scope where
  ns : Option String := none
  chain : List Frame := []

open Template

namespace Resolution

def nested (deeper : Scope → Resolver ι) (site : Site ι) (ns template : String) : Resolver ι :=
  fun key locale bag options =>
    match site.options.depthLimit.value? with
    | some limit =>
      if limit ≤ site.chain.length then .raise (.render (.tooDeep limit) template key)
      else deeper ⟨some ns, site.chain⟩ key locale bag options
    | none => deeper ⟨some ns, site.chain⟩ key locale bag options

def find (deeper : Scope → Resolver ι) (site : Site ι) (ns key : String) (bag : Bag) :
    Run (Event ι) (Option String) := do
  site.emit (.retrieve site.locale ns key site.options)
  match ← Run.ofExcept (site.host.retrieve site.locale ns key site.options) with
  | none => return none
  | some template =>
    let frame : Frame := ⟨ns, key, bag.context?⟩
    let inner := { site with chain := site.chain ++ [frame] }
    inner.emit (.render frame template bag)
    let filled ← interpolateAround inner bag template
    some <$> nest inner bag (nested deeper inner ns template) filled

def recover (site : Site ι) (ns key : String) (bag : Bag) (failure : Failure) :
    Run (Event ι) (Option String) :=
  match site.options.onFailure.value? with
  | none => .raise failure
  | some handler => do
    site.emit (.fail handler site.locale ns key bag site.options failure)
    match handler with
    | .warn =>
      site.emit (.notice (.failed site.locale.tag ns key failure))
      return none
    | .handler name =>
      Run.ofExcept (site.host.failed name site.locale ns key bag site.options failure)

-- Searches places in turn. The search is settled by the first place that has a template, fails, or
-- is being rendered already; if there is none, the answer is `none`.
def search (deeper : Scope → Resolver ι) (site : Site ι) (bag : Bag) :
    List (String × String) → Run (Event ι) (Option (Option String))
  | [] => return none
  | (ns, key) :: places =>
    let frame : Frame := ⟨ns, key, bag.context?⟩
    if frame ∈ site.chain then do
      site.emit (.notice (.cycle ns key bag.context?))
      return some none
    else do
      match ← (find deeper site ns key bag).attempt with
      | .ok (some s) => return some (some s)
      | .ok none => search deeper site bag places
      | .error failure => some <$> recover site ns key bag failure

def places (o : Options ι) (ns : String) (keys : List String) : List (String × String) :=
  (ns :: o.fallbacks.value?.getD []).flatMap fun ns => keys.map (ns, ·)

def resolveIn (deeper : Scope → Resolver ι) (site : Site ι) (ns key : String) (bag : Bag) :
    Run (Event ι) (Option String) := do
  let keys ← candidates site key bag
  match ← search deeper site bag (places site.options ns keys) with
  | some settled => return settled
  | none =>
    site.emit (.notice (.notFound site.locale.tag ns key keys))
    return none

def resolve (deeper : Scope → Resolver ι) (host : Host ι) (scope : Scope) : Resolver ι :=
  fun raw locale bag options =>
    let key := Key.parse raw options.nsSeparator.value?
    let ns := key.ns.getD (scope.ns.getD "")
    resolveIn deeper ⟨host, locale, options, scope.chain⟩ ns key.path bag

def level (host : Host ι) : Nat → Scope → Resolver ι
  | 0 => fun _ _ _ _ _ => .starved
  | fuel + 1 => resolve (level host fuel) host

-- Levels that are open at once when there is no limit. It is far beyond what templates that people
-- write need; only templates without end reach it.
def ceiling : Nat :=
  1000

-- With a limit, so many levels below a chain can be entered; there is always a first.
def fuel (o : Options ι) (chain : List Frame) : Nat :=
  match o.depthLimit.value? with
  | some limit => max 1 (limit - chain.length).toNat
  | none => ceiling

def resolver (host : Host ι) (scope : Scope) : Resolver ι :=
  fun raw locale bag options =>
    level host (fuel options scope.chain) scope raw locale bag options

end Resolution
end Phrasebook
