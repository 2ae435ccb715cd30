import Phrasebook.Proofs.Run.Endings
import Phrasebook.Proofs.Template.Plain
import Phrasebook.Resolution

namespace Phrasebook.Resolution

variable {ι : Type}

open Template

structure Lookup (ι : Type) where
  site : Site ι
  ns : String
  key : String
  bag : Bag

namespace Lookup

variable (u : Lookup ι)

def frame : Frame :=
  ⟨u.ns, u.key, u.bag.context?⟩

def inner : Site ι :=
  u.site.enter u.frame

def stored : Except Failure (Option String) :=
  u.site.host.retrieve u.site.locale u.ns u.key u.site.options

def retrieval : Event ι :=
  ⟨u.site.chain, .retrieve u.site.locale u.ns u.key u.site.options⟩

def opening (template : String) : Event ι :=
  ⟨u.inner.chain, .render u.frame template u.bag⟩

def cycle : Event ι :=
  ⟨u.site.chain, .notice (.cycle u.ns u.key u.bag.context?)⟩

def rendering (deeper : Scope → Resolver ι) : Run (Event ι) (Option String) := do
  match ← Run.ofExcept u.stored with
  | none => return none
  | some template =>
    u.inner.emit (.render u.frame template u.bag)
    let filled ← interpolateAround u.inner u.bag template
    some <$> nest u.inner u.bag (nested deeper u.inner u.ns template) filled

-- Nothing is looked for behind the place: its template is open already, or the store has any answer
-- but that there is none.
def Decides : Prop :=
  u.frame ∈ u.site.chain ∨ u.stored ≠ .ok none

variable {deeper : Scope → Resolver ι} {template : String}

theorem find_eq_rendering {deeper : Scope → Resolver ι} :
    find deeper u.site u.ns u.key u.bag =
      ⟨u.retrieval :: (u.rendering deeper).events, (u.rendering deeper).outcome⟩ :=
  Run.emit_bind

theorem chain_prefix_inner : u.site.chain <+: u.inner.chain :=
  List.prefix_append _ _

variable {u}

theorem rendering_of_none (hs : u.stored = .ok none) : u.rendering deeper = pure none := by
  rw [rendering, hs]
  rfl

theorem rendering_of_stored (ht : u.stored = .ok (some template)) :
    u.rendering deeper = (do
      Run.emit (u.opening template)
      let filled ← interpolateAround u.inner u.bag template
      some <$> nest u.inner u.bag (nested deeper u.inner u.ns template) filled) := by
  rw [rendering, ht]
  rfl

theorem rendering_of_plain {text : String} (ht : u.stored = .ok (some text))
    (hp : u.site.options.Plain text) :
    u.rendering deeper = ⟨[u.opening text], .done (some text)⟩ := by
  have hi : u.inner.options.Plain text := hp
  rw [rendering_of_stored ht, interpolateAround_of_plain hi, pure_bind, nest_of_plain hi]
  rfl

theorem stored_of_rendering (h : (u.rendering deeper).outcome = .done none) :
    u.stored = .ok none := by
  obtain ⟨found, hf, h⟩ := Run.outcome_bind_eq_done_iff.1 h
  cases found
  case none => exact Run.outcome_ofExcept_eq_done_iff.1 hf
  case some =>
    obtain ⟨_, _, h⟩ := Run.outcome_bind_eq_done_iff.1 h
    obtain ⟨_, _, h⟩ := Run.outcome_bind_eq_done_iff.1 h
    obtain ⟨_, _, h⟩ := Run.outcome_map_eq_done_iff.1 h
    cases h

end Lookup

section Search

variable {deeper : Scope → Resolver ι} {site : Site ι} {bag : Bag}
  {missed : Run (Event ι) (Option String)} {before rest : List (String × String)}
  {place : String × String}

def look (site : Site ι) (bag : Bag) (place : String × String) : Lookup ι :=
  ⟨site, place.1, place.2, bag⟩

def searchOr (deeper : Scope → Resolver ι) (site : Site ι) (bag : Bag)
    (missed : Run (Event ι) (Option String)) (places : List (String × String)) :
    Run (Event ι) (Option String) := do
  let settled ← search deeper site bag places
  settled.elim missed pure

theorem searchOr_of_open (h : (look site bag place).frame ∈ site.chain) :
    searchOr deeper site bag missed (place :: rest) =
      ⟨[(look site bag place).cycle], .done none⟩ := by
  have hs : search deeper site bag (place :: rest) = _ := if_pos h
  rw [searchOr, hs]
  rfl

theorem searchOr_of_fresh (h : (look site bag place).frame ∉ site.chain) :
    let u := look site bag place
    searchOr deeper site bag missed (place :: rest) =
      ((⟨u.retrieval :: (u.rendering deeper).events, (u.rendering deeper).outcome⟩ :
          Run (Event ι) (Option String)).attempt >>= fun
        | .ok none => searchOr deeper site bag missed rest
        | .ok (some s) => pure (some s)
        | .error failure => recover u.site u.ns u.key u.bag failure) := by
  intro u
  have hs : search deeper site bag (place :: rest) = _ := if_neg h
  rw [searchOr, hs, bind_assoc, ← u.find_eq_rendering]
  refine bind_congr fun r => ?_
  match r with
  | .ok none => rfl
  | .ok (some s) => rfl
  | .error failure =>
    simp only [bind_map_left, Option.elim_some, bind_pure]
    rfl

theorem searchOr_of_passed (h : ¬ (look site bag place).Decides) :
    searchOr deeper site bag missed (place :: rest) =
      ⟨(look site bag place).retrieval :: (searchOr deeper site bag missed rest).events,
        (searchOr deeper site bag missed rest).outcome⟩ := by
  have ho : (look site bag place).frame ∉ site.chain := fun ho => h (.inl ho)
  have hs : (look site bag place).stored = .ok none := Classical.not_not.1 fun hs => h (.inr hs)
  rw [searchOr_of_fresh ho, Lookup.rendering_of_none hs]
  rfl

theorem searchOr_append (h : ∀ p ∈ before, ¬ (look site bag p).Decides) :
    searchOr deeper site bag missed (before ++ rest) =
      ⟨(before.map (look site bag)).map Lookup.retrieval ++
          (searchOr deeper site bag missed rest).events,
        (searchOr deeper site bag missed rest).outcome⟩ := by
  induction before
  case nil => rfl
  case cons p before ih =>
    have ⟨hp, h⟩ := List.forall_mem_cons.1 h
    rw [List.cons_append, searchOr_of_passed hp, ih h]
    rfl

theorem searchOr_of_rendered (ho : (look site bag place).frame ∉ site.chain)
    (hs : (look site bag place).stored ≠ .ok none)
    (hr : ∀ failure, ((look site bag place).rendering deeper).outcome ≠ .raised failure) :
    searchOr deeper site bag missed (place :: rest) =
      ⟨(look site bag place).retrieval :: ((look site bag place).rendering deeper).events,
        ((look site bag place).rendering deeper).outcome⟩ := by
  rw [searchOr_of_fresh ho]
  have hn : ((look site bag place).rendering deeper).outcome ≠ .done none :=
    fun hn => hs (Lookup.stored_of_rendering hn)
  generalize (look site bag place).rendering deeper = x at hn hr
  obtain ⟨events, found | failure | _⟩ := x
  case done =>
    cases found
    case none => exact absurd rfl hn
    case some => simp [Run.attempt, Run.bind_eq, Run.bind]
  case raised => exact absurd rfl (hr failure)
  case starved => rfl

theorem searchOr_of_failed {failure : Failure} (ho : (look site bag place).frame ∉ site.chain)
    (hr : ((look site bag place).rendering deeper).outcome = .raised failure) :
    let handling := recover site place.1 place.2 bag failure
    searchOr deeper site bag missed (place :: rest) =
      ⟨(look site bag place).retrieval ::
          (((look site bag place).rendering deeper).events ++ handling.events),
        handling.outcome⟩ := by
  rw [searchOr_of_fresh ho, hr]
  rfl

theorem resolveIn_eq_searchOr {ns key : String} :
    resolveIn deeper site ns key bag = (do
      let keys ← candidates site key bag
      searchOr deeper site bag
        ⟨[⟨site.chain, .notice (.notFound site.locale.tag ns key keys)⟩], .done none⟩
        (places site.options ns keys)) := by
  refine bind_congr fun keys => bind_congr fun settled => ?_
  cases settled
  case none => rfl
  case some => rfl

theorem mem_events_candidates {key : String} {e : Event ι}
    (h : e ∈ (candidates site key bag).events) :
    (∃ count, e = ⟨site.chain, .pluralize site.locale count site.options⟩) ∨
      e = ⟨site.chain, .notice (.noPluralRule site.locale.tag)⟩ := by
  unfold candidates at h
  split at h
  case h_1 => cases h
  case h_2 count _ =>
    rcases Run.mem_events_bind.1 h with h | ⟨_, _, h⟩
    case inr => cases h
    case inl =>
      rw [Run.events_map, Site.pluralSuffix, Site.emit, Run.emit_bind] at h
      rcases List.mem_cons.1 h with rfl | h
      case inl => exact .inl ⟨count, rfl⟩
      case inr =>
        cases hr : site.host.rules.rule? site.locale <;> rw [hr] at h
        case some => cases h
        case none => exact .inr (List.mem_singleton.1 h)

theorem candidates_of_bare {key : String} (hc : bag.context? = none) (hn : bag.count? = none) :
    candidates site key bag = pure [key] := by
  simp only [candidates, hc, hn]
  rfl

end Search

-- The first place that is looked at is that of the key itself. If there is a template, that of no
-- other place is rendered, and without a handler a failure gets out.
theorem Lookup.resolveIn_of_bare {deeper : Scope → Resolver ι} {u : Lookup ι}
    (hc : u.bag.context? = none) (hn : u.bag.count? = none) (ho : u.frame ∉ u.site.chain)
    (hs : u.stored ≠ .ok none)
    (hh : ∀ failure, (u.rendering deeper).outcome = .raised failure →
      u.site.options.onFailure.value? = none) :
    resolveIn deeper u.site u.ns u.key u.bag =
      ⟨u.retrieval :: (u.rendering deeper).events, (u.rendering deeper).outcome⟩ := by
  have hsearch (missed : Run (Event ι) (Option String)) (more : List (String × String)) :
      searchOr deeper u.site u.bag missed ((u.ns, u.key) :: more) =
        ⟨u.retrieval :: (u.rendering deeper).events, (u.rendering deeper).outcome⟩ := by
    by_cases hf : ∃ failure, (u.rendering deeper).outcome = .raised failure
    case neg => exact searchOr_of_rendered ho hs (not_exists.1 hf)
    case pos =>
      have ⟨failure, hf⟩ := hf
      have hr : recover u.site u.ns u.key u.bag failure = .raise failure := by
        simp only [recover, hh failure hf]
      refine Eq.trans (@searchOr_of_failed _ _ _ _ _ _ (u.ns, u.key) _ ho hf) ?_
      rw [hf, hr, Run.raise, List.append_nil]
      rfl
  rw [resolveIn_eq_searchOr, candidates_of_bare hc hn, pure_bind]
  exact hsearch ..

end Phrasebook.Resolution
