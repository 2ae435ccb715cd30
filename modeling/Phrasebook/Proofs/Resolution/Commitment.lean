import Phrasebook.Proofs.Resolution.Depth

namespace Phrasebook

variable {ι : Type}

def Act.isRetrieve : Act ι → Bool
  | retrieve .. => true
  | _ => false

namespace Resolution

open Template

namespace Lookup

variable (u : Lookup ι)

def failing (handler : OnFailure ι) (failure : Failure) : Event ι :=
  ⟨u.site.chain, .fail handler u.site.locale u.ns u.key u.bag u.site.options failure⟩

def reply (name : ι) (failure : Failure) : Except Failure (Option String) :=
  u.site.host.failed name u.site.locale u.ns u.key u.bag u.site.options failure

inductive Handled (failure : Failure) : Run (Event ι) (Option String) → Prop
  | unhandled (h : u.site.options.onFailure.value? = none) : Handled failure (.raise failure)
  | warned (h : u.site.options.onFailure.value? = some .warn) :
      Handled failure ⟨[u.failing .warn failure,
        ⟨u.site.chain, .notice (.failed u.site.locale.tag u.ns u.key failure)⟩], .done none⟩
  | answered {name : ι} {found : Option String}
      (h : u.site.options.onFailure.value? = some (.handler name))
      (hr : u.reply name failure = .ok found) :
      Handled failure ⟨[u.failing (.handler name) failure], .done found⟩
  | refused {name : ι} {failure' : Failure}
      (h : u.site.options.onFailure.value? = some (.handler name))
      (hr : u.reply name failure = .error failure') :
      Handled failure ⟨[u.failing (.handler name) failure], .raised failure'⟩

variable {u} {n : Nat} {failure : Failure} {run : Run (Event ι) (Option String)}

theorem recover_handled (u : Lookup ι) (failure : Failure) :
    u.Handled failure (recover u.site u.ns u.key u.bag failure) := by
  cases h : u.site.options.onFailure.value?
  case none =>
    simp only [recover, h]
    exact .unhandled h
  case some handler =>
    simp only [recover, h]
    cases handler
    case warn => exact .warned h
    case handler name =>
      cases hr : u.reply name failure
      all_goals
        simp only [reply] at hr
        simp only [hr]
      case ok => exact .answered h hr
      case error => exact .refused h hr

theorem Handled.eq_raise (h : u.Handled failure run) (hw : ∀ e ∈ run.events, e.act.isWork) :
    run = .raise failure := by
  cases h
  case unhandled => rfl
  all_goals cases hw _ List.mem_cons_self

theorem Handled.not_isRetrieve (h : u.Handled failure run) :
    ∀ e ∈ run.events, ¬ e.act.isRetrieve := by
  cases h <;> simp [Run.raise, failing, Act.isRetrieve]

theorem chain_prefix_of_retrieve {host : Host ι} {e : Event ι} (hu : u.site.host = host)
    (h : e ∈ (u.rendering (level host n)).events) (hr : e.act.isRetrieve) :
    u.inner.chain <+: e.chain := by
  subst hu
  match ht : u.stored with
  | .error _ | .ok none =>
    rw [rendering, ht] at h
    cases h
  | .ok (some template) =>
    rcases mem_events_rendering ht h with h | ⟨content, own, _, h, _⟩
    case inl =>
      obtain ⟨act, rfl, ha⟩ := h.exists_act
      exact List.prefix_rfl
    case inr =>
      obtain ⟨hp, _⟩ := (level_traced _ _ _ _ e h).level_cases
      have he : e.level = e.chain := by
        cases ha : e.act
        case retrieve => simp [Event.level, ha, Act.isInside]
        all_goals simp [ha, Act.isRetrieve] at hr
      exact he ▸ hp

end Lookup

structure First (places before : List (Lookup ι)) (u : Lookup ι) : Prop where
  split : ∃ after, places = before ++ u :: after
  passed : ∀ v ∈ before, ¬ v.Decides

-- What comes of a level, by the places where it has to look, and the ones of them where it looks.
-- None of these is behind the first one that decides, whatever comes of the template there.
inductive Settles (deeper : Scope → Resolver ι) (missed : Run (Event ι) (Option String))
    (places : List (Lookup ι)) : List (Lookup ι) → Run (Event ι) (Option String) → Prop
  | missed (h : ∀ u ∈ places, ¬ u.Decides) :
      Settles deeper missed places places
        ⟨places.map Lookup.retrieval ++ missed.events, missed.outcome⟩
  | cycle {before : List (Lookup ι)} {u : Lookup ι} (hf : First places before u)
      (ho : u.frame ∈ u.site.chain) :
      Settles deeper missed places before
        ⟨before.map Lookup.retrieval ++ [u.cycle], .done none⟩
  | rendered {before : List (Lookup ι)} {u : Lookup ι} (hf : First places before u)
      (ho : u.frame ∉ u.site.chain) (hs : u.stored ≠ .ok none)
      (hn : (u.rendering deeper).outcome ≠ .done none)
      (hr : ∀ failure, (u.rendering deeper).outcome ≠ .raised failure) :
      Settles deeper missed places (before ++ [u])
        ⟨(before ++ [u]).map Lookup.retrieval ++ (u.rendering deeper).events,
          (u.rendering deeper).outcome⟩
  | failed {before : List (Lookup ι)} {u : Lookup ι} {failure : Failure}
      {handling : Run (Event ι) (Option String)} (hf : First places before u)
      (ho : u.frame ∉ u.site.chain) (hr : (u.rendering deeper).outcome = .raised failure)
      (hh : u.Handled failure handling) :
      Settles deeper missed places (before ++ [u])
        ⟨(before ++ [u]).map Lookup.retrieval ++
            ((u.rendering deeper).events ++ handling.events), handling.outcome⟩

theorem retrievals_concat {before : List (Lookup ι)} {u : Lookup ι} {events : List (Event ι)} :
    (before ++ [u]).map Lookup.retrieval ++ events =
      before.map Lookup.retrieval ++ u.retrieval :: events := by
  simp

theorem searchOr_settles (deeper : Scope → Resolver ι) (site : Site ι) (bag : Bag)
    (missed : Run (Event ι) (Option String)) (places : List (String × String)) :
    ∃ looked, Settles deeper missed (places.map (look site bag)) looked
      (searchOr deeper site bag missed places) := by
  rcases exists_first (fun p => (look site bag p).Decides) places with
    h | ⟨before, place, after, rfl, hb, hd⟩
  case inl =>
    have hs : searchOr deeper site bag missed (places ++ []) = _ := searchOr_append h
    rw [List.append_nil] at hs
    rw [hs]
    exact ⟨_, .missed (List.forall_mem_map.2 h)⟩
  case inr =>
    let u := look site bag place
    have hf : First ((before ++ place :: after).map (look site bag))
        (before.map (look site bag)) u :=
      ⟨⟨after.map (look site bag), List.map_append⟩, List.forall_mem_map.2 hb⟩
    rw [searchOr_append hb]
    by_cases ho : u.frame ∈ site.chain
    case pos =>
      rw [searchOr_of_open ho]
      exact ⟨_, .cycle hf ho⟩
    case neg =>
      have hs : u.stored ≠ .ok none := hd.resolve_left ho
      have hn : (u.rendering deeper).outcome ≠ .done none :=
        fun hn => hs (Lookup.stored_of_rendering hn)
      by_cases hr : ∃ failure, (u.rendering deeper).outcome = .raised failure
      case pos =>
        have ⟨failure, hr⟩ := hr
        have h : Settles deeper missed _ _ _ := .failed hf ho hr (u.recover_handled failure)
        rw [searchOr_of_failed ho hr]
        rw [retrievals_concat] at h
        exact ⟨_, h⟩
      case neg =>
        have hr := not_exists.1 hr
        have h : Settles deeper missed _ _ _ := .rendered hf ho hs hn hr
        rw [searchOr_of_rendered ho hs hr]
        rw [retrievals_concat] at h
        exact ⟨_, h⟩

theorem First.mem {places before : List (Lookup ι)} {u : Lookup ι} (h : First places before u) :
    u ∈ places := by
  have ⟨_, hs⟩ := h.split
  simp [hs]

theorem filter_isRetrieve_map {us : List (Lookup ι)} :
    (us.map Lookup.retrieval).filter (·.act.isRetrieve) = us.map Lookup.retrieval :=
  List.filter_eq_self.2 (List.forall_mem_map.2 fun _ _ => rfl)

theorem Settles.retrieves {host : Host ι} {n : Nat} {missed run : Run (Event ι) (Option String)}
    {places looked : List (Lookup ι)} (h : Settles (level host n) missed places looked run)
    (hh : ∀ u ∈ places, u.site.host = host) (hm : ∀ e ∈ missed.events, ¬ e.act.isRetrieve) :
    ∃ later, run.events.filter (·.act.isRetrieve) = looked.map Lookup.retrieval ++ later ∧
      ∀ e ∈ later, ∃ u ∈ looked.getLast?, u.inner.chain <+: e.chain := by
  cases h
  case missed => exact ⟨[], by simpa [filter_isRetrieve_map] using hm, List.forall_mem_nil _⟩
  case cycle =>
    exact ⟨[], by rw [List.filter_append, filter_isRetrieve_map]; rfl, List.forall_mem_nil _⟩
  case rendered before u hf _ _ _ _ =>
    refine ⟨_, by rw [List.filter_append, filter_isRetrieve_map], fun e he => ?_⟩
    have ⟨he, hr⟩ := List.mem_filter.1 he
    exact ⟨u, by simp, u.chain_prefix_of_retrieve (hh u hf.mem) he hr⟩
  case failed before u _ handling hf _ _ hd =>
    refine ⟨_, by rw [List.filter_append, filter_isRetrieve_map], fun e he => ?_⟩
    have ⟨he, hr⟩ := List.mem_filter.1 he
    rcases List.mem_append.1 he with he | he
    case inl => exact ⟨u, by simp, u.chain_prefix_of_retrieve (hh u hf.mem) he hr⟩
    case inr => exact absurd hr (hd.not_isRetrieve e he)

-- A level looks at one place after the other until one of them decides, and has the text of the
-- template there. If that template is open already, there is no text, and if it cannot be rendered,
-- the handler is called for this very place: in no case are the places behind it looked at. What
-- deeper levels look for comes after all that this one looks for.
theorem resolveIn_settled_by_first (n : Nat) (site : Site ι) (ns key : String) (bag : Bag) :
    let named := candidates site key bag
    let run := resolveIn (level site.host n) site ns key bag
    ∃ keys looked settled, named.outcome = .done keys ∧
      Settles (level site.host n)
        ⟨[⟨site.chain, .notice (.notFound site.locale.tag ns key keys)⟩], .done none⟩
        ((places site.options ns keys).map (look site bag)) looked settled ∧
      run = ⟨named.events ++ settled.events, settled.outcome⟩ ∧
      ∃ later, run.events.filter (·.act.isRetrieve) = looked.map Lookup.retrieval ++ later ∧
        ∀ e ∈ later, ∃ u ∈ looked.getLast?, u.inner.chain <+: e.chain := by
  intro named run
  obtain ⟨keys, hk⟩ : named.Ends := candidates_ends
  obtain ⟨looked, hs⟩ := searchOr_settles (level site.host n) site bag
    ⟨[⟨site.chain, .notice (.notFound site.locale.tag ns key keys)⟩], .done none⟩
    (places site.options ns keys)
  have hrun : run = _ := resolveIn_eq_searchOr.trans (Run.bind_of_done hk)
  refine ⟨keys, looked, _, hk, hs, hrun, ?_⟩
  have hh : ∀ u ∈ (places site.options ns keys).map (look site bag), u.site.host = site.host :=
    List.forall_mem_map.2 fun _ _ => rfl
  have ⟨later, he, hl⟩ := hs.retrieves hh (by simp [Act.isRetrieve])
  refine ⟨later, ?_, hl⟩
  have hn : named.events.filter (·.act.isRetrieve) = [] := by
    refine List.filter_eq_nil_iff.2 fun e he => ?_
    rcases mem_events_candidates he with ⟨_, rfl⟩ | rfl <;> simp [Act.isRetrieve]
  rw [hrun, List.filter_append, hn]
  exact he

example :
    let host := Host.ofTemplates [("tea_hot", "\x7b\x7bcup\x7d\x7d"), ("tea", "Tea")]
    let site : Site Empty := ⟨host, ⟨"en", none⟩, .base, []⟩
    let run := resolveIn (level host 1) site "menu" "tea" [("context", .text "hot")]
    run.outcome = .done none ∧ (run.events.filter (·.act.isRetrieve)).length = 1 := by
  decide +kernel

end Resolution
end Phrasebook
