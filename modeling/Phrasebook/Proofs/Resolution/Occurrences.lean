import Phrasebook.Proofs.Resolution.Breaks

namespace Phrasebook

variable {ι : Type}

def Act.isInside : Act ι → Bool
  | render .. | format .. | nest .. => true
  | _ => false

namespace Resolution

open Template

inductive Does (site : Site ι) : Act ι → Prop
  | pluralize {count : Int} : Does site (.pluralize site.locale count site.options)
  | retrieve {ns key : String} : Does site (.retrieve site.locale ns key site.options)
  | fail {handler : OnFailure ι} {ns key : String} {bag : Bag} {failure : Failure} :
      Does site (.fail handler site.locale ns key bag site.options failure)
  | notice {n : Notice} : Does site (.notice n)

namespace Lookup

variable (u : Lookup ι) {deeper : Scope → Resolver ι} {template : String} {e : Event ι}

-- What is done in the rendering of a template, its nested keys apart.
inductive Renders (template : String) : Event ι → Prop
  | opening : Renders template (u.opening template)
  | filling {e : Event ι} (h : e ∈ (interpolateAround u.inner u.bag template).events) :
      Renders template e
  | own {filled : String} {content : List Char} {e : Event ι}
      (hf : (interpolateAround u.inner u.bag template).outcome = .done filled)
      (hc : content ∈ (u.site.options.nestingMarks.split filled.toList).contents)
      (h : e ∈ (interpolate u.plain u.bag (u.nestedOf content).inner).events) :
      Renders template e
  | nesting {content : List Char} {own : Bag} : Renders template (u.nesting content own)

structure Opened (template : String) (events : List (Event ι)) : Prop where
  fresh : u.frame ∉ u.site.chain
  stored_eq : u.stored = .ok (some template)
  retrieval_mem : u.retrieval ∈ events
  filling :
    u.opening template :: (interpolateAround u.inner u.bag template).events <:+: events

variable {u}

theorem Renders.exists_act (h : u.Renders template e) :
    ∃ act, e = ⟨u.inner.chain, act⟩ ∧ act.isInside := by
  cases h
  case opening => exact ⟨_, rfl, rfl⟩
  case nesting => exact ⟨_, rfl, rfl⟩
  case filling h =>
    obtain ⟨_, _, _, rfl⟩ := interpolateAround_formats e h
    exact ⟨_, rfl, rfl⟩
  case own h =>
    obtain ⟨_, _, _, rfl⟩ := interpolate_formats e h
    exact ⟨_, rfl, rfl⟩

theorem Opened.mono {events events' : List (Event ι)} (h : u.Opened template events)
    (hs : events <:+: events') : u.Opened template events' where
  fresh := h.fresh
  stored_eq := h.stored_eq
  retrieval_mem := hs.subset h.retrieval_mem
  filling := h.filling.trans hs

theorem Opened.opening_mem {events : List (Event ι)} (h : u.Opened template events) :
    u.opening template ∈ events :=
  h.filling.subset List.mem_cons_self

theorem rendering_begins (ht : u.stored = .ok (some template)) :
    u.opening template :: (interpolateAround u.inner u.bag template).events <+:
      (u.rendering deeper).events := by
  rw [rendering_of_stored ht, Run.emit_bind]
  exact List.cons_prefix_cons.2 ⟨rfl, Run.events_prefix_bind⟩

theorem mem_events_token {filled : String} {content : List Char}
    (h : e ∈ (u.token deeper template filled content).events) :
    e ∈ (interpolate u.plain u.bag (u.nestedOf content).inner).events ∨
    ∃ own, e = u.nesting content own ∨
      u.inner.HasRoom ∧ e ∈ (u.nestedRun deeper content own).events ∧
        (u.nestedRun deeper content own).events <:+:
          (u.token deeper template filled content).events := by
  rw [token_eq] at h ⊢
  split at h
  case isTrue => cases h
  case isFalse hk =>
    rw [if_neg hk]
    rcases Run.mem_events_bind.1 h with h | ⟨own, ho, h⟩
    case inl => exact .inl (mem_events_bag h)
    case inr =>
      refine .inr ⟨own, ?_⟩
      rcases Run.mem_events_bind.1 h with h | ⟨_, hn, h⟩
      case inl => exact .inl (List.mem_singleton.1 h)
      case inr =>
        rcases nested_cases deeper u.inner u.ns template (u.nestedOf content).key u.site.locale
          own u.site.options with ⟨_, _, _, heq⟩ | ⟨hr, heq⟩
        all_goals simp only [heq] at h
        case inl => cases h
        case inr =>
          rcases Run.mem_events_bind.1 h with h | ⟨found, _, h⟩
          case inr => cases found <;> cases h
          case inl =>
            refine .inr ⟨hr, h, .trans ?_ (Run.events_suffix_bind ho).isInfix⟩
            refine .trans ?_ (Run.events_suffix_bind hn).isInfix
            simp only [heq]
            exact Run.events_prefix_bind.isInfix

theorem mem_events_rendering (ht : u.stored = .ok (some template))
    (h : e ∈ (u.rendering deeper).events) :
    u.Renders template e ∨
    ∃ content own, u.inner.HasRoom ∧ e ∈ (u.nestedRun deeper content own).events ∧
      (u.nestedRun deeper content own).events <:+: (u.rendering deeper).events := by
  rw [rendering_of_stored ht] at h ⊢
  rcases Run.mem_events_bind.1 h with h | ⟨_, ho, h⟩
  case inl => exact .inl (List.mem_singleton.1 h ▸ .opening)
  case inr =>
    rcases Run.mem_events_bind.1 h with h | ⟨filled, hf, h⟩
    case inl => exact .inl (.filling h)
    case inr =>
      have hn := @forget_nest _ u.inner u.bag (nested deeper u.inner u.ns template) _ _
        (rfl : u.inner.options.nestingMarks.split filled.toList = _)
      have hn := congrArg Run.events hn
      rw [String.ofList_toList, Run.events_forget] at hn
      rw [Run.events_map, hn] at h
      have ⟨content, hc, he, hp⟩ := Run.mem_events_inTurn h
      rcases mem_events_token he with he | ⟨own, rfl | ⟨hr, he, hi⟩⟩
      case inl => exact .inl (.own hf hc he)
      case inr.inl => exact .inl .nesting
      case inr.inr =>
        refine .inr ⟨content, own, hr, he, .trans ?_ (Run.events_suffix_bind ho).isInfix⟩
        refine .trans ?_ (Run.events_suffix_bind hf).isInfix
        rw [Run.events_map, hn]
        exact hi.trans hp

end Lookup

-- The events of a run at a level below a chain of open templates, in the course of some events.
inductive Occurs (host : Host ι) (l : Locale) (o : Options ι) (events : List (Event ι)) :
    List Frame → Event ι → Prop
  | level {chain : List Frame} {act : Act ι} (h : Does ⟨host, l, o, chain⟩ act) :
      Occurs host l o events chain ⟨chain, act⟩
  | rendering {chain : List Frame} {ns key template : String} {bag : Bag} {e : Event ι}
      (ho : Lookup.Opened ⟨⟨host, l, o, chain⟩, ns, key, bag⟩ template events)
      (h : Lookup.Renders ⟨⟨host, l, o, chain⟩, ns, key, bag⟩ template e) :
      Occurs host l o events chain e
  | nested {chain : List Frame} {ns key template : String} {bag : Bag} {e : Event ι}
      (ho : Lookup.Opened ⟨⟨host, l, o, chain⟩, ns, key, bag⟩ template events)
      (hr : (Site.mk host l o (chain ++ [⟨ns, key, bag.context?⟩])).HasRoom)
      (h : Occurs host l o events (chain ++ [⟨ns, key, bag.context?⟩]) e) :
      Occurs host l o events chain e

section Occurs

variable {host : Host ι} {l : Locale} {o : Options ι} {chain : List Frame}
  {deeper : Scope → Resolver ι} {e : Event ι}

theorem Occurs.mono {events events' : List (Event ι)} (h : Occurs host l o events chain e)
    (hs : events <:+: events') : Occurs host l o events' chain e := by
  induction h
  case level h => exact .level h
  case rendering ho h => exact .rendering (ho.mono hs) h
  case nested ho hr _ ih => exact .nested (ho.mono hs) hr ih

def Traced (host : Host ι) (l : Locale) (o : Options ι) (chain : List Frame) {α : Type}
    (run : Run (Event ι) α) : Prop :=
  ∀ e ∈ run.events, Occurs host l o run.events chain e

namespace Traced

variable {α β : Type} {x : Run (Event ι) α} {f : α → Run (Event ι) β}

theorem pure {a : α} : Traced host l o chain (pure a) :=
  List.forall_mem_nil _

theorem emit {act : Act ι} (h : Does ⟨host, l, o, chain⟩ act) :
    Traced host l o chain (Site.emit ⟨host, l, o, chain⟩ act) := by
  intro e he
  cases List.mem_singleton.1 he
  exact .level h

theorem raise {failure : Failure} : Traced host l o chain (.raise failure : Run (Event ι) α) :=
  List.forall_mem_nil _

theorem ofExcept {r : Except Failure α} : Traced host l o chain (.ofExcept r) := by
  cases r <;> exact List.forall_mem_nil _

theorem bind (hx : Traced host l o chain x) (hf : ∀ a, Traced host l o chain (f a)) :
    Traced host l o chain (x >>= f) := by
  intro e he
  rcases Run.mem_events_bind.1 he with he | ⟨a, ha, he⟩
  case inl => exact (hx e he).mono Run.events_prefix_bind.isInfix
  case inr => exact (hf a e he).mono (Run.events_suffix_bind ha).isInfix

theorem map {g : α → β} (hx : Traced host l o chain x) : Traced host l o chain (g <$> x) := by
  intro e he
  rw [Run.events_map] at he ⊢
  exact hx e he

theorem attempt (hx : Traced host l o chain x) : Traced host l o chain x.attempt := by
  intro e he
  rw [Run.events_attempt] at he ⊢
  exact hx e he

end Traced

section Level

variable {ns key : String} {bag : Bag}

theorem find_traced (hd : ∀ scope raw own, Traced host l o scope.chain (deeper scope raw l own o))
    (hf : (⟨ns, key, bag.context?⟩ : Frame) ∉ chain) :
    Traced host l o chain (find deeper ⟨host, l, o, chain⟩ ns key bag) := by
  let u : Lookup ι := ⟨⟨host, l, o, chain⟩, ns, key, bag⟩
  intro e he
  rw [u.find_eq_rendering] at he ⊢
  have hs : (u.rendering deeper).events <:+: u.retrieval :: (u.rendering deeper).events :=
    (List.suffix_cons ..).isInfix
  rcases List.mem_cons.1 he with rfl | he
  case inl => exact .level .retrieve
  case inr =>
    match ht : u.stored with
    | .error _ | .ok none =>
      rw [Lookup.rendering, ht] at he
      cases he
    | .ok (some template) =>
      have ho : u.Opened template (u.retrieval :: (u.rendering deeper).events) :=
        ⟨hf, ht, List.mem_cons_self, (Lookup.rendering_begins ht).isInfix.trans hs⟩
      rcases Lookup.mem_events_rendering ht he with he | ⟨content, own, hr, he, hi⟩
      case inl => exact .rendering ho he
      case inr => exact .nested ho hr ((hd _ _ _ e he).mono (hi.trans hs))

theorem recover_traced {failure : Failure} :
    Traced host l o chain (recover ⟨host, l, o, chain⟩ ns key bag failure) := by
  unfold recover
  split
  case h_1 => exact .raise
  case h_2 handler _ =>
    refine .bind (.emit .fail) fun _ => ?_
    cases handler
    case warn => exact .bind (.emit .notice) fun _ => .pure
    case handler => exact .ofExcept

theorem search_traced (hd : ∀ scope raw own, Traced host l o scope.chain (deeper scope raw l own o))
    (places : List (String × String)) :
    Traced host l o chain (search deeper ⟨host, l, o, chain⟩ bag places) := by
  induction places
  case nil => exact .pure
  case cons place places ih =>
    simp only [search]
    split
    case isTrue => exact .bind (.emit .notice) fun _ => .pure
    case isFalse hf =>
      refine .bind (find_traced hd hf).attempt fun r => ?_
      cases r
      case error => exact recover_traced.map
      case ok found =>
        cases found
        case none => exact ih
        case some => exact .pure

theorem candidates_traced : Traced host l o chain (candidates ⟨host, l, o, chain⟩ key bag) := by
  intro e he
  rcases mem_events_candidates he with ⟨_, rfl⟩ | rfl
  case inl => exact .level .pluralize
  case inr => exact .level .notice

theorem resolveIn_traced
    (hd : ∀ scope raw own, Traced host l o scope.chain (deeper scope raw l own o)) :
    Traced host l o chain (resolveIn deeper ⟨host, l, o, chain⟩ ns key bag) := by
  refine .bind candidates_traced fun keys => .bind (search_traced hd _) fun settled => ?_
  cases settled
  case none => exact .bind (.emit .notice) fun _ => .pure
  case some => exact .pure

end Level

theorem level_traced (n : Nat) (scope : Scope) (raw : String) (bag : Bag) :
    Traced host l o scope.chain (level host n scope raw l bag o) := by
  induction n generalizing scope raw bag
  case zero => exact List.forall_mem_nil _
  case succ n ih => exact resolveIn_traced ih

end Occurs
end Resolution
end Phrasebook
