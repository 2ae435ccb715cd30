import Phrasebook.Proofs.Resolution.Containment
import Phrasebook.Proofs.Resolution.Guards
import Phrasebook.Proofs.Resolution.Search
import Phrasebook.Proofs.Resolution.SinglePass
import Phrasebook.Proofs.Run.Failing

namespace Phrasebook

variable {ι : Type}

def Act.isWork : Act ι → Bool
  | retrieve .. | pluralize .. | render .. | format .. | nest .. => true
  | notice (.noPluralRule _) | notice (.cycle ..) | notice (.notFound ..) => true
  | _ => false

structure Event.Works (chain : List Frame) (e : Event ι) : Prop where
  deep : chain <+: e.chain
  work : e.act.isWork

structure Event.WorksAt (chain : List Frame) (e : Event ι) : Prop where
  chain_eq : e.chain = chain
  work : e.act.isWork

theorem Event.WorksAt.works {chain : List Frame} {e : Event ι} (h : e.WorksAt chain) :
    e.Works chain :=
  ⟨h.chain_eq ▸ List.prefix_rfl, h.work⟩

theorem Event.Works.outward {chain chain' : List Frame} {e : Event ι} (h : e.Works chain')
    (hp : chain <+: chain') : e.Works chain :=
  ⟨hp.trans h.deep, h.work⟩

theorem Site.Formats.worksAt {site : Site ι} {e : Event ι} (h : site.Formats e) :
    e.WorksAt site.chain := by
  obtain ⟨_, _, _, rfl⟩ := h
  exact ⟨rfl, rfl⟩

namespace Resolution

open Template

namespace Lookup

variable (u : Lookup ι)

def token (deeper : Scope → Resolver ι) (template filled : String) (content : List Char) :
    Run (Event ι) (List Char) :=
  tokenText u.inner u.bag (nested deeper u.inner u.ns template) filled content

def nestedOf (content : List Char) : Nested :=
  Nested.parse u.site.options content

def refusal (filled : String) (content : List Char) (cause : Cause) : Failure :=
  .render cause filled (String.ofList (u.site.options.nestingMarks.token content))

def nesting (content : List Char) (own : Bag) : Event ι :=
  ⟨u.inner.chain, .nest (u.nestedOf content).key u.site.locale own u.site.options⟩

def nestedRun (deeper : Scope → Resolver ι) (content : List Char) (own : Bag) :
    Run (Event ι) (Option String) :=
  deeper ⟨some u.ns, u.inner.chain⟩ (u.nestedOf content).key u.site.locale own u.site.options

def plain : Site ι :=
  { u.inner with options := u.inner.options.unescaped }

def ownBag (filled : String) (content : List Char) : Run (Event ι) Bag :=
  (u.nestedOf content).bag u.inner u.bag (u.refusal filled content)

-- The events of a rendering: those in front of a nesting token that comes after some others, and
-- the rest.
def upTo (deeper : Scope → Resolver ι) (template filled : String) (before : List (List Char))
    (rest : List (Event ι)) : List (Event ι) :=
  ⟨u.inner.chain, .render u.frame template u.bag⟩ ::
    ((interpolateAround u.inner u.bag template).events ++
      (before.flatMap (fun c => (u.token deeper template filled c).events) ++ rest))

def calling (deeper : Scope → Resolver ι) (template filled : String) (before : List (List Char))
    (content : List Char) (own : Bag) (rest : List (Event ι)) : List (Event ι) :=
  u.upTo deeper template filled before
    ((u.ownBag filled content).events ++ u.nesting content own :: rest)

theorem token_eq {deeper : Scope → Resolver ι} {template filled : String} {content : List Char} :
    u.token deeper template filled content =
      if (u.nestedOf content).key.isEmpty then .raise (u.refusal filled content .emptyNesting)
      else do
        let own ← u.ownBag filled content
        Run.emit (u.nesting content own)
        let key := (u.nestedOf content).key
        match ← nested deeper u.inner u.ns template key u.site.locale own u.site.options with
        | none => .raise (u.refusal filled content (.nestedMissing key))
        | some s => return s.toList :=
  rfl

theorem retrieval_worksAt : u.retrieval.WorksAt u.site.chain :=
  ⟨rfl, rfl⟩

end Lookup

structure AtToken (deeper : Scope → Resolver ι) (u : Lookup ι) (template filled : String)
    (before : List (List Char)) (content : List Char) : Prop where
  stored_eq : u.stored = .ok (some template)
  filled_eq : (interpolateAround u.inner u.bag template).outcome = .done filled
  contents_eq : ∃ after,
    (u.site.options.nestingMarks.split filled.toList).contents = before ++ content :: after
  ends : ∀ c ∈ before, (u.token deeper template filled c).Ends

structure AtKey (deeper : Scope → Resolver ι) (u : Lookup ι) (template filled : String)
    (before : List (List Char)) (content : List Char) : Prop
    extends AtToken deeper u template filled before content where
  key_ne : ¬ (u.nestedOf content).key.isEmpty

structure AtNested (deeper : Scope → Resolver ι) (u : Lookup ι) (template filled : String)
    (before : List (List Char)) (content : List Char) (own : Bag) : Prop
    extends AtKey deeper u template filled before content where
  own_variables : OwnVariables u.inner u.bag (u.nestedOf content) own
  room : ∀ limit, u.site.options.depthLimit.value? = some limit → u.inner.chain.length < limit

-- The failures that arise in the work of a level itself, and the events in front of them: the store
-- fails, a variable has no text, or a nesting token has none although no deeper level breaks off.
inductive OwnFailure (deeper : Scope → Resolver ι) (u : Lookup ι) :
    List (Event ι) → Failure → Prop
  | store {failure : Failure} (h : u.stored = .error failure) : OwnFailure deeper u [] failure
  | variableText {template : String} {before after : List (List Char)} {content : List Char}
      {failure : Failure} (ht : u.stored = .ok (some template))
      (hv : (u.site.options.nestingMarks.split template.toList).variables u.site.options =
        before ++ content :: after)
      (hb : ∀ c ∈ before, (variableText u.inner u.bag template c).Ends)
      (hf : (variableText u.inner u.bag template content).outcome = .raised failure) :
      OwnFailure deeper u
        (⟨u.inner.chain, .render u.frame template u.bag⟩ ::
          (before.flatMap (fun c => (variableText u.inner u.bag template c).events) ++
            (variableText u.inner u.bag template content).events)) failure
  | emptyNesting {template filled : String} {before : List (List Char)} {content : List Char}
      (h : AtToken deeper u template filled before content)
      (hk : (u.nestedOf content).key.isEmpty) :
      OwnFailure deeper u (u.upTo deeper template filled before [])
        (u.refusal filled content .emptyNesting)
  | ownVariable {template filled : String} {before before' after' : List (List Char)}
      {content content' : List Char} {failure : Failure}
      (h : AtKey deeper u template filled before content)
      (hv : (u.plain.options.variableMarks.split (u.nestedOf content).inner.toList).contents =
        before' ++ content' :: after')
      (hb : ∀ c ∈ before', (variableText u.plain u.bag (u.nestedOf content).inner c).Ends)
      (hf : (variableText u.plain u.bag (u.nestedOf content).inner content').outcome =
        .raised failure) :
      OwnFailure deeper u
        (u.upTo deeper template filled before
          (before'.flatMap (fun c =>
              (variableText u.plain u.bag (u.nestedOf content).inner c).events) ++
            (variableText u.plain u.bag (u.nestedOf content).inner content').events)) failure
  | unreadable {template filled text : String} {before : List (List Char)} {content : List Char}
      {fault : Json.Fault} (h : AtKey deeper u template filled before content)
      (ht : (interpolate u.plain u.bag (u.nestedOf content).inner).outcome = .done text)
      (hj : Json.read text u.site.host.conversion = .error fault) :
      OwnFailure deeper u
        (u.upTo deeper template filled before
          (interpolate u.plain u.bag (u.nestedOf content).inner).events)
        (Nested.unreadable (u.refusal filled content) fault)
  | notObject {template filled text : String} {before : List (List Char)} {content : List Char}
      {value : Value} (h : AtKey deeper u template filled before content)
      (ht : (interpolate u.plain u.bag (u.nestedOf content).inner).outcome = .done text)
      (hj : Json.read text u.site.host.conversion = .ok value) (hv : ∀ ms, value ≠ .object ms) :
      OwnFailure deeper u
        (u.upTo deeper template filled before
          (interpolate u.plain u.bag (u.nestedOf content).inner).events)
        (u.refusal filled content .optionsNotObject)
  | tooDeep {template filled : String} {before : List (List Char)} {content : List Char}
      {own : Bag} {limit : Int} (h : AtKey deeper u template filled before content)
      (ho : OwnVariables u.inner u.bag (u.nestedOf content) own)
      (hl : u.site.options.depthLimit.value? = some limit) (hle : limit ≤ u.inner.chain.length) :
      OwnFailure deeper u (u.calling deeper template filled before content own [])
        (.render (.tooDeep limit) template (u.nestedOf content).key)
  | nestedMissing {template filled : String} {before : List (List Char)} {content : List Char}
      {own : Bag} (h : AtNested deeper u template filled before content own)
      (hm : (u.nestedRun deeper content own).outcome = .done none)
      (hw : ∀ e ∈ (u.nestedRun deeper content own).events, e.Works u.inner.chain) :
      OwnFailure deeper u
        (u.calling deeper template filled before content own
          (u.nestedRun deeper content own).events)
        (u.refusal filled content (.nestedMissing (u.nestedOf content).key))

structure Stop (ι : Type) extends Lookup ι where
  failure : Failure

def Stop.handling (s : Stop ι) : Run (Event ι) (Option String) :=
  recover s.site s.ns s.key s.bag s.failure

def unwinding (stops : List (Stop ι)) : List (Event ι) :=
  stops.flatMap fun s => s.handling.events

theorem unwinding_concat {stops : List (Stop ι)} {s : Stop ι} :
    unwinding (stops ++ [s]) = unwinding stops ++ s.handling.events := by
  simp [unwinding]

-- What a nested key without a text leaves the level above with: a failure of the nested key as it
-- stands, or the news that there is no text.
inductive PassedOn (refusal : Failure) : Outcome (Option String) → Failure → Prop
  | missing : PassedOn refusal (.done none) refusal
  | raised {failure : Failure} : PassedOn refusal (.raised failure) failure

namespace PassedOn

variable {refusal failure : Failure} {outcome : Outcome (Option String)}

theorem eq_of_done (h : PassedOn refusal outcome failure) (ho : outcome = .done none) :
    failure = refusal := by
  cases h
  case missing => rfl
  case raised => cases ho

theorem eq_of_raised {raised : Failure} (h : PassedOn refusal outcome failure)
    (ho : outcome = .raised raised) : failure = raised := by
  cases h
  case missing => cases ho
  case raised => exact Outcome.raised.inj ho

theorem bind_run {events : List (Event ι)} {f : Option String → Run (Event ι) (List Char)}
    (h : PassedOn refusal outcome failure) (hf : f none = .raise refusal) :
    (⟨events, outcome⟩ >>= f) = ⟨events, .raised failure⟩ := by
  cases h
  case missing => simp [Run.bind_eq, Run.bind, hf, Run.raise]
  case raised => rfl

end PassedOn

-- The course of a level that breaks off: the work up to the failure at the bottom, the levels that
-- are left on the way up, deepest first, and the level itself.
inductive Broken (host : Host ι) :
    Nat → Site ι → Bag → List (Event ι) → List (Stop ι) → Stop ι → Prop
  | own {n : Nat} {u : Lookup ι} {failure : Failure} {before step : List (Event ι)}
      (hb : ∀ e ∈ before, e.WorksAt u.site.chain) (hs : ∀ e ∈ step, e.Works u.inner.chain)
      (hr : u.rendering (level host n) = ⟨step, .raised failure⟩)
      (hf : OwnFailure (level host n) u step failure) :
      Broken host (n + 1) u.site u.bag (before ++ u.retrieval :: step) [] ⟨u, failure⟩
  | nested {n : Nat} {u : Lookup ι} {failure : Failure} {before step front : List (Event ι)}
      {template filled : String} {earlier : List (List Char)} {content : List Char} {own : Bag}
      {stops : List (Stop ι)} {s : Stop ι} (hb : ∀ e ∈ before, e.WorksAt u.site.chain)
      (hs : ∀ e ∈ step, e.Works u.inner.chain)
      (hr : u.rendering (level host n) =
        ⟨step ++ (front ++ unwinding (stops ++ [s])), .raised failure⟩)
      (he : step = u.calling (level host n) template filled earlier content own [])
      (ha : AtNested (level host n) u template filled earlier content own)
      (hn : Broken host n u.inner own front stops s)
      (hp : PassedOn (u.refusal filled content (.nestedMissing (u.nestedOf content).key))
        s.handling.outcome failure) :
      Broken host (n + 1) u.site u.bag (before ++ u.retrieval :: (step ++ front)) (stops ++ [s])
        ⟨u, failure⟩

inductive Course (host : Host ι) (n : Nat) (site : Site ι) (bag : Bag) :
    Run (Event ι) (Option String) → Prop
  | calm {run : Run (Event ι) (Option String)} (hw : ∀ e ∈ run.events, e.Works site.chain)
      (hr : ∀ failure, run.outcome ≠ .raised failure) : Course host n site bag run
  | broken {front : List (Event ι)} {stops : List (Stop ι)} {s : Stop ι}
      (h : Broken host n site bag front stops s) :
      Course host n site bag ⟨front ++ unwinding (stops ++ [s]), s.handling.outcome⟩

-- How the rendering of a template fails: the events of its own, those in which deeper levels break
-- off, and the failure with which the level is left.
inductive Fails (host : Host ι) (n : Nat) (u : Lookup ι) :
    List (Event ι) → List (Event ι) → Failure → Prop
  | own {step : List (Event ι)} {failure : Failure}
      (h : OwnFailure (level host n) u step failure) : Fails host n u step [] failure
  | nested {failure : Failure} {front : List (Event ι)} {template filled : String}
      {before : List (List Char)} {content : List Char} {own : Bag} {stops : List (Stop ι)}
      {s : Stop ι} (ha : AtNested (level host n) u template filled before content own)
      (hn : Broken host n u.inner own front stops s)
      (hp : PassedOn (u.refusal filled content (.nestedMissing (u.nestedOf content).key))
        s.handling.outcome failure) :
      Fails host n u (u.calling (level host n) template filled before content own [])
        (front ++ unwinding (stops ++ [s])) failure

section Rendering

variable {host : Host ι} {n : Nat} {u : Lookup ι} {template filled : String}
  {before : List (List Char)} {content : List Char}

theorem bag_worksAt {site : Site ι} {outer : Bag} {refuse : Cause → Failure} {n : Nested} :
    ∀ e ∈ (n.bag site outer refuse).events, e.WorksAt site.chain :=
  fun e h => (interpolate_formats e (mem_events_bag h)).worksAt

theorem exists_passedOn {s : Stop ι} (hs : s.site.host.Silent s.site.options) (refusal : Failure) :
    ∃ failure, PassedOn refusal s.handling.outcome failure := by
  cases h : s.handling.outcome
  case done found =>
    cases found
    case none => exact ⟨refusal, .missing⟩
    case some text => exact absurd h (recover_ne_some hs _ _ _ _ _)
  case raised failure => exact ⟨failure, .raised⟩
  case starved => exact absurd h recover_fed

theorem Broken.site_eq {site : Site ι} {bag : Bag} {front : List (Event ι)} {stops : List (Stop ι)}
    {s : Stop ι} {n : Nat} {host : Host ι} (h : Broken host n site bag front stops s) :
    s.site = site ∧ s.bag = bag := by
  cases h
  all_goals exact ⟨rfl, rfl⟩

theorem ownFailure_of_ownBag {deeper : Scope → Resolver ι} {failure : Failure}
    (h : AtKey deeper u template filled before content)
    (hf : (u.ownBag filled content).outcome = .raised failure) :
    OwnFailure deeper u (u.upTo deeper template filled before (u.ownBag filled content).events)
      failure := by
  have ⟨made, hs⟩ :=
    Nested.exists_supplies u.inner u.bag (u.refusal filled content) (u.nestedOf content)
  rw [Lookup.ownBag, ← hs.eq_bag] at hf ⊢
  cases hs <;> cases hf
  case unfilled hf =>
    have heq := @forget_interpolate _ u.plain u.bag (u.nestedOf content).inner
    rw [← Run.outcome_forget_eq_raised_iff] at hf
    have ⟨before', content', after', hc, hb, hr⟩ := Run.exists_of_outcome_inTurn (heq ▸ hf)
    rw [hc, Run.inTurn_of_raised hb hr] at heq
    have he := congrArg Run.events heq
    rw [Run.events_forget, List.flatMap_append, List.flatMap_singleton] at he
    exact he ▸ .ownVariable h hc hb hr
  case unreadable ht hj => exact .unreadable h ht hj
  case notObject value ht hj hv =>
    refine .notObject h ht hj ?_
    rintro ms rfl
    cases hv

theorem token_failsIn (hs : u.site.host.Silent u.site.options)
    (h : AtToken (level host n) u template filled before content)
    (hd : ∀ own, Course host n u.inner own (u.nestedRun (level host n) content own)) :
    (u.token (level host n) template filled content).FailsIn (·.Works u.inner.chain)
      fun front => Fails host n u (u.upTo (level host n) template filled before front) := by
  rw [Lookup.token_eq]
  split
  case isTrue hk => exact .raise (.own (.emptyNesting h hk))
  case isFalse hk =>
    have hk : AtKey (level host n) u template filled before content := ⟨h, hk⟩
    refine .bind (.of_forall (fun e he => (bag_worksAt e he).works)
      fun f hf => .own (ownFailure_of_ownBag hk hf)) fun own ho => ?_
    have ho := outcome_bag_eq_done_iff.1 ho
    have hn : (u.nesting content own).Works u.inner.chain := ⟨List.prefix_rfl, rfl⟩
    rcases nested_cases (level host n) u.inner u.ns template (u.nestedOf content).key
      u.site.locale own u.site.options with ⟨limit, hl, hle, heq⟩ | ⟨hr, heq⟩
    all_goals simp only [heq]
    case inl =>
      exact .bind (.emit hn) fun _ _ => .bind (.raise (.own (.tooDeep hk ho hl hle))) nofun
    case inr =>
      have ha : AtNested (level host n) u template filled before content own := ⟨hk, ho, hr⟩
      have hc := hd own
      change Run.FailsIn _ _ (Run.emit _ >>= fun _ => u.nestedRun (level host n) content own >>= _)
      refine .bind (.emit hn) fun _ _ => ?_
      generalize hx : u.nestedRun (level host n) content own = x at hc ⊢
      cases hc
      case calm hw hr =>
        refine .bind (.of_forall hw fun f hf => absurd hf (hr f)) fun found hf => ?_
        cases found
        case none =>
          refine .raise ?_
          rw [List.append_nil]
          subst hx
          exact .own (.nestedMissing ha hf hw)
        case some => exact .pure
      case broken front stops s hb =>
        have hs : s.site.host.Silent s.site.options := hb.site_eq.1 ▸ hs
        have ⟨failure, hp⟩ := exists_passedOn hs
          (u.refusal filled content (.nestedMissing (u.nestedOf content).key))
        rw [hp.bind_run rfl]
        exact .of_last (.nested ha hb hp)

def Deeper (host : Host ι) (n : Nat) (u : Lookup ι) : Prop :=
  ∀ content own, Course host n u.inner own (u.nestedRun (level host n) content own)

theorem rendering_failsIn (hs : u.site.host.Silent u.site.options) (hd : Deeper host n u) :
    (u.rendering (level host n)).FailsIn (·.Works u.inner.chain) (Fails host n u) := by
  refine .bind ?store fun found hf => ?template
  case store =>
    cases h : u.stored
    case error failure => exact .raise (.own (.store h))
    case ok => exact .pure
  case template =>
    have ht := Run.outcome_ofExcept_eq_done_iff.1 hf
    have hn : (Run.ofExcept u.stored : Run (Event ι) (Option String)).events = [] := by
      rw [ht]
      rfl
    simp only [hn, List.nil_append]
    cases found
    case none => exact .pure
    case some template =>
      refine .bind (.emit ⟨List.prefix_rfl, rfl⟩) fun _ _ => ?_
      refine .bind ?values fun filled hi => .map ?tokens
      case values =>
        refine .of_forget (forget_interpolateAround ▸ .inTurn fun before content after hv hb => ?_)
        exact .of_forall (fun e he => (variableText_formats e he).worksAt.works) fun failure hf =>
          .own (.variableText ht hv hb hf)
      case tokens =>
        have hn := @forget_nest _ u.inner u.bag (nested (level host n) u.inner u.ns template) _ _
          (rfl : u.inner.options.nestingMarks.split filled.toList = _)
        rw [String.ofList_toList] at hn
        refine .of_forget (hn ▸ .inTurn fun before content after hc hb => ?_)
        exact token_failsIn hs ⟨ht, hi, ⟨after, hc⟩, hb⟩ (hd content)

theorem broken_of_rendering (hs : u.site.host.Silent u.site.options) (hd : Deeper host n u)
    {failure : Failure} (h : (u.rendering (level host n)).outcome = .raised failure) :
    ∃ front stops, Broken host (n + 1) u.site u.bag front stops ⟨u, failure⟩ ∧
      u.retrieval :: (u.rendering (level host n)).events = front ++ unwinding stops := by
  have ⟨step, last, he, hw, hf⟩ := (rendering_failsIn hs hd).exists_of_raised h
  have hr : u.rendering (level host n) = ⟨step ++ last, .raised failure⟩ := by rw [← he, ← h]
  cases hf
  case own hf =>
    rw [List.append_nil] at hr
    have hb : Broken host (n + 1) u.site u.bag ([] ++ u.retrieval :: step) [] ⟨u, failure⟩ :=
      .own (List.forall_mem_nil _) hw hr hf
    exact ⟨_, _, hb, by simp [he, unwinding]⟩
  case nested front _ _ before content own stops s ha hn hp =>
    have hb : Broken host (n + 1) u.site u.bag ([] ++ u.retrieval :: (_ ++ front)) (stops ++ [s])
        ⟨u, failure⟩ := .nested (List.forall_mem_nil _) hw hr rfl ha hn hp
    exact ⟨_, _, hb, by simp [he]⟩

end Rendering

section Levels

variable {host : Host ι} {n : Nat} {site : Site ι} {bag : Bag}
  {run : Run (Event ι) (Option String)} {before : List (Event ι)}

theorem Broken.prepend (hb : ∀ e ∈ before, e.WorksAt site.chain) {front : List (Event ι)}
    {stops : List (Stop ι)} {s : Stop ι} (h : Broken host n site bag front stops s) :
    Broken host n site bag (before ++ front) stops s := by
  cases h
  case own hb' hs hr hf =>
    rw [← List.append_assoc]
    exact .own (List.forall_mem_append.2 ⟨hb, hb'⟩) hs hr hf
  case nested hb' hs hr he ha hn hp =>
    rw [← List.append_assoc]
    exact .nested (List.forall_mem_append.2 ⟨hb, hb'⟩) hs hr he ha hn hp

theorem Course.prepend (hb : ∀ e ∈ before, e.WorksAt site.chain) (h : Course host n site bag run) :
    Course host n site bag ⟨before ++ run.events, run.outcome⟩ := by
  cases h
  case calm hw hr =>
    exact .calm (List.forall_mem_append.2 ⟨fun e he => (hb e he).works, hw⟩) hr
  case broken h =>
    rw [← List.append_assoc]
    exact .broken (h.prepend hb)

theorem search_course (hs : site.host.Silent site.options)
    (hd : ∀ ns key, Deeper host n ⟨site, ns, key, bag⟩)
    {missed : Run (Event ι) (Option String)} (hm : Course host (n + 1) site bag missed)
    (places : List (String × String)) :
    Course host (n + 1) site bag (searchOr (level host n) site bag missed places) := by
  induction places
  case nil => exact hm
  case cons place places ih =>
    let u := look site bag place
    by_cases ho : u.frame ∈ site.chain
    case pos =>
      rw [searchOr_of_open ho]
      exact .calm (fun e he => List.mem_singleton.1 he ▸ ⟨List.prefix_rfl, rfl⟩)
        (Run.ne_raised_of_done rfl)
    case neg =>
      by_cases ht : u.stored = .ok none
      case pos =>
        rw [searchOr_of_passed (not_or.2 ⟨ho, not_not_intro ht⟩)]
        exact ih.prepend fun e he => List.mem_singleton.1 he ▸ u.retrieval_worksAt
      case neg =>
        by_cases hr : ∃ failure, (u.rendering (level host n)).outcome = .raised failure
        case pos =>
          have ⟨failure, hr⟩ := hr
          obtain ⟨front, stops, hb, he⟩ := broken_of_rendering hs (hd _ _) hr
          have hc : Course host (n + 1) site bag _ := .broken hb
          rw [unwinding_concat, ← List.append_assoc, ← he] at hc
          rw [searchOr_of_failed ho hr]
          exact hc
        case neg =>
          have hr := not_exists.1 hr
          have hw := (rendering_failsIn hs (hd _ _)).forall_of_not_raised hr
          rw [searchOr_of_rendered ho ht hr]
          refine .calm (List.forall_mem_cons.2 ⟨u.retrieval_worksAt.works, fun e he => ?_⟩) hr
          exact (hw e he).outward u.chain_prefix_inner

theorem candidates_worksAt {key : String} :
    ∀ e ∈ (candidates site key bag).events, e.WorksAt site.chain := by
  intro e h
  rcases mem_events_candidates h with ⟨_, rfl⟩ | rfl
  all_goals exact ⟨rfl, rfl⟩

theorem resolveIn_course (hs : site.host.Silent site.options)
    (hd : ∀ ns key, Deeper host n ⟨site, ns, key, bag⟩) (ns key : String) :
    Course host (n + 1) site bag (resolveIn (level host n) site ns key bag) := by
  obtain ⟨keys, hk⟩ : (candidates site key bag).Ends := candidates_ends
  have hm : Course host (n + 1) site bag
      ⟨[⟨site.chain, .notice (.notFound site.locale.tag ns key keys)⟩], .done none⟩ :=
    .calm (fun e he => List.mem_singleton.1 he ▸ ⟨List.prefix_rfl, rfl⟩) (Run.ne_raised_of_done rfl)
  rw [resolveIn_eq_searchOr, Run.bind_of_done hk]
  exact (search_course hs hd hm (places site.options ns keys)).prepend candidates_worksAt

theorem level_course {o : Options ι} (hs : host.Silent o) (scope : Scope) (raw : String)
    (l : Locale) (bag : Bag) :
    Course host n ⟨host, l, o, scope.chain⟩ bag (level host n scope raw l bag o) := by
  induction n generalizing scope raw bag
  case zero => exact .calm (List.forall_mem_nil _) (Run.ne_raised_of_starved rfl)
  case succ n ih =>
    let site : Site ι := ⟨host, l, o, scope.chain⟩
    have hs : site.host.Silent site.options := hs
    -- What becomes of the nested keys of a template is known of the level below.
    refine resolveIn_course hs (fun ns key content own => ?_) _ _
    let u : Lookup ι := ⟨site, ns, key, bag⟩
    exact ih ⟨some ns, u.inner.chain⟩ (u.nestedOf content).key own

end Levels

end Resolution
end Phrasebook
