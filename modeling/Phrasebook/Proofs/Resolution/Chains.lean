import Phrasebook.Proofs.Resolution.Occurrences

namespace Phrasebook

variable {ι : Type}

def Act.rendered? : Act ι → Option (Option String)
  | render _ _ bag => some bag.context?
  | _ => none

namespace Resolution

-- In the course of some events, inside of the templates that were open before, the store was asked
-- for the template of a frame and had one, which was rendered for the context of the frame.
structure Found (host : Host ι) (l : Locale) (o : Options ι) (events : List (Event ι))
    (outer : List Frame) (f : Frame) (template : String) (bag : Bag) : Prop where
  answer : host.retrieve l f.ns f.key o = .ok (some template)
  asked : ⟨outer, .retrieve l f.ns f.key o⟩ ∈ events
  rendered : ⟨outer ++ [f], .render f template bag⟩ ∈ events
  context : f.context = bag.context?

-- A chain that holds no frame twice, and only frames of templates that were found.
structure Justified (host : Host ι) (l : Locale) (o : Options ι) (events : List (Event ι))
    (chain : List Frame) : Prop where
  nodup : chain.Nodup
  found : ∀ f ∈ chain, ∃ outer template bag,
    outer ++ [f] <+: chain ∧ Found host l o events outer f template bag

variable {host : Host ι} {l : Locale} {o : Options ι} {events : List (Event ι)}
  {chain : List Frame} {template : String}

theorem Lookup.Opened.found {u : Lookup ι} (h : u.Opened template events) :
    Found u.site.host u.site.locale u.site.options events u.site.chain u.frame template u.bag where
  answer := h.stored_eq
  asked := h.retrieval_mem
  rendered := h.opening_mem
  context := rfl

namespace Justified

theorem nil : Justified host l o events [] where
  nodup := List.nodup_nil
  found := List.forall_mem_nil _

theorem concat {u : Lookup ι} (h : Justified u.site.host u.site.locale u.site.options events
    u.site.chain) (ho : u.Opened template events) :
    Justified u.site.host u.site.locale u.site.options events u.inner.chain where
  nodup := List.nodup_append.2 ⟨h.nodup, List.pairwise_singleton .., fun f hf g hg heq =>
    ho.fresh (List.mem_singleton.1 hg ▸ heq ▸ hf)⟩
  found f hf := by
    rcases List.mem_append.1 hf with hf | hf
    case inl =>
      have ⟨outer, template, bag, hp, hd⟩ := h.found f hf
      exact ⟨outer, template, bag, hp.trans (List.prefix_append ..), hd⟩
    case inr =>
      cases List.mem_singleton.1 hf
      exact ⟨u.site.chain, template, u.bag, List.prefix_rfl, ho.found⟩

theorem length_le (h : Justified host l o events chain) {places : List (String × String)}
    {contexts : List (Option String)}
    (hp : ∀ ns key template, host.retrieve l ns key o = .ok (some template) → (ns, key) ∈ places)
    (hc : ∀ chain f template own, ⟨chain, .render f template own⟩ ∈ events →
      own.context? ∈ contexts) :
    chain.length ≤ places.length * contexts.length := by
  let frames := places.flatMap fun p => contexts.map fun context => Frame.mk p.1 p.2 context
  have hs : chain ⊆ frames := by
    intro f hf
    have ⟨_, _, _, _, hd⟩ := h.found f hf
    have hm : f.context ∈ contexts := hd.context ▸ hc _ _ _ _ hd.rendered
    exact List.mem_flatMap.2 ⟨_, hp _ _ _ hd.answer, List.mem_map_of_mem hm⟩
  calc
    chain.length ≤ frames.length := h.nodup.length_le_of_subset hs
    _ = places.length * contexts.length := by
      simp only [frames, List.length_flatMap, List.length_map, List.map_const',
        List.sum_replicate_nat]

end Justified

theorem Occurs.justified {e : Event ι} (h : Occurs host l o events chain e)
    (hc : Justified host l o events chain) : Justified host l o events e.chain := by
  induction h
  case level => exact hc
  case rendering ho h =>
    obtain ⟨_, rfl, _⟩ := h.exists_act
    exact hc.concat ho
  case nested ho _ _ ih => exact ih (hc.concat ho)

theorem Traced.justified {α : Type} {run : Run (Event ι) α} (h : Traced host l o [] run) :
    ∀ e ∈ run.events, Justified host l o run.events e.chain :=
  fun e he => (h e he).justified .nil

-- The chains of a resolution never hold a frame twice, and hold only frames of templates that were
-- found and are rendered. If the store has templates at so many places, and they are rendered for
-- so many contexts, no more than all of their pairs are ever open at once, and fuel for one level
-- more is enough.
theorem cycle_guard_terminates (host : Host ι) (l : Locale) (o : Options ι) (start : Option String)
    (raw : String) (bag : Bag) :
    (∀ n, let run := level host n ⟨start, []⟩ raw l bag o
      ∀ e ∈ run.events, Justified host l o run.events e.chain) ∧
    (∀ n ns key, let run := resolveIn (level host n) ⟨host, l, o, []⟩ ns key bag
      ∀ e ∈ run.events, Justified host l o run.events e.chain) ∧
    ∀ (places : List (String × String)) (contexts : List (Option String)),
      (∀ ns key template, host.retrieve l ns key o = .ok (some template) → (ns, key) ∈ places) →
      let bound := places.length * contexts.length
      let run := level host (bound + 1) ⟨start, []⟩ raw l bag o
      (∀ chain f template own, ⟨chain, .render f template own⟩ ∈ run.events →
        own.context? ∈ contexts) →
      run.Fed ∧ (∀ e ∈ run.events, e.chain.length ≤ bound) ∧
      (∀ n, bound + 1 ≤ n → level host n ⟨start, []⟩ raw l bag o = run) ∧
      ∀ r, Solves host l o r → r ⟨start, []⟩ raw l bag o = run := by
  have ht n := (level_traced n ⟨start, []⟩ raw bag : Traced host l o [] _).justified
  refine ⟨ht, fun n ns key => (resolveIn_traced (level_traced n)).justified, ?_⟩
  intro places contexts hp bound run hc
  have hle : ∀ e ∈ run.events, e.chain.length ≤ bound := fun e he => (ht _ e he).length_le hp hc
  have hf : run.Fed := by
    intro hs
    have ⟨e, he, hlen, _⟩ := level_starvesAt bound ⟨start, []⟩ raw bag hs
    have hle := hle e he
    simp only [List.length_nil] at hlen
    omega
  exact ⟨hf, hle, fun n hn => level_settles_level hn _ raw bag hf,
    fun r hr => level_settles_solution hr _ _ raw bag hf⟩

theorem circle_terminates_without_limit :
    let templates := [("a", "$t(b, \x7b\"context\": \"x\"\x7d)"), ("b", "$t(a)")]
    let host := { Host.ofTemplates [] with
      retrieve := fun _ ns key _ => .ok (if ns = "talk" then Members.get? templates key else none) }
    let o : Options Empty := Options.base.withLimit .unset
    let run := level host 5 ⟨some "talk", []⟩ "a" ⟨"en", none⟩ [] o
    o.depthLimit.value? = none ∧ run.outcome = .done none ∧
      run.events.any (·.chain.length = 3) ∧ (∀ e ∈ run.events, e.chain.length ≤ 4) ∧
      level host 1000 ⟨some "talk", []⟩ "a" ⟨"en", none⟩ [] o = run := by
  intro templates host o run
  let places := [("talk", "a"), ("talk", "b")]
  let contexts := [none, some "x"]
  have hp : ∀ ns key template,
      host.retrieve ⟨"en", none⟩ ns key o = .ok (some template) → (ns, key) ∈ places := by
    intro ns key template h
    grind [Members.get?]
  have hc : ∀ chain f template own,
      ⟨chain, .render f template own⟩ ∈ run.events → own.context? ∈ contexts := by
    have hall : run.events.all fun e => e.act.rendered?.all (· ∈ contexts) := by decide +kernel
    exact fun chain f template own he => of_decide_eq_true (List.all_eq_true.1 hall _ he)
  obtain ⟨_, hle, hn, _⟩ :=
    (cycle_guard_terminates host ⟨"en", none⟩ o (some "talk") "a" []).2.2 places contexts hp hc
  exact ⟨rfl, by decide +kernel, by decide +kernel, hle, hn 1000 (by decide)⟩

end Resolution
end Phrasebook
