import Phrasebook.Proofs.Template.Pieces
import Phrasebook.Proofs.Template.Scan
import Phrasebook.Resolution

namespace Phrasebook

variable {ι : Type}

def Act.isNest : Act ι → Bool
  | nest .. => true
  | _ => false

namespace Template

variable {site : Site ι} {bag : Bag} {resolve : Resolver ι} {template : String}

def tokenText (site : Site ι) (bag : Bag) (resolve : Resolver ι) (template : String)
    (content : List Char) : Run (Event ι) (List Char) :=
  (Nested.parse site.options content).text site bag resolve fun cause =>
    .render cause template (String.ofList (site.options.nestingMarks.token content))

-- In the run, the resolver was called for the key of a nesting token, and it found a text.
def Calls {α : Type} (run : Run (Event ι) α) (site : Site ι) (resolve : Resolver ι)
    (content : List Char) : Prop :=
  let key := (Nested.parse site.options content).key
  ∃ inner s, ⟨site.chain, .nest key site.locale inner site.options⟩ ∈ run.events ∧
    (resolve key site.locale inner site.options).outcome = .done (some s)

theorem Calls.mono {α β : Type} {x : Run (Event ι) α} {y : Run (Event ι) β} {content : List Char}
    (h : Calls x site resolve content) (hs : x.events ⊆ y.events) : Calls y site resolve content :=
  have ⟨inner, s, he, hr⟩ := h
  ⟨inner, s, hs he, hr⟩

theorem tokenText_calls {content text : List Char}
    (h : (tokenText site bag resolve template content).outcome = .done text) :
    Calls (tokenText site bag resolve template content) site resolve content := by
  generalize hx : tokenText site bag resolve template content = x at h ⊢
  simp only [tokenText, Nested.text] at hx
  split at hx
  case isTrue => exact absurd (hx ▸ h) Run.outcome_raise_ne_done
  case isFalse =>
    subst hx
    have ⟨inner, hi, h⟩ := Run.outcome_bind_eq_done_iff.1 h
    have ⟨_, he, h⟩ := Run.outcome_bind_eq_done_iff.1 h
    have ⟨found, hf, h⟩ := Run.outcome_bind_eq_done_iff.1 h
    cases found
    case none => exact absurd h Run.outcome_raise_ne_done
    case some s =>
      refine ⟨inner, s, ?_, hf⟩
      rw [Run.events_bind hi, Run.events_bind he]
      simp [Site.emit, Run.emit]

theorem outcome_interpolateAround_eq_done_iff {t : String} :
    (interpolateAround site bag template).outcome = .done t ↔
      ∃ filled, (site.options.nestingMarks.split template.toList).Renders
        (fill site bag template) pure filled ∧
        t = String.ofList (filled.text site.options.nestingMarks) := by
  let marks := site.options.nestingMarks
  have hr : interpolateAround site bag template =
      String.ofList <$> (marks.split template.toList).renderM (fill site bag template)
        fun content => marks.token <$> pure content := rfl
  rw [hr, Run.outcome_map_eq_done_iff]
  simp only [Split.outcome_renderM_eq_done_iff]
  constructor
  case mp =>
    rintro ⟨_, ⟨filled, hf, rfl⟩, rfl⟩
    exact ⟨filled, hf, rfl⟩
  case mpr =>
    rintro ⟨filled, hf, rfl⟩
    exact ⟨_, ⟨filled, hf, rfl⟩, rfl⟩

theorem nest_eq_map_renderM (filled : List Char) :
    nest site bag resolve (String.ofList filled) =
      String.ofList <$> (site.options.nestingMarks.split filled).renderM pure fun content =>
        id <$> tokenText site bag resolve (String.ofList filled) content := by
  simp only [nest, String.toList_ofList, id_map]
  rfl

theorem outcome_nest_eq_done_iff {filled : List Char} {s : String} :
    (nest site bag resolve (String.ofList filled)).outcome = .done s ↔
      ∃ found, (site.options.nestingMarks.split filled).Renders pure
        (tokenText site bag resolve (String.ofList filled)) found ∧
        s = String.ofList (found.join id) := by
  rw [nest_eq_map_renderM, Run.outcome_map_eq_done_iff]
  simp only [Split.outcome_renderM_eq_done_iff]
  constructor
  case mp =>
    rintro ⟨_, ⟨found, hf, rfl⟩, rfl⟩
    exact ⟨found, hf, rfl⟩
  case mpr =>
    rintro ⟨found, hf, rfl⟩
    exact ⟨_, ⟨found, hf, rfl⟩, rfl⟩

theorem nest_resolves {filled : List Char} {s : String}
    (h : (nest site bag resolve (String.ofList filled)).outcome = .done s) :
    ∀ content ∈ (site.options.nestingMarks.split filled).contents,
      Calls (nest site bag resolve (String.ofList filled)) site resolve content := by
  intro content hc
  have ⟨_, hf, _⟩ := outcome_nest_eq_done_iff.1 h
  have ⟨_, hd⟩ := hf.exists_of_mem hc
  rw [nest_eq_map_renderM, Run.outcome_map_eq_done_iff] at h
  have ⟨_, ht, _⟩ := h
  refine (tokenText_calls hd).mono ?_
  rw [nest_eq_map_renderM, Run.events_map]
  simp only [id_map] at ht ⊢
  exact Split.events_subset_renderM ht hc

end Template

namespace Resolution

open Template

variable {deeper : Scope → Resolver ι} {site : Site ι} {ns key template : String} {bag : Bag}

theorem nested_cases (deeper : Scope → Resolver ι) (site : Site ι) (ns template raw : String)
    (l : Locale) (bag : Bag) (o : Options ι) :
    (∃ limit, site.options.depthLimit.value? = some limit ∧ limit ≤ site.chain.length ∧
      nested deeper site ns template raw l bag o = .raise (.render (.tooDeep limit) template raw)) ∨
    (∀ limit, site.options.depthLimit.value? = some limit → site.chain.length < limit) ∧
      nested deeper site ns template raw l bag o = deeper ⟨some ns, site.chain⟩ raw l bag o := by
  unfold nested
  cases site.options.depthLimit.value?
  case none => exact .inr ⟨nofun, rfl⟩
  case some limit =>
    by_cases h : limit ≤ site.chain.length
    case pos => exact .inl ⟨limit, rfl, h, if_pos h⟩
    case neg =>
      refine .inr ⟨fun _ hl => ?_, if_neg h⟩
      cases hl
      omega

theorem find_of_stored
    (ht : site.host.retrieve site.locale ns key site.options = .ok (some template)) :
    let inner := site.enter ⟨ns, key, bag.context?⟩
    find deeper site ns key bag = (do
      site.emit (.retrieve site.locale ns key site.options)
      inner.emit (.render ⟨ns, key, bag.context?⟩ template bag)
      let filled ← interpolateAround inner bag template
      some <$> nest inner bag (nested deeper inner ns template) filled) := by
  simp only [find, ht, Run.ofExcept, pure_bind]
  rfl

theorem find_cases
    (ht : site.host.retrieve site.locale ns key site.options = .ok (some template))
    {found : Option String} (h : (find deeper site ns key bag).outcome = .done found) :
    let inner := site.enter ⟨ns, key, bag.context?⟩
    ∃ filled s, (interpolateAround inner bag template).outcome = .done filled ∧
      let nesting := nest inner bag (nested deeper inner ns template) filled
      nesting.outcome = .done s ∧ nesting.events ⊆ (find deeper site ns key bag).events ∧
        found = some s := by
  intro inner
  rw [find_of_stored ht] at h ⊢
  obtain ⟨_, hr, h⟩ := Run.outcome_bind_eq_done_iff.1 h
  obtain ⟨_, he, h⟩ := Run.outcome_bind_eq_done_iff.1 h
  obtain ⟨filled, hi, h⟩ := Run.outcome_bind_eq_done_iff.1 h
  obtain ⟨s, hn, hs⟩ := Run.outcome_map_eq_done_iff.1 h
  refine ⟨filled, s, hi, hn, ?_, hs.symm⟩
  rw [Run.events_bind hr, Run.events_bind he, Run.events_bind hi, Run.events_map]
  intro e hn
  exact List.mem_append_right _ <| List.mem_append_right _ <| List.mem_append_right _ hn

-- A stored template never counts as missing. If it has a text, that is put together from what the
-- second scan finds, and every token found there was resolved. The stored tokens are all among
-- these if and only if each gap, with its variables filled in, keeps the token behind it.
theorem stored_tokens_resolved_iff
    (ht : site.host.retrieve site.locale ns key site.options = .ok (some template)) :
    let inner := site.enter ⟨ns, key, bag.context?⟩
    let marks := site.options.nestingMarks
    let stored := marks.split template.toList
    let resolve := nested deeper inner ns template
    let run := find deeper site ns key bag
    run.outcome ≠ .done none ∧
    ∀ s, run.outcome = .done (some s) → ∃ filled found : Split,
      stored.Renders (fill inner bag template) pure filled ∧
      filled.contents = stored.contents ∧
      (marks.split (filled.text marks)).Renders pure
        (tokenText inner bag resolve (String.ofList (filled.text marks))) found ∧
      s.toList = found.join id ∧
      ((∀ front content, filled.TokenAt marks front content →
          (marks.split (filled.text marks)).TokenAt marks front content ∧
            Calls run inner resolve content) ↔
        ∀ p ∈ filled.marked, marks.Keeps p.1 p.2) := by
  intro inner marks stored resolve run
  refine ⟨fun h => ?_, fun s h => ?_⟩
  case refine_1 =>
    have ⟨_, _, _, _, _, hs⟩ := find_cases ht h
    cases hs
  case refine_2 =>
    obtain ⟨_, _, hi, hn, he, ⟨⟩⟩ := find_cases ht h
    obtain ⟨filled, hf, rfl⟩ := outcome_interpolateAround_eq_done_iff.1 hi
    have ⟨found, hr, hs⟩ := outcome_nest_eq_done_iff.1 hn
    have hc := nest_resolves hn
    refine ⟨filled, found, hf, hf.contents_eq, hr, hs ▸ String.toList_ofList, ?_⟩
    rw [← Split.found_again_iff]
    refine ⟨fun h front content ht => (h front content ht).1, fun h front content ht => ?_⟩
    have hm := h front content ht
    have ⟨_, hm'⟩ := hm.mem_marked
    exact ⟨hm, (hc content (List.mem_map_of_mem hm')).mono he⟩

theorem name_token_resolved :
    let template := "\x7b\x7bword\x7d\x7d $t(name)"
    let host := Host.ofTemplates [("hello", template), ("name", "Bo")]
    let site : Site Empty := ⟨host, ⟨"en", none⟩, .base, []⟩
    let bag : Bag := [("word", .text "Hi")]
    let inner := site.enter ⟨"talk", "hello", bag.context?⟩
    let run := find (level host 5) site "talk" "hello" bag
    run.outcome = .done (some "Hi Bo") ∧
      Calls run inner (nested (level host 5) inner "talk" template) "name".toList := by
  intro template host site bag inner run
  have h : run.outcome = .done (some "Hi Bo") := by decide +kernel
  have ht : site.host.retrieve site.locale "talk" "hello" site.options = .ok (some template) := rfl
  have hs : site.options.nestingMarks.split template.toList =
      ⟨[("\x7b\x7bword\x7d\x7d ".toList, "name".toList)], []⟩ := by decide +kernel
  have ⟨filled, _, hf, _, _, _, hi⟩ := (stored_tokens_resolved_iff ht).2 _ h
  rw [hs] at hf
  obtain _ | @⟨_, ⟨g, c⟩, _, _, _, _, hg, hc, ⟨_⟩⟩ := hf
  have hw : (fill inner bag template "\x7b\x7bword\x7d\x7d ".toList).outcome =
      .done "Hi ".toList := by decide +kernel
  cases hw.symm.trans hg
  cases hc
  have hk : ∀ p ∈ [("Hi ".toList, "name".toList)], site.options.nestingMarks.Keeps p.1 p.2 := by
    intro p hp
    cases List.mem_singleton.1 hp
    exact ⟨[], "Hi ".toList, by decide +kernel⟩
  exact ⟨h, (hi.2 hk _ _ ⟨[], _, [], rfl, rfl⟩).2⟩

-- The value begins a token, and the stored one behind it stays as it is.
theorem open_value_hides_token :
    let template := "\x7b\x7bword\x7d\x7d $t(name)"
    let host := Host.ofTemplates [("hello", template), ("name", "Bo")]
    let site : Site Empty := ⟨host, ⟨"en", none⟩, .base, []⟩
    let bag : Bag := [("word", .text "$t(\x7b")]
    let inner := site.enter ⟨"talk", "hello", bag.context?⟩
    let run := find (level host 5) site "talk" "hello" bag
    run.outcome = .done (some "$t(\x7b $t(name)") ∧
      (site.options.nestingMarks.split template.toList).TokenAt site.options.nestingMarks
        "\x7b\x7bword\x7d\x7d ".toList "name".toList ∧
      ¬ Calls run inner (nested (level host 5) inner "talk" template) "name".toList := by
  intro template host site bag inner run
  have hs : site.options.nestingMarks.split template.toList =
      ⟨[("\x7b\x7bword\x7d\x7d ".toList, "name".toList)], []⟩ := by decide +kernel
  have hn : run.events.all (!·.act.isNest) := by decide +kernel
  refine ⟨by decide +kernel, ⟨[], _, [], congrArg Split.marked hs, rfl⟩, ?_⟩
  rintro ⟨_, _, he, _⟩
  exact absurd (List.all_eq_true.1 hn _ he) (by simp [Act.isNest])

end Resolution
end Phrasebook
