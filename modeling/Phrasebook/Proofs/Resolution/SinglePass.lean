import Phrasebook.Proofs.Template.Substitution

namespace Phrasebook

variable {ι : Type}

namespace Template

variable {site : Site ι} {outer own : Bag} {n : Nested} {refuse : Cause → Failure}

-- The variables of a nested key: those of the template, and over them the ones that stand in its
-- token, which are made from those of the template once.
inductive OwnVariables (site : Site ι) (outer : Bag) (n : Nested) : Bag → Prop
  | blank (h : (Text.trimmed n.inner.toList).isEmpty) : OwnVariables site outer n outer
  | object {text : String} {ms : Members Value} (h : ¬ (Text.trimmed n.inner.toList).isEmpty)
      (ht : (interpolate { site with options := site.options.unescaped } outer n.inner).outcome =
        .done text)
      (hm : Json.read text site.host.conversion = .ok (.object ms)) :
      OwnVariables site outer n (outer.putAll ms)

theorem outcome_bag_eq_done_iff :
    (n.bag site outer refuse).outcome = .done own ↔ OwnVariables site outer n own := by
  constructor
  case mp =>
    intro h
    have ⟨made, hs⟩ := Nested.exists_supplies site outer refuse n
    rw [← hs.eq_bag] at h
    cases hs <;> cases h
    case blank hb => exact .blank (List.isEmpty_iff.2 hb)
    case object hb ht hm => exact .object (mt List.isEmpty_iff.1 hb) ht hm
  case mpr =>
    rintro (hb | ⟨hb, ht, hm⟩)
    case blank => exact (Nested.Supplies.blank (List.isEmpty_iff.1 hb)).eq_bag ▸ rfl
    case object => exact (Nested.Supplies.object (mt List.isEmpty_iff.2 hb) ht hm).eq_bag ▸ rfl

section Gaps

variable {template : String} {bag : Bag}

theorem interpolateAround_of_gap
    (h : ∃ gap ∈ (site.options.nestingMarks.split template.toList).gaps,
      ¬ (interpolate site bag (String.ofList gap)).Ends) :
    let value := variableText site bag template
    ∃ before content after failure,
      (site.options.nestingMarks.split template.toList).variables site.options =
        before ++ content :: after ∧
      (∀ c ∈ before, (value c).Ends) ∧ (value content).outcome = .raised failure ∧
      interpolateAround site bag template =
        ⟨(before ++ [content]).flatMap fun c => (value c).events, .raised failure⟩ := by
  intro value
  have ⟨gap, hg, hn⟩ := h
  have hforget : (interpolateAround site bag template).forget = _ := forget_interpolateAround
  have hi : ¬ (interpolateAround site bag template).Ends := by
    intro he
    rw [← Run.outcome_forget_eq_done_iff, hforget, ← inTurn_fill] at he
    have ⟨t, hd⟩ := Run.ends_of_mem_of_inTurn ⟨(), he⟩ gap hg
    have hf : (fill site bag template gap).outcome = .done (String.ofList t).toList := by
      rwa [String.toList_ofList]
    exact hn ⟨_, outcome_interpolate_eq_done_iff.2 hf⟩
  have ⟨failure, hr⟩ := interpolateAround_fed.exists_raised hi
  rw [← Run.outcome_forget_eq_raised_iff, hforget] at hr
  have ⟨before, content, after, hs, hb, hr⟩ := Run.exists_of_outcome_inTurn hr
  refine ⟨before, content, after, failure, hs, hb, hr, Run.eq_of_forget_of_raised ?_⟩
  rw [hforget, hs, Run.inTurn_of_raised hb hr]

theorem interpolateAround_of_gaps {filled : Split}
    (h : (site.options.nestingMarks.split template.toList).Renders
      (fun gap => String.toList <$> interpolate site bag (String.ofList gap)) pure filled) :
    interpolateAround site bag template =
      ⟨((site.options.nestingMarks.split template.toList).variables site.options).flatMap
          fun c => (variableText site bag template c).events,
        .done (String.ofList (filled.text site.options.nestingMarks))⟩ := by
  have hfill : (site.options.nestingMarks.split template.toList).Renders
      (fill site bag template) pure filled := by
    refine h.mono (fun gap t ht => ?_) fun _ _ h => h
    obtain ⟨s, hs, rfl⟩ := Run.outcome_map_eq_done_iff.1 ht
    exact outcome_interpolate_eq_done_iff.1 hs
  have hd := outcome_interpolateAround_eq_done_iff.2 ⟨filled, hfill, rfl⟩
  have he : (Run.inTurn (variableText site bag template)
      ((site.options.nestingMarks.split template.toList).variables site.options)).Ends := by
    rw [← forget_interpolateAround]
    exact ⟨(), Run.outcome_forget_eq_done_iff.2 ⟨_, hd⟩⟩
  refine Run.eq_of_forget_of_done ?_ hd
  rw [forget_interpolateAround, Run.inTurn_of_ends (Run.ends_of_mem_of_inTurn he)]

end Gaps

theorem forget_nest {bag : Bag} {resolve : Resolver ι} {filled : List Char} {s : Split}
    (h : site.options.nestingMarks.split filled = s) :
    (nest site bag resolve (String.ofList filled)).forget =
      Run.inTurn (tokenText site bag resolve (String.ofList filled)) s.contents := by
  rw [nest_eq_map_renderM, Run.forget_map, h]
  simp only [id_map]
  exact Split.forget_renderM_contents

end Template

namespace Resolution

open Template

variable {deeper : Scope → Resolver ι} {site : Site ι} {ns key template : String} {bag : Bag}

theorem outcome_nested_eq_done_iff {raw : String} {l : Locale} {o : Options ι}
    {found : Option String} :
    (nested deeper site ns template raw l bag o).outcome = .done found ↔
      (∀ limit, site.options.depthLimit.value? = some limit → site.chain.length < limit) ∧
        (deeper ⟨some ns, site.chain⟩ raw l bag o).outcome = .done found := by
  rcases nested_cases deeper site ns template raw l bag o with ⟨limit, hl, hle, heq⟩ | ⟨hr, heq⟩
  all_goals rw [heq]
  case inl =>
    have hn : ¬ (site.chain.length < limit) := by omega
    exact ⟨fun h => absurd h Run.outcome_raise_ne_done, fun h => absurd (h.1 limit hl) hn⟩
  case inr => exact ⟨fun h => ⟨hr, h⟩, fun h => h.2⟩

theorem outcome_tokenText_eq_done_iff {filled : String} {content text : List Char} :
    let n := Nested.parse site.options content
    (tokenText site bag (nested deeper site ns template) filled content).outcome = .done text ↔
      ¬ n.key.isEmpty ∧
      (∀ limit, site.options.depthLimit.value? = some limit → site.chain.length < limit) ∧
      ∃ own s, OwnVariables site bag n own ∧
        (deeper ⟨some ns, site.chain⟩ n.key site.locale own site.options).outcome =
          .done (some s) ∧ text = s.toList := by
  intro n
  let resolve := nested deeper site ns template
  let refuse (cause : Cause) : Failure :=
    .render cause filled (String.ofList (site.options.nestingMarks.token content))
  change (n.text site bag resolve refuse).outcome = _ ↔ _
  constructor
  case mp =>
    intro h
    have ⟨run, hs⟩ := Nested.exists_substitutes site bag resolve refuse n
    rw [← hs.eq_text] at h
    cases hs <;> cases h
    case resolved own s ha hr =>
      have ⟨hl, hd⟩ := outcome_nested_eq_done_iff.1 hr
      have ho := outcome_bag_eq_done_iff.1 (ha.supplied.eq_bag ▸ ha.done)
      exact ⟨by simpa using ha.named, hl, own, s, ho, hd, rfl⟩
  case mpr =>
    rintro ⟨hk, hl, own, s, ho, hd, rfl⟩
    have ⟨made, hm⟩ := Nested.exists_supplies site bag refuse n
    have ha : n.Asked site bag refuse made own :=
      ⟨by simpa using hk, hm, hm.eq_bag ▸ outcome_bag_eq_done_iff.2 ho⟩
    have hr : (n.reply site resolve own).outcome = .done (some s) :=
      outcome_nested_eq_done_iff.2 ⟨hl, hd⟩
    rw [← (Nested.Substitutes.resolved ha hr).eq_text]

section Stored

def opened (site : Site ι) (ns key template : String) (bag : Bag) : List (Event ι) :=
  let frame : Frame := ⟨ns, key, bag.context?⟩
  [⟨site.chain, .retrieve site.locale ns key site.options⟩,
    ⟨(site.enter frame).chain, .render frame template bag⟩]

variable (ht : site.host.retrieve site.locale ns key site.options = .ok (some template))
  {events : List (Event ι)}

include ht

theorem find_of_interpolateAround_raised {failure : Failure}
    (h : interpolateAround (site.enter ⟨ns, key, bag.context?⟩) bag template =
      ⟨events, .raised failure⟩) :
    find deeper site ns key bag = ⟨opened site ns key template bag ++ events, .raised failure⟩ := by
  rw [find_of_stored ht, h, Site.emit, Run.emit_bind, Site.emit, Run.emit_bind]
  rfl

variable {events' : List (Event ι)} {filled : String}
  (h : interpolateAround (site.enter ⟨ns, key, bag.context?⟩) bag template =
    ⟨events, .done filled⟩)

include h

theorem find_of_nest_done {s : String}
    (hn : let inner := site.enter ⟨ns, key, bag.context?⟩
      nest inner bag (nested deeper inner ns template) filled = ⟨events', .done s⟩) :
    find deeper site ns key bag =
      ⟨opened site ns key template bag ++ events ++ events', .done (some s)⟩ := by
  rw [find_of_stored ht, h, Site.emit, Run.emit_bind, Site.emit, Run.emit_bind]
  simp [← bind_pure_comp, Run.bind_eq, Run.bind, hn, opened]

theorem find_of_nest_raised {failure : Failure}
    (hn : let inner := site.enter ⟨ns, key, bag.context?⟩
      nest inner bag (nested deeper inner ns template) filled = ⟨events', .raised failure⟩) :
    find deeper site ns key bag =
      ⟨opened site ns key template bag ++ events ++ events', .raised failure⟩ := by
  rw [find_of_stored ht, h, Site.emit, Run.emit_bind, Site.emit, Run.emit_bind]
  simp [← bind_pure_comp, Run.bind_eq, Run.bind, hn, opened]

end Stored

theorem not_isNest_of_mem_opened {e : Event ι} (h : e ∈ opened site ns key template bag) :
    ¬ e.act.isNest := by
  simp only [opened, List.mem_cons, List.not_mem_nil, or_false] at h
  rcases h with rfl | rfl <;> simp [Act.isNest]

-- A variable without a text fails the template before any nested key is resolved. If all have one,
-- and no value brings in an opening mark, each nesting token is replaced in one pass from the left;
-- its own variables are made from the stored text and from the variables of the template.
theorem find_eq_single_pass
    (ht : site.host.retrieve site.locale ns key site.options = .ok (some template)) :
    let frame : Frame := ⟨ns, key, bag.context?⟩
    let inner := site.enter frame
    let marks := site.options.nestingMarks
    let stored := marks.split template.toList
    let named := stored.variables site.options
    let value := variableText inner bag template
    let begun := opened site ns key template bag
    let run := find deeper site ns key bag
    ((∃ gap ∈ stored.gaps, ¬ (interpolate inner bag (String.ofList gap)).Ends) →
      ∃ before content after failure, named = before ++ content :: after ∧
        (∀ c ∈ before, (value c).Ends) ∧ (value content).outcome = .raised failure ∧
        run = ⟨begun ++ (before ++ [content]).flatMap fun c => (value c).events,
          .raised failure⟩ ∧
        ∀ e ∈ run.events, ¬ e.act.isNest) ∧
    ∀ filled : Split,
      stored.Renders (fun gap => String.toList <$> interpolate inner bag (String.ofList gap)) pure
        filled →
      filled.Clear marks →
      let token := tokenText inner bag (nested deeper inner ns template)
        (String.ofList (filled.text marks))
      let begun := begun ++ named.flatMap fun c => (value c).events
      (∀ found : Split, filled.Renders pure token found →
        run = ⟨begun ++ stored.contents.flatMap fun c => (token c).events,
          .done (some (String.ofList (found.join id)))⟩) ∧
      (∀ before content after failure, stored.contents = before ++ content :: after →
        (∀ c ∈ before, (token c).Ends) → (token content).outcome = .raised failure →
        run = ⟨begun ++ (before ++ [content]).flatMap fun c => (token c).events,
          .raised failure⟩) ∧
      ∀ content text, (token content).outcome = .done text ↔
        let n := Nested.parse site.options content
        ¬ n.key.isEmpty ∧
        (∀ limit, site.options.depthLimit.value? = some limit → inner.chain.length < limit) ∧
        ∃ own s, OwnVariables inner bag n own ∧
          (deeper ⟨some ns, inner.chain⟩ n.key site.locale own site.options).outcome =
            .done (some s) ∧ text = s.toList := by
  intro frame inner marks stored named value begun run
  refine ⟨fun hg => ?gap, fun filled hf hc => ?pass⟩
  case gap =>
    have ⟨before, content, after, failure, hs, hb, hr, heq⟩ :=
      @interpolateAround_of_gap _ inner _ _ hg
    have hrun : run = _ := find_of_interpolateAround_raised ht heq
    refine ⟨before, content, after, failure, hs, hb, hr, hrun, fun e he => ?_⟩
    rw [hrun, List.mem_append, List.mem_flatMap] at he
    rcases he with he | ⟨c, _, he⟩
    case inl => exact not_isNest_of_mem_opened he
    case inr =>
      obtain ⟨_, _, _, rfl⟩ := variableText_formats e he
      simp [Act.isNest]
  case pass =>
    intro token begun'
    have heq := @interpolateAround_of_gaps _ inner _ _ _ hf
    have hs : marks.split (filled.text marks) = filled := by
      refine hc.split_text fun p hp => ?_
      have hp : p.2 ∈ stored.contents := hf.contents_eq ▸ List.mem_map_of_mem hp
      obtain ⟨q, hq, heq⟩ := List.mem_map.1 hp
      exact heq ▸ Marking.close_of_mem hq
    have hnest : (nest inner bag (nested deeper inner ns template)
        (String.ofList (filled.text marks))).forget = Run.inTurn token stored.contents :=
      hf.contents_eq ▸ forget_nest hs
    refine ⟨fun found hfound => ?_, fun before content after failure hb he hr => ?_,
      fun _ _ => outcome_tokenText_eq_done_iff⟩
    case refine_1 =>
      have hd := outcome_nest_eq_done_iff.2 ⟨found, hs.symm ▸ hfound, rfl⟩
      have he : ∀ c ∈ stored.contents, (token c).Ends :=
        fun c hc => hfound.exists_of_mem (hf.contents_eq ▸ hc)
      rw [Run.inTurn_of_ends he] at hnest
      exact find_of_nest_done ht heq (Run.eq_of_forget_of_done hnest hd)
    case refine_2 =>
      rw [hb, Run.inTurn_of_raised he hr] at hnest
      exact find_of_nest_raised ht heq (Run.eq_of_forget_of_raised hnest)

theorem greeting_in_single_pass :
    let template :=
      "Hi \x7b\x7bwho\x7d\x7d: $t(name, \x7b\"n\": \"\x7b\x7bwho\x7d\x7d\"\x7d) and $t(bye)!"
    let host := Host.ofTemplates
      [("hello", template), ("name", "[\x7b\x7bn\x7d\x7d]"), ("bye", "Bye")]
    let site : Site Empty := ⟨host, ⟨"en", none⟩, .base, []⟩
    let bag : Bag := [("who", .text "\x7b\x7bx\x7d\x7d")]
    host.retrieve site.locale "talk" "hello" site.options = .ok (some template) ∧
      (find (level host 5) site "talk" "hello" bag).outcome =
        .done (some "Hi \x7b\x7bx\x7d\x7d: [\x7b\x7bx\x7d\x7d] and Bye!") := by
  intro template host site bag
  have ht : site.host.retrieve site.locale "talk" "hello" site.options = .ok (some template) := rfl
  let name := "name, \x7b\"n\": \"\x7b\x7bwho\x7d\x7d\"\x7d".toList
  let filled : Split :=
    ⟨[("Hi \x7b\x7bx\x7d\x7d: ".toList, name), (" and ".toList, "bye".toList)], "!".toList⟩
  let found : Split := ⟨[("Hi \x7b\x7bx\x7d\x7d: ".toList, "[\x7b\x7bx\x7d\x7d]".toList),
    (" and ".toList, "Bye".toList)], "!".toList⟩
  have hs : site.options.nestingMarks.split template.toList =
      ⟨[("Hi \x7b\x7bwho\x7d\x7d: ".toList, name), (" and ".toList, "bye".toList)], "!".toList⟩
      := by decide +kernel
  have h := (@find_eq_single_pass _ (level host 5) site _ _ _ bag ht).2 filled
    (hs ▸ .cons (by decide +kernel) rfl (.cons (by decide +kernel) rfl (.tail (by decide +kernel))))
    (Split.clear_iff.2 (by decide +kernel))
  have hf := h.1 found
    (.cons rfl (by decide +kernel) (.cons rfl (by decide +kernel) (.tail rfl)))
  exact ⟨ht, congrArg Run.outcome hf⟩

end Resolution
end Phrasebook
