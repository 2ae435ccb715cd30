import Phrasebook.Localizer
import Phrasebook.Proofs.Template.Pieces

namespace Phrasebook

variable {ι : Type}

structure Markup.Inert (text : List Char) : Prop where
  no_less : '<' ∉ text
  no_greater : '>' ∉ text

def Markup.InertResult (found : Option String) : Prop :=
  ∀ s, found = some s → Inert s.toList

-- Text in which no raw mark stands behind an opening mark, with or without blanks between them.
def Options.NoRaw (o : Options ι) (text : List Char) : Prop :=
  ∀ mark, o.rawMark.value? = some mark → mark ≠ "" → ∀ blanks, (∀ c ∈ blanks, Text.isBlank c) →
    ¬ o.variableMarks.opening ++ blanks ++ mark.toList <:+: text

-- Templates bring in no tags and no raw variables, and handlers of failures bring in no tags.
structure Host.Inert (host : Host ι) (o : Options ι) : Prop where
  template : ∀ l ns key template, host.retrieve l ns key o = .ok (some template) →
    Markup.Inert template.toList ∧ o.NoRaw template.toList
  failed : ∀ handler, o.onFailure.value? = some (.handler handler) →
    ∀ l ns key bag failure s, host.failed handler l ns key bag o failure = .ok (some s) →
      Markup.Inert s.toList

namespace Markup

theorem Inert.append {s t : List Char} (hs : Inert s) (ht : Inert t) : Inert (s ++ t) where
  no_less := by simp [hs.no_less, ht.no_less]
  no_greater := by simp [hs.no_greater, ht.no_greater]

theorem Inert.of_infix {s t : List Char} (ht : Inert t) (h : s <:+: t) : Inert s where
  no_less hc := ht.no_less (h.subset hc)
  no_greater hc := ht.no_greater (h.subset hc)

theorem inert_escapeChar (c : Char) : Inert (escapeChar c) := by
  unfold escapeChar
  split
  case h_7 => exact ⟨by simp_all [eq_comm], by simp_all [eq_comm]⟩
  all_goals exact ⟨by decide, by decide⟩

theorem inert_escape (text : List Char) : Inert (escape text) where
  no_less h := by
    have ⟨c, _, hc⟩ := List.mem_flatMap.1 h
    exact (inert_escapeChar c).no_less hc
  no_greater h := by
    have ⟨c, _, hc⟩ := List.mem_flatMap.1 h
    exact (inert_escapeChar c).no_greater hc

end Markup

theorem Options.NoRaw.of_infix {o : Options ι} {s t : List Char} (ht : o.NoRaw t) (h : s <:+: t) :
    o.NoRaw s :=
  fun mark hm hne blanks hb hs => ht mark hm hne blanks hb (hs.trans h)

theorem Text.exists_eq_trimmed (text : List Char) :
    ∃ front back, text = front ++ trimmed text ++ back ∧ ∀ c ∈ front, isBlank c := by
  let rest := text.dropWhile isBlank
  refine ⟨text.takeWhile isBlank, (rest.reverse.takeWhile isBlank).reverse, ?_, fun c hc => ?_⟩
  · have hr : trimmed text ++ (rest.reverse.takeWhile isBlank).reverse = rest := by
      simp only [trimmed, trimmedOf, ← List.reverse_append, List.takeWhile_append_dropWhile,
        List.reverse_reverse, rest]
    rw [List.append_assoc, hr, List.takeWhile_append_dropWhile]
  · exact List.all_eq_true.1 List.all_takeWhile c hc

namespace Template

open Markup

variable {site : Site ι}

theorem raw_eq_false {o : Options ι} {part content : List Char} (h : o.NoRaw part)
    (hc : o.variableMarks.opening ++ content <:+: part) :
    (Variable.parse o content).raw = false := by
  refine Bool.eq_false_iff.2 fun hr => ?_
  have hr : (Variable.ofContent o.rawMark.value? content).1 = true := hr
  simp only [Variable.ofContent] at hr
  split at hr
  case h_2 => cases hr
  case h_1 rest ha =>
    have ⟨mark, hf, ha⟩ := Option.bind_eq_some_iff.1 ha
    have ⟨hm, hne⟩ := Option.filter_eq_some_iff.1 hf
    have ⟨front, back, ht, hb⟩ := Text.exists_eq_trimmed content
    rw [Text.after?_eq_some_iff.1 ha] at ht
    refine h mark hm (by simpa using hne) front hb (List.IsInfix.trans ?_ hc)
    exact ⟨[], rest ++ back, by simp [ht]⟩

theorem variableText_yields_inert (he : site.options.escapes.value? ≠ some false) (bag : Bag)
    (refuse : Cause → Failure) {v : Variable} (hv : v.raw = false) :
    (v.text site bag refuse).Yields Inert := by
  have he' : (site.options.escapes.value? == some false) = false := by simpa using he
  simp only [Variable.text, hv, he', Bool.or_false, Bool.false_eq_true, if_false]
  split
  case isTrue => exact .raise
  case isFalse =>
    split
    case h_1 | h_2 => exact .raise
    case h_3 => exact .seq fun s => .pure (inert_escape _)

theorem fill_yields_inert (he : site.options.escapes.value? ≠ some false) (bag : Bag)
    (template : String) {part : List Char} (hp : Inert part) (hr : site.options.NoRaw part) :
    (fill site bag template part).Yields Inert := by
  let marks := site.options.variableMarks
  refine Split.renderM_yields (fun _ _ => Inert.append) (fun g hg => ?_) fun c hc => ?_
  case refine_1 => exact .pure (hp.of_infix (Marking.infix_of_mem_gaps hg))
  case refine_2 =>
    have hpre : marks.opening ++ c <:+: part :=
      (List.prefix_append _ marks.closing).isInfix.trans (Marking.token_infix_of_mem_contents hc)
    exact variableText_yields_inert he _ _ (raw_eq_false hr hpre)

theorem interpolateAround_yields_inert (he : site.options.escapes.value? ≠ some false) (bag : Bag)
    {template : String} (ht : Inert template.toList) (hr : site.options.NoRaw template.toList) :
    (interpolateAround site bag template).Yields fun s => Inert s.toList := by
  refine .map ?_
  simp only [String.toList_ofList]
  refine Split.renderM_yields (fun _ _ => Inert.append) (fun g hg => ?_) fun c hc => ?_
  case refine_1 =>
    have hg := Marking.infix_of_mem_gaps hg
    exact fill_yields_inert he _ _ (ht.of_infix hg) (hr.of_infix hg)
  case refine_2 => exact .pure (ht.of_infix (Marking.token_infix_of_mem_contents hc))

theorem nest_yields_inert {resolve : Resolver ι} (bag : Bag)
    (hr : ∀ key bag, (resolve key site.locale bag site.options).Yields InertResult)
    {template : String} (ht : Inert template.toList) :
    (nest site bag resolve template).Yields fun s => Inert s.toList := by
  refine .map ?_
  simp only [String.toList_ofList]
  refine Split.renderM_yields (fun _ _ => Inert.append) (fun g hg => ?_) fun c hc => ?_
  case refine_1 => exact .pure (ht.of_infix (Marking.infix_of_mem_gaps hg))
  case refine_2 =>
    simp only [Nested.text]
    split
    case isTrue => exact .raise
    case isFalse =>
      refine .seq fun inner => .seq fun _ => (hr _ inner).bind fun found hf => ?_
      cases found
      case none => exact .raise
      case some s => exact .pure (hf s rfl)

end Template

namespace Resolution

open Markup Template

variable {deeper : Scope → Resolver ι} {site : Site ι}

theorem nested_yields_inert {o : Options ι}
    (hd : ∀ scope key l bag, (deeper scope key l bag o).Yields InertResult)
    (ns template key : String) (l : Locale) (bag : Bag) :
    (nested deeper site ns template key l bag o).Yields InertResult := by
  simp only [nested]
  split
  case h_1 =>
    split
    case isTrue => exact .raise
    case isFalse => exact hd _ _ _ _
  case h_2 => exact hd _ _ _ _

theorem find_yields_inert (hh : site.host.Inert site.options)
    (he : site.options.escapes.value? ≠ some false)
    (hd : ∀ scope key l bag, (deeper scope key l bag site.options).Yields InertResult)
    (ns key : String) (bag : Bag) : (find deeper site ns key bag).Yields InertResult := by
  refine .seq fun _ => .bind (.ofExcept fun found hf => hf) fun found hf => ?_
  cases found
  case none => exact .pure nofun
  case some template =>
    have ⟨ht, hr⟩ := hh.template _ _ _ _ hf
    let frame : Frame := ⟨ns, key, bag.context?⟩
    let inner := site.enter frame
    have he' : inner.options.escapes.value? ≠ some false := he
    have hr' : inner.options.NoRaw template.toList := hr
    refine .seq fun _ => (interpolateAround_yields_inert he' bag ht hr').bind fun filled hi => ?_
    have hd' : ∀ scope key l bag, (deeper scope key l bag inner.options).Yields InertResult := hd
    have hn : (nest inner bag (nested deeper inner ns template) filled).Yields
        fun s => Inert s.toList :=
      nest_yields_inert bag (fun key bag => nested_yields_inert hd' ns template key _ bag) hi
    refine .map fun s hs t heq => ?_
    cases heq
    exact hn s hs

theorem recover_yields_inert (hh : site.host.Inert site.options) (ns key : String) (bag : Bag)
    (failure : Failure) : (recover site ns key bag failure).Yields InertResult := by
  simp only [recover]
  split
  case h_1 => exact .raise
  case h_2 handler hf =>
    refine .seq fun _ => ?_
    match handler with
    | .warn => exact .seq fun _ => .pure nofun
    | .handler name =>
      refine .ofExcept fun found hr s heq => ?_
      exact hh.failed name hf _ _ _ _ _ _ (heq ▸ hr)

theorem search_yields_inert (hh : site.host.Inert site.options)
    (he : site.options.escapes.value? ≠ some false)
    (hd : ∀ scope key l bag, (deeper scope key l bag site.options).Yields InertResult)
    (bag : Bag) (places : List (String × String)) :
    (search deeper site bag places).Yields fun settled => InertResult settled.join := by
  induction places
  case nil => exact .pure nofun
  case cons place places ih =>
    simp only [search]
    split
    case isTrue => exact .seq fun _ => .pure nofun
    case isFalse =>
      refine (find_yields_inert hh he hd _ _ _).attempt.bind fun r hr => ?_
      match r with
      | .ok none => exact ih
      | .ok (some s) => exact .pure (hr _ rfl)
      | .error failure => exact .map (recover_yields_inert hh _ _ _ _)

theorem resolveIn_yields_inert (hh : site.host.Inert site.options)
    (he : site.options.escapes.value? ≠ some false)
    (hd : ∀ scope key l bag, (deeper scope key l bag site.options).Yields InertResult)
    (ns key : String) (bag : Bag) : (resolveIn deeper site ns key bag).Yields InertResult := by
  refine .seq fun keys => (search_yields_inert hh he hd bag _).bind fun settled hs => ?_
  cases settled
  case none => exact .seq fun _ => .pure nofun
  case some => exact .pure hs

theorem level_yields_inert {host : Host ι} {o : Options ι} (hh : host.Inert o)
    (he : o.escapes.value? ≠ some false) (n : Nat) :
    ∀ scope raw l bag, (level host n scope raw l bag o).Yields InertResult := by
  induction n
  case zero => exact fun _ _ _ _ => .starved
  case succ n ih =>
    intro scope raw l bag
    let site : Site ι := ⟨host, l, o, scope.chain⟩
    have hs : site.host.Inert site.options := hh
    -- A text may hold texts of all levels below.
    exact resolveIn_yields_inert hs he ih _ _ _

end Resolution

namespace Localizer

open Markup Resolution

theorem answer_yields_inert {l : Localizer ι} {r : Request ι} (hh : l.host.Inert r.options)
    (he : r.options.escapes.value? ≠ some false) : (l.answer r).Yields InertResult := by
  refine .bind (level_yields_inert hh he _ _ _ _ _) fun found hf => ?_
  cases found
  case none => exact .seq fun _ => .pure nofun
  case some => exact .pure hf

-- What the variables hold does not matter, nor how deep a text is nested, nor that the variables of
-- nested keys are not escaped.
theorem text?_holds_no_tags (l : Localizer ι) (q : Query ι)
    (hh : l.host.Inert (l.effective q.options))
    (he : (l.effective q.options).escapes.value? ≠ some false) :
    (∀ s, (l.text? q).outcome = .done (some s) → '<' ∉ s.toList ∧ '>' ∉ s.toList) ∧
    ∀ n scope raw locale bag s,
      (level l.host n scope raw locale bag (l.effective q.options)).outcome = .done (some s) →
        '<' ∉ s.toList ∧ '>' ∉ s.toList := by
  refine ⟨fun s h => ?_, fun n scope raw locale bag s h => ?_⟩
  case refine_1 =>
    have ⟨r, hr, h⟩ := Run.outcome_bind_eq_done_iff.1 h
    have ho := options_of_request (Run.outcome_ofExcept_eq_done_iff.1 hr)
    have hs := answer_yields_inert (ho ▸ hh) (ho ▸ he) _ h s rfl
    exact ⟨hs.no_less, hs.no_greater⟩
  case refine_2 =>
    have hs := level_yields_inert hh he n scope raw locale bag _ h s rfl
    exact ⟨hs.no_less, hs.no_greater⟩

theorem page_holds_no_tags :
    let templates : Members String :=
      [("page", "\x7b\x7bv\x7d\x7d $t(box, \x7b\"w\": \"\x7b\x7bv\x7d\x7d\"\x7d)"),
        ("box", "[\x7b\x7bw\x7d\x7d]"), ("name", "Bo")]
    let l : Localizer Empty := ⟨⟨"en", none⟩, .ofTemplates templates, {}⟩
    let q : Query Empty := ⟨"page", none, none, none, [("v", .text "<b>$t(name)")], none⟩
    let s := "&lt;b&gt;Bo [&lt;b&gt;Bo]"
    (l.text? q).outcome = .done (some s) ∧ '<' ∉ s.toList ∧ '>' ∉ s.toList := by
  intro templates l q s
  have hc : ∀ p ∈ templates, '<' ∉ p.2.toList ∧ '>' ∉ p.2.toList ∧ '-' ∉ p.2.toList := by
    decide +kernel
  have hh : l.host.Inert (l.effective q.options) := by
    refine ⟨fun _ _ key template h => ?_, nofun⟩
    have ⟨hl, hg, hm⟩ := hc _ (Members.mem_of_get? (Except.ok.inj h))
    refine ⟨⟨hl, hg⟩, ?_⟩
    rintro mark ⟨⟩ - blanks - hs
    exact hm (hs.subset (List.mem_append_right _ (by decide)))
  have he : (l.effective q.options).escapes.value? ≠ some false := nofun
  have h : (l.text? q).outcome = .done (some s) := by decide +kernel
  exact ⟨h, (text?_holds_no_tags l q hh he).1 s h⟩

end Localizer
end Phrasebook
