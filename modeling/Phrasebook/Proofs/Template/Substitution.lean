import Phrasebook.Proofs.Resolution.Tokens
import Phrasebook.Proofs.Template.Order

namespace Phrasebook.Template

variable {ι : Type}

namespace Nested

-- What a nesting token names, by its content: in front of the first separator there is the key, and
-- behind it the text of its own variables.
inductive Reads (o : Options ι) (content : List Char) : Nested → Prop
  | intro {key inner : List Char}
      (h : Text.Cut (o.nestSeparator.textOr ",").toList content key inner) :
      Reads o content ⟨String.ofList (Text.trimmed key), String.ofList inner⟩

theorem reads_iff {o : Options ι} {content : List Char} {n : Nested} :
    Reads o content n ↔ n = parse o content := by
  have hp {key inner : List Char}
      (hc : (Text.cut? (o.nestSeparator.textOr ",").toList content).getD (content, []) =
        (key, inner)) :
      ⟨String.ofList (Text.trimmed key), String.ofList inner⟩ = parse o content := by
    rw [parse, hc]
  constructor
  case mp =>
    intro h
    cases h
    case intro h => exact hp (Text.cut_iff.1 h)
  case mpr =>
    rintro rfl
    rw [← hp rfl]
    exact .intro (Text.cut_iff.2 rfl)

variable (site : Site ι) (outer : Bag) (resolve : Resolver ι) (refuse : Cause → Failure)
  (n : Nested)

def filled : Run (Event ι) String :=
  interpolate { site with options := site.options.unescaped } outer n.inner

inductive Supplies : Run (Event ι) Bag → Prop
  | blank (h : Text.trimmed n.inner.toList = []) : Supplies (pure outer)
  | unfilled {failure : Failure} (h : Text.trimmed n.inner.toList ≠ [])
      (hf : (n.filled site outer).outcome = .raised failure) :
      Supplies ⟨(n.filled site outer).events, .raised failure⟩
  | unreadable {text : String} {fault : Json.Fault} (h : Text.trimmed n.inner.toList ≠ [])
      (hf : (n.filled site outer).outcome = .done text)
      (hr : Json.read text site.host.conversion = .error fault) :
      Supplies ⟨(n.filled site outer).events, .raised (unreadable refuse fault)⟩
  | notObject {text : String} {value : Value} (h : Text.trimmed n.inner.toList ≠ [])
      (hf : (n.filled site outer).outcome = .done text)
      (hr : Json.read text site.host.conversion = .ok value) (hv : value.members? = none) :
      Supplies ⟨(n.filled site outer).events, .raised (refuse .optionsNotObject)⟩
  | object {text : String} {ms : Members Value} (h : Text.trimmed n.inner.toList ≠ [])
      (hf : (n.filled site outer).outcome = .done text)
      (hr : Json.read text site.host.conversion = .ok (.object ms)) :
      Supplies ⟨(n.filled site outer).events, .done (outer.putAll ms)⟩

structure Asked (made : Run (Event ι) Bag) (own : Bag) : Prop where
  named : n.key ≠ ""
  supplied : n.Supplies site outer refuse made
  done : made.outcome = .done own

def call (own : Bag) : Event ι :=
  ⟨site.chain, .nest n.key site.locale own site.options⟩

def reply (own : Bag) : Run (Event ι) (Option String) :=
  resolve n.key site.locale own site.options

inductive Substitutes : Run (Event ι) (List Char) → Prop
  | unkeyed (h : n.key = "") : Substitutes (.raise (refuse .emptyNesting))
  | unsupplied {made : Run (Event ι) Bag} {failure : Failure} (hn : n.key ≠ "")
      (hs : n.Supplies site outer refuse made) (hf : made.outcome = .raised failure) :
      Substitutes ⟨made.events, .raised failure⟩
  | resolved {made : Run (Event ι) Bag} {own : Bag} {s : String}
      (h : n.Asked site outer refuse made own)
      (hr : (n.reply site resolve own).outcome = .done (some s)) :
      Substitutes
        ⟨made.events ++ n.call site own :: (n.reply site resolve own).events, .done s.toList⟩
  | missing {made : Run (Event ι) Bag} {own : Bag} (h : n.Asked site outer refuse made own)
      (hr : (n.reply site resolve own).outcome = .done none) :
      Substitutes ⟨made.events ++ n.call site own :: (n.reply site resolve own).events,
        .raised (refuse (.nestedMissing n.key))⟩
  | failing {made : Run (Event ι) Bag} {own : Bag} {failure : Failure}
      (h : n.Asked site outer refuse made own)
      (hr : (n.reply site resolve own).outcome = .raised failure) :
      Substitutes
        ⟨made.events ++ n.call site own :: (n.reply site resolve own).events, .raised failure⟩
  | starved {made : Run (Event ι) Bag} {own : Bag} (h : n.Asked site outer refuse made own)
      (hr : (n.reply site resolve own).outcome = .starved) :
      Substitutes
        ⟨made.events ++ n.call site own :: (n.reply site resolve own).events, .starved⟩

variable {site outer resolve refuse n} {made : Run (Event ι) Bag} {own : Bag}

theorem bag_of_filled (h : Text.trimmed n.inner.toList ≠ []) :
    n.bag site outer refuse = (n.filled site outer >>= fun text =>
      match Json.read text site.host.conversion with
      | .error fault => .raise (unreadable refuse fault)
      | .ok (.object ms) => return outer.putAll ms
      | .ok _ => .raise (refuse .optionsNotObject)) := by
  rw [bag, if_neg (by simpa using h)]
  rfl

theorem Supplies.eq_bag (h : n.Supplies site outer refuse made) :
    made = n.bag site outer refuse := by
  cases h
  case blank h => simp [bag, h]
  case unfilled h hf => rw [bag_of_filled h, Run.bind_of_raised hf]
  case unreadable h hf hr =>
    rw [bag_of_filled h, Run.bind_of_done hf, hr]
    simp [Run.raise]
  case notObject value h hf hr hv =>
    rw [bag_of_filled h, Run.bind_of_done hf, hr]
    cases value
    case object => cases hv
    all_goals simp [Run.raise]
  case object h hf hr =>
    rw [bag_of_filled h, Run.bind_of_done hf, hr]
    simp

variable (site outer refuse n) in
theorem exists_supplies : ∃ made, n.Supplies site outer refuse made := by
  by_cases h : Text.trimmed n.inner.toList = []
  case pos => exact ⟨_, .blank h⟩
  case neg =>
    cases hf : (n.filled site outer).outcome
    case starved => exact absurd hf interpolate_fed
    case raised failure => exact ⟨_, .unfilled h hf⟩
    case done text =>
      cases hr : Json.read text site.host.conversion
      case error fault => exact ⟨_, .unreadable h hf hr⟩
      case ok value =>
        cases value
        case object ms => exact ⟨_, .object h hf hr⟩
        all_goals exact ⟨_, .notObject h hf hr rfl⟩

theorem text_of_asked (h : n.Asked site outer refuse made own) :
    n.text site outer resolve refuse =
      let answer := n.reply site resolve own >>= fun
        | none => .raise (refuse (.nestedMissing n.key))
        | some s => return s.toList
      ⟨made.events ++ n.call site own :: answer.events, answer.outcome⟩ := by
  have hb : (n.bag site outer refuse).outcome = .done own := h.supplied.eq_bag ▸ h.done
  rw [text, if_neg (by simpa using h.named), Run.bind_of_done hb, Site.emit, Run.emit_bind,
    ← h.supplied.eq_bag]
  rfl

theorem Substitutes.eq_text {run : Run (Event ι) (List Char)}
    (h : n.Substitutes site outer resolve refuse run) : run = n.text site outer resolve refuse := by
  cases h
  case unkeyed h => simp [text, h]
  case unsupplied hn hs hf =>
    have hb := hs.eq_bag ▸ hf
    rw [text, if_neg (by simpa using hn), Run.bind_of_raised hb, hs.eq_bag]
  case resolved h hr | missing h hr =>
    rw [text_of_asked h, Run.bind_of_done hr]
    simp [Run.raise]
  case failing h hr | starved h hr => simp [text_of_asked h, Run.bind_eq, Run.bind, hr]

variable (site outer resolve refuse n) in
theorem exists_substitutes : ∃ run, n.Substitutes site outer resolve refuse run := by
  by_cases hn : n.key = ""
  case pos => exact ⟨_, .unkeyed hn⟩
  case neg =>
    have ⟨made, hs⟩ := exists_supplies site outer refuse n
    cases hm : made.outcome
    case starved => exact absurd (hs.eq_bag ▸ hm) (bag_fed _)
    case raised => exact ⟨_, .unsupplied hn hs hm⟩
    case done own =>
      have h : n.Asked site outer refuse made own := ⟨hn, hs, hm⟩
      match hr : (n.reply site resolve own).outcome with
      | .done (some _) => exact ⟨_, .resolved h hr⟩
      | .done none => exact ⟨_, .missing h hr⟩
      | .raised _ => exact ⟨_, .failing h hr⟩
      | .starved => exact ⟨_, .starved h hr⟩

theorem substitutes_iff {run : Run (Event ι) (List Char)} :
    n.Substitutes site outer resolve refuse run ↔ run = n.text site outer resolve refuse := by
  constructor
  case mp => exact Substitutes.eq_text
  case mpr =>
    rintro rfl
    have ⟨_, h⟩ := exists_substitutes site outer resolve refuse n
    exact h.eq_text ▸ h

end Nested

theorem tokenText_eq_iff {site : Site ι} {bag : Bag} {resolve : Resolver ι} {template : String}
    {content : List Char} {made : Run (Event ι) (List Char)} :
    tokenText site bag resolve template content = made ↔
      ∃ n, Nested.Reads site.options content n ∧
        n.Substitutes site bag resolve (fun cause => .render cause template
          (String.ofList (site.options.nestingMarks.token content))) made := by
  simp only [Nested.reads_iff, Nested.substitutes_iff, exists_eq_left, eq_comm]
  rfl

-- A template is the gaps and the nesting tokens that are found in it. Either all of the tokens have
-- a text, and the texts take their places, or the first one without a text fails the template. What
-- comes of a token depends on its own content only, and the ones behind a failure are left alone.
-- The own variables of a nested key go over those of the template, name by name.
theorem nest_substitutes_tokens (site : Site ι) (bag : Bag) (resolve : Resolver ι)
    (template : String) :
    let marks := site.options.nestingMarks
    let s := marks.split template.toList
    let token := tokenText site bag resolve template
    let run := nest site bag resolve template
    s.text marks = template.toList ∧
    (∀ content made, token content = made ↔
      ∃ n, Nested.Reads site.options content n ∧
        n.Substitutes site bag resolve (fun cause => .render cause template
          (String.ofList (marks.token content))) made) ∧
    (∀ (text : String) (ms : Members Value),
      Json.read text site.host.conversion = .ok (.object ms) →
      ∀ name, (bag.putAll ms).get? name = (ms.get? name).or (bag.get? name)) ∧
    ((∃ found, s.Renders pure token found ∧ found.gaps = s.gaps ∧
        run = ⟨s.contents.flatMap fun c => (token c).events,
          .done (String.ofList (found.join id))⟩) ∨
      ∃ before content after, s.contents = before ++ content :: after ∧
        (∀ c ∈ before, (token c).Ends) ∧ ¬ (token content).Ends ∧ ¬ run.Ends ∧
        run.events = (before ++ [content]).flatMap (fun c => (token c).events) ∧
        ∀ failure, run.outcome = .raised failure ↔ (token content).outcome = .raised failure) := by
  intro marks s token run
  refine ⟨marks.text_split _, fun _ _ => tokenText_eq_iff, fun text ms hr => ?override, ?order⟩
  case override => exact Members.get?_putAll (Json.nodup_names_of_read hr) bag
  case order =>
    have hrun : run = String.ofList <$> s.renderM pure token := rfl
    rcases s.renderM_cases token with ⟨found, hs, hr⟩ | ⟨before, content, after, hs, hb, hn, hr⟩
    case inl => exact .inl ⟨found, hs, hs.gaps_eq, by rw [hrun, hr, Run.map_done]⟩
    case inr =>
      have hf : run.forget = _ := hrun ▸ Run.forget_map.trans hr
      have ho := congrArg Run.outcome hf
      dsimp only at ho
      refine .inr ⟨before, content, after, hs, hb, hn, ?ends, ?events, fun failure => ?failure⟩
      case ends => rwa [← Run.outcome_forget_eq_done_iff, ho, Run.outcome_forget_eq_done_iff]
      case events => exact Run.events_forget.symm.trans (congrArg Run.events hf)
      case failure =>
        rw [← Run.outcome_forget_eq_raised_iff, ho, Run.outcome_forget_eq_raised_iff]

example :
    let site : Site Empty := ⟨.ofTemplates [], ⟨"en", none⟩, .base, []⟩
    let resolve : Resolver Empty := fun key _ bag _ =>
      pure (some (key ++ "=" ++ ((bag.get? "x").elim "$t(y)" (·.shown))))
    (nest site [] resolve "<$t( a , \x7b\"x\": 1\x7d)> $t(b)!").outcome =
      .done "<a=1> b=$t(y)!" := by
  decide +kernel

end Phrasebook.Template
