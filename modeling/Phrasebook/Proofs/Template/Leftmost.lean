import Phrasebook.Proofs.Template.Order
import Phrasebook.Proofs.Template.Scan

namespace Phrasebook.Template

variable {ι : Type}

namespace Split

-- A text taken apart at its marked parts, from the left. Each of them begins at the first opening
-- mark behind the one before, and ends at the first closing mark behind that.
inductive Leftmost (opening closing : List Char) : List Char → Split → Prop
  | tail {text : List Char} (h : ∀ content, ¬ opening ++ content ++ closing <:+: text) :
      Leftmost opening closing text ⟨[], text⟩
  | cons {gap content rest : List Char} {s : Split}
      (ho : Text.First opening gap (content ++ closing ++ rest))
      (hc : Text.First closing content rest) (hs : Leftmost opening closing rest s) :
      Leftmost opening closing (gap ++ opening ++ (content ++ closing ++ rest))
        ⟨(gap, content) :: s.marked, s.tail⟩

end Split

namespace Marking

variable {m : Marking} {text : List Char} {s : Split}

theorem no_token_of_cut? {opening closing gap body : List Char}
    (ho : Text.cut? opening text = some (gap, body)) (hc : Text.cut? closing body = none)
    (content : List Char) : ¬ opening ++ content ++ closing <:+: text := by
  rintro ⟨front, rest, h⟩
  apply Text.cut?_eq_none_iff.1 hc
  have ht := Text.eq_of_cut? ho
  have hle : gap.length ≤ front.length :=
    Text.length_le_of_cut? ho ⟨content ++ closing ++ rest, by simp [← h]⟩
  have hl : (gap ++ opening).length ≤ (front ++ opening ++ content).length := by
    simp
    omega
  have hp : gap ++ opening <+: front ++ opening ++ content :=
    List.prefix_of_prefix_length_le ⟨body, ht.symm⟩ ⟨closing ++ rest, by simp [← h]⟩ hl
  have ⟨more, hm⟩ := hp
  have hb : gap ++ opening ++ (more ++ closing ++ rest) = gap ++ opening ++ body := by
    rw [← ht, ← h, List.append_assoc more, ← List.append_assoc _ more, hm]
    simp
  exact ⟨more, rest, List.append_cancel_left hb⟩

theorem leftmost_iff (hm : m.close = Text.cut? m.closing) :
    s.Leftmost m.opening m.closing text ↔ s = m.split text := by
  constructor
  case mp =>
    intro h
    induction h
    case tail text h =>
      cases ho : Text.cut? m.opening text
      case none => exact (split_of_cut?_eq_none ho).symm
      case some p =>
        cases hc : m.close p.2
        case none => exact (split_of_close_eq_none ho hc).symm
        case some q =>
          exact absurd ⟨p.1, q.2, by simp [Text.eq_of_cut? ho, m.eq_of_close hc]⟩ (h q.1)
    case cons ho hc _ ih =>
      rw [split_of_close (Text.cut?_of_first ho) (hm ▸ Text.cut?_of_first hc), ← ih]
  case mpr =>
    rintro rfl
    fun_induction m.split text
    case case1 text ho => exact .tail (m.no_token_of_no_opening (Text.cut?_eq_none_iff.1 ho))
    case case2 ho hc => exact .tail (no_token_of_cut? ho (hm ▸ hc))
    case case3 text gap body ho content rest hc _ _ ih =>
      obtain ⟨ht, hfo⟩ := Text.cut?_eq_some_iff.1 ho
      obtain ⟨hb, hfc⟩ := Text.cut?_eq_some_iff.1 (hm ▸ hc)
      subst hb
      subst ht
      exact .cons hfo hfc ih

end Marking

namespace Variable

inductive Body (mark : Option String) (content : List Char) : Bool → List Char → Prop
  | raw {m : String} {rest : List Char} (hm : mark = some m) (hn : m ≠ "")
      (h : Text.trimmed content = m.toList ++ rest) : Body mark content true (Text.trimmed rest)
  | escaped (h : ∀ m, mark = some m → m ≠ "" → ¬ m.toList <+: Text.trimmed content) :
      Body mark content false (Text.trimmed content)

theorem after?_of_mark {mark : Option String} {content rest : List Char} :
    ((mark.filter (!·.isEmpty)).bind fun m => Text.after? m.toList content) = some rest ↔
      ∃ m, mark = some m ∧ m ≠ "" ∧ content = m.toList ++ rest := by
  simp [Option.bind_eq_some_iff, Option.filter_eq_some_iff, Text.after?_eq_some_iff, and_assoc]

theorem body_iff {mark : Option String} {content body : List Char} {raw : Bool} :
    Body mark content raw body ↔ ofContent mark content = (raw, body) := by
  simp only [ofContent]
  constructor
  case mp =>
    intro h
    cases h
    case raw hm hn h => rw [after?_of_mark.2 ⟨_, hm, hn, h⟩]
    case escaped h =>
      split
      case h_1 rest hr =>
        obtain ⟨m, hm, hn, hr⟩ := after?_of_mark.1 hr
        exact absurd ⟨rest, hr.symm⟩ (h m hm hn)
      case h_2 => rfl
  case mpr =>
    intro h
    split at h <;> cases h
    case h_1 rest hr =>
      obtain ⟨m, hm, hn, hr⟩ := after?_of_mark.1 hr
      exact .raw hm hn hr
    case h_2 hr =>
      refine .escaped fun m hm hn hp => ?_
      obtain ⟨rest, hp⟩ := hp
      cases hr.symm.trans (after?_of_mark.2 ⟨m, hm, hn, hp.symm⟩)

inductive Reads (o : Options ι) (content : List Char) : Variable → Prop
  | intro {raw : Bool} {body name format : List Char} (hb : Body o.rawMark.value? content raw body)
      (hc : Text.Cut (o.formatSeparator.textOr ",").toList body name format) :
      Reads o content
        { raw
          name := String.ofList (Text.trimmed name)
          format := if Text.trimmed format = [] then none
            else some (String.ofList (Text.trimmed format)) }

theorem reads_iff {o : Options ι} {content : List Char} {v : Variable} :
    Reads o content v ↔ v = parse o content := by
  have hp {raw : Bool} {body name format : List Char}
      (hb : ofContent o.rawMark.value? content = (raw, body))
      (hc : (Text.cut? (o.formatSeparator.textOr ",").toList body).getD (body, []) =
        (name, format)) :
      { raw
        name := String.ofList (Text.trimmed name)
        format := if Text.trimmed format = [] then none
          else some (String.ofList (Text.trimmed format)) } = parse o content := by
    simp [parse, hb, hc, Option.filter, ite_not]
  constructor
  case mp =>
    intro h
    cases h
    case intro hb hc => exact hp (body_iff.1 hb) (Text.cut_iff.1 hc)
  case mpr =>
    rintro rfl
    rw [← hp rfl rfl]
    exact .intro (body_iff.2 rfl) (Text.cut_iff.2 rfl)

variable (site : Site ι) (bag : Bag) (refuse : Cause → Failure) (v : Variable)

def escaped (text : String) : List Char :=
  if v.raw || site.options.escapes.value? == some false then text.toList
  else Markup.escape text.toList

structure Bound (value : Value) : Prop where
  named : v.name ≠ ""
  found : bag.lookup? v.name site.options.keySeparator.value? = some value
  not_null : value ≠ .null

structure Formatted (value : Value) (format : String) (formatter : ι) : Prop
    extends Bound site bag v value where
  asked : v.format = some format
  known : (site.options.formats.value?.getD []).get? format = some formatter

def call (value : Value) (format : String) (formatter : ι) : Event ι :=
  ⟨site.chain, .format formatter value format site.locale site.options⟩

def reply (value : Value) (format : String) (formatter : ι) : Except Failure (Option Value) :=
  site.host.format formatter value format site.locale site.options

inductive Evaluates : Run (Event ι) (List Char) → Prop
  | unnamed (h : v.name = "") : Evaluates (.raise (refuse .emptyToken))
  | unbound (hn : v.name ≠ "")
      (h : ∀ value, bag.lookup? v.name site.options.keySeparator.value? = some value →
        value = .null) : Evaluates (.raise (refuse (.unbound v.name)))
  | plain {value : Value} {s : String} (h : Bound site bag v value) (hf : v.format = none)
      (hs : site.host.write value = .ok s) : Evaluates (pure (v.escaped site s))
  | unwritable {value : Value} {failure : Failure} (h : Bound site bag v value)
      (hf : v.format = none) (hs : site.host.write value = .error failure) :
      Evaluates (.raise failure)
  | unknown {value : Value} {format : String} (h : Bound site bag v value)
      (hf : v.format = some format)
      (hn : (site.options.formats.value?.getD []).get? format = none) :
      Evaluates (.raise (refuse (.unknownFormat format)))
  | formatted {value value' : Value} {format s : String} {formatter : ι}
      (h : Formatted site bag v value format formatter)
      (hr : reply site value format formatter = .ok (some value'))
      (hs : site.host.write value' = .ok s) :
      Evaluates ⟨[call site value format formatter], .done (v.escaped site s)⟩
  | unwritableReply {value value' : Value} {format : String} {formatter : ι} {failure : Failure}
      (h : Formatted site bag v value format formatter)
      (hr : reply site value format formatter = .ok (some value'))
      (hs : site.host.write value' = .error failure) :
      Evaluates ⟨[call site value format formatter], .raised failure⟩
  | silent {value : Value} {format : String} {formatter : ι}
      (h : Formatted site bag v value format formatter)
      (hr : reply site value format formatter = .ok none) :
      Evaluates ⟨[call site value format formatter], .raised (refuse (.silentFormat format))⟩
  | failing {value : Value} {format : String} {formatter : ι} {failure : Failure}
      (h : Formatted site bag v value format formatter)
      (hr : reply site value format formatter = .error failure) :
      Evaluates ⟨[call site value format formatter], .raised failure⟩

variable {site bag refuse v} {value : Value} {format : String} {formatter : ι}

theorem text_of_bound (h : Bound site bag v value) :
    v.text site bag refuse =
      (plainText site refuse value v.format >>= fun s => pure (v.escaped site s)) := by
  unfold text
  rw [if_neg (by simpa using h.named), h.found]
  split
  case h_1 heq => cases heq
  case h_2 heq =>
    cases heq
    exact absurd rfl h.not_null
  case h_3 heq =>
    cases heq
    refine bind_congr fun s => ?_
    unfold escaped
    split <;> rfl

theorem plainText_of_formatted (h : Formatted site bag v value format formatter) :
    plainText site refuse value v.format =
      (Run.emit (call site value format formatter) >>= fun _ => do
        match ← Run.ofExcept (reply site value format formatter) with
        | none => .raise (refuse (.silentFormat format))
        | some formatted => Run.ofExcept (site.host.write formatted)) := by
  rw [h.asked, plainText, h.known]
  rfl

theorem Evaluates.eq_text {run : Run (Event ι) (List Char)} (h : v.Evaluates site bag refuse run) :
    run = v.text site bag refuse := by
  cases h
  case unnamed h => simp [text, h]
  case unbound hn h =>
    unfold text
    rw [if_neg (by simpa using hn)]
    split
    case h_1 | h_2 => rfl
    case h_3 value h0 hv => exact absurd (h value hv) h0
  case plain h hf hs | unwritable h hf hs =>
    rw [text_of_bound h, hf, plainText, hs]
    rfl
  case unknown h hf hn =>
    rw [text_of_bound h, hf, plainText, hn]
    rfl
  case formatted h hr hs | unwritableReply h hr hs =>
    rw [text_of_bound h.toBound, plainText_of_formatted h, hr]
    simp [Run.ofExcept, hs, Run.emit, Run.raise, Run.bind_eq, Run.pure_eq, Run.bind]
  case silent h hr | failing h hr =>
    rw [text_of_bound h.toBound, plainText_of_formatted h, hr]
    rfl

variable (site bag refuse v) in
theorem exists_evaluates : ∃ run, v.Evaluates site bag refuse run := by
  by_cases hn : v.name = ""
  case pos => exact ⟨_, .unnamed hn⟩
  case neg =>
    by_cases hv : ∃ value, Bound site bag v value
    case neg =>
      refine ⟨_, .unbound hn fun value hl => Classical.byContradiction fun h0 => ?_⟩
      exact hv ⟨value, hn, hl, h0⟩
    case pos =>
      have ⟨value, hb⟩ := hv
      cases hf : v.format
      case none =>
        cases hs : site.host.write value
        case ok => exact ⟨_, .plain hb hf hs⟩
        case error => exact ⟨_, .unwritable hb hf hs⟩
      case some format =>
        cases hk : (site.options.formats.value?.getD []).get? format
        case none => exact ⟨_, .unknown hb hf hk⟩
        case some formatter =>
          have h : Formatted site bag v value format formatter := ⟨hb, hf, hk⟩
          match hr : reply site value format formatter with
          | .ok (some value') =>
            cases hs : site.host.write value'
            case ok => exact ⟨_, .formatted h hr hs⟩
            case error => exact ⟨_, .unwritableReply h hr hs⟩
          | .ok none => exact ⟨_, .silent h hr⟩
          | .error _ => exact ⟨_, .failing h hr⟩

theorem evaluates_iff {run : Run (Event ι) (List Char)} :
    v.Evaluates site bag refuse run ↔ run = v.text site bag refuse := by
  constructor
  case mp => exact Evaluates.eq_text
  case mpr =>
    rintro rfl
    have ⟨_, h⟩ := exists_evaluates site bag refuse v
    exact h.eq_text ▸ h

end Variable

theorem variableText_eq_iff {site : Site ι} {bag : Bag} {template : String} {content : List Char}
    {made : Run (Event ι) (List Char)} :
    variableText site bag template content = made ↔
      ∃ v, Variable.Reads site.options content v ∧
        v.Evaluates site bag (fun cause => .render cause template
          (String.ofList (site.options.variableMarks.token content))) made := by
  simp only [Variable.reads_iff, Variable.evaluates_iff, exists_eq_left, eq_comm]
  rfl

-- There is one way to take a template apart at the leftmost and shortest variables. Either all of
-- them have a text, and the texts take their places, or the first one without a text fails the
-- template. What comes of a variable depends on its own content only, and no formatter is called
-- for the ones behind a failure.
theorem interpolate_leftmost_shortest (site : Site ι) (bag : Bag) (template : String) :
    let opening := (site.options.opening.textOr "\x7b\x7b").toList
    let closing := (site.options.closing.textOr "\x7d\x7d").toList
    let text := variableText site bag template
    let run := interpolate site bag template
    (∀ content made, text content = made ↔
      ∃ v, Variable.Reads site.options content v ∧
        v.Evaluates site bag (fun cause => .render cause template
          (String.ofList (opening ++ content ++ closing))) made) ∧
    ∃ s : Split, (∀ s', s'.Leftmost opening closing template.toList ↔ s' = s) ∧
      ((∃ found, s.Renders pure text found ∧ found.gaps = s.gaps ∧
          run = ⟨s.contents.flatMap fun c => (text c).events,
            .done (String.ofList (found.join id))⟩) ∨
        ∃ before content after failure, s.contents = before ++ content :: after ∧
          (∀ c ∈ before, (text c).Ends) ∧ (text content).outcome = .raised failure ∧
          run = ⟨(before ++ [content]).flatMap fun c => (text c).events, .raised failure⟩) := by
  intro opening closing text run
  let s := site.options.variableMarks.split template.toList
  refine ⟨fun _ _ => variableText_eq_iff, s, fun s' => ?_, ?_⟩
  case refine_1 => exact @Marking.leftmost_iff site.options.variableMarks template.toList s' rfl
  case refine_2 =>
    have hrun : run = String.ofList <$> s.renderM pure text := rfl
    rcases s.renderM_cases text with ⟨found, hs, hr⟩ | ⟨before, content, after, hs, hb, hn, hr⟩
    case inl => exact .inl ⟨found, hs, hs.gaps_eq, by rw [hrun, hr, Run.map_done]⟩
    case inr =>
      have hfed : (text content).Fed := variableText_fed _
      have ⟨failure, hc⟩ := hfed.exists_raised hn
      refine .inr ⟨before, content, after, failure, hs, hb, hc, Run.eq_of_forget_of_raised ?_⟩
      rw [hrun, Run.forget_map, hr, Run.outcome_forget_eq_raised_iff.2 hc]

example :
    let site : Site Empty := ⟨.ofTemplates [], ⟨"en", none⟩, .base, []⟩
    let bag : Bag := [("x", .text "\x7b\x7by\x7d\x7d"), ("\x7bx", .int 1)]
    (interpolate site bag "\x7b\x7b\x7bx\x7d\x7d\x7d \x7b\x7bx\x7d\x7d").outcome =
      .done "1\x7d \x7b\x7by\x7d\x7d" := by
  decide +kernel

end Phrasebook.Template
