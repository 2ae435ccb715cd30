import Phrasebook.Proofs.Run.Endings
import Phrasebook.Proofs.Template.Pieces
import Phrasebook.Template.Nested

namespace Phrasebook

def Site.Formats {ι : Type} (site : Site ι) (e : Event ι) : Prop :=
  ∃ formatter value name,
    e = ⟨site.chain, .format formatter value name site.locale site.options⟩

namespace Template

namespace Split

variable {ε : Type} {s : Split} {gap content : List Char → Run ε (List Char)}

theorem forget_renderM_contents :
    (s.renderM pure content).forget = Run.inTurn content s.contents := by
  induction s using consInduction
  case plain => rfl
  case cons p marked tail ih =>
    have hc : contents ⟨p :: marked, tail⟩ = p.2 :: contents ⟨marked, tail⟩ := rfl
    simp only [renderM_cons, pure_bind, Run.forget_bind, hc, Run.inTurn, ← ih]
    refine bind_congr fun _ => ?_
    simp [Run.forget]

theorem forget_renderM_gaps {k : List Char → List Char} :
    (s.renderM gap fun c => pure (k c)).forget = Run.inTurn gap s.gaps := by
  induction s using consInduction
  case plain tail => simp [renderM, renderM.go, gaps, Run.inTurn, Run.forget]
  case cons p marked tail ih =>
    have hg : gaps ⟨p :: marked, tail⟩ = p.1 :: gaps ⟨marked, tail⟩ := rfl
    simp only [renderM_cons, pure_bind, Run.forget_bind, hg, Run.inTurn, ← ih]
    refine bind_congr fun _ => ?_
    simp [Run.forget]

-- Either all marked parts have texts, which take their places, or the first one that has none is
-- the last one that is rendered.
theorem renderM_cases (s : Split) (content : List Char → Run ε (List Char)) :
    (∃ found, s.Renders pure content found ∧
      s.renderM pure content =
        ⟨s.contents.flatMap fun c => (content c).events, .done (found.join id)⟩) ∨
    ∃ before c after, s.contents = before ++ c :: after ∧ (∀ b ∈ before, (content b).Ends) ∧
      ¬ (content c).Ends ∧ (s.renderM pure content).forget =
        ⟨(before ++ [c]).flatMap fun c => (content c).events, (content c).forget.outcome⟩ := by
  have hf : (s.renderM pure content).forget = _ := forget_renderM_contents
  by_cases h : (Run.inTurn content s.contents).Ends
  case pos =>
    rw [Run.inTurn_of_ends (Run.ends_of_mem_of_inTurn h)] at hf
    have ⟨text, ht⟩ := Run.outcome_forget_eq_done_iff.1 (congrArg Run.outcome hf)
    have hr : s.renderM pure content = s.renderM pure fun c => id <$> content c := by simp
    have ⟨found, hs, hj⟩ := outcome_renderM_eq_done_iff.1 (hr ▸ ht)
    exact .inl ⟨found, hs, Run.eq_of_forget_of_done hf (hj ▸ ht)⟩
  case neg =>
    have ⟨before, c, after, hs, hb, hn⟩ := Run.exists_of_not_ends_inTurn h
    exact .inr ⟨before, c, after, hs, hb, hn, by rw [hf, hs, Run.inTurn_of_not_ends hb hn]⟩

end Split

variable {ι : Type} {site : Site ι} {bag : Bag} {template : String}

def variableText (site : Site ι) (bag : Bag) (template : String) (content : List Char) :
    Run (Event ι) (List Char) :=
  (Variable.parse site.options content).text site bag fun cause =>
    .render cause template (String.ofList (site.options.variableMarks.token content))

def Split.variables (o : Options ι) (s : Split) : List (List Char) :=
  s.gaps.flatMap fun gap => (o.variableMarks.split gap).contents

theorem forget_fill (part : List Char) :
    (fill site bag template part).forget =
      Run.inTurn (variableText site bag template)
        (site.options.variableMarks.split part).contents :=
  Split.forget_renderM_contents

theorem forget_interpolate :
    (interpolate site bag template).forget =
      Run.inTurn (variableText site bag template)
        (site.options.variableMarks.split template.toList).contents := by
  rw [interpolate, Run.forget_map, forget_fill]

theorem inTurn_fill (s : Split) :
    Run.inTurn (fill site bag template) s.gaps =
      Run.inTurn (variableText site bag template) (s.variables site.options) := by
  rw [← Run.inTurn_forget]
  exact Run.inTurn_flatMap fun gap _ => forget_fill gap

theorem forget_interpolateAround :
    (interpolateAround site bag template).forget =
      Run.inTurn (variableText site bag template)
        ((site.options.nestingMarks.split template.toList).variables site.options) := by
  rw [← inTurn_fill, interpolateAround, Run.forget_map]
  exact Split.forget_renderM_gaps

section Endings

variable {part : List Char} {refuse refuse' : Cause → Failure}

theorem outcome_plainText_of_done {value : Value} {format : Option String} {s : String}
    (h : (Variable.plainText site refuse value format).outcome = .done s) :
    (Variable.plainText site refuse' value format).outcome = .done s := by
  unfold Variable.plainText at h ⊢
  split at h
  case h_1 => exact h
  case h_2 =>
    split at h
    case h_1 => exact absurd h Run.outcome_raise_ne_done
    case h_2 =>
      obtain ⟨_, he, h⟩ := Run.outcome_bind_eq_done_iff.1 h
      obtain ⟨r, hr, h⟩ := Run.outcome_bind_eq_done_iff.1 h
      cases r
      case none => exact absurd h Run.outcome_raise_ne_done
      case some =>
        exact Run.outcome_bind_eq_done_iff.2 ⟨_, he, Run.outcome_bind_eq_done_iff.2 ⟨_, hr, h⟩⟩

theorem outcome_variableText_of_done {v : Variable} {t : List Char}
    (h : (v.text site bag refuse).outcome = .done t) :
    (v.text site bag refuse').outcome = .done t := by
  unfold Variable.text at h ⊢
  split at h
  case isTrue => exact absurd h Run.outcome_raise_ne_done
  case isFalse hn =>
    rw [if_neg hn]
    split at h
    case h_1 | h_2 => exact absurd h Run.outcome_raise_ne_done
    case h_3 =>
      obtain ⟨s, hs, h⟩ := Run.outcome_bind_eq_done_iff.1 h
      exact Run.outcome_bind_eq_done_iff.2 ⟨s, outcome_plainText_of_done hs, h⟩

theorem outcome_fill_of_done {template' : String} {t : List Char}
    (h : (fill site bag template part).outcome = .done t) :
    (fill site bag template' part).outcome = .done t := by
  have hw (template : String) : fill site bag template part =
      (site.options.variableMarks.split part).renderM pure fun c =>
        id <$> variableText site bag template c := by
    simp only [id_map]
    rfl
  rw [hw, Split.outcome_renderM_eq_done_iff] at h ⊢
  have ⟨s', hs, ht⟩ := h
  exact ⟨s', hs.mono (fun _ _ h => h) fun _ _ => outcome_variableText_of_done, ht⟩

theorem outcome_interpolate_eq_done_iff {t : String} :
    (interpolate site bag (String.ofList part)).outcome = .done t ↔
      (fill site bag template part).outcome = .done t.toList := by
  rw [interpolate, Run.outcome_map_eq_done_iff, String.toList_ofList]
  constructor
  case mp =>
    rintro ⟨filled, h, rfl⟩
    exact String.toList_ofList ▸ outcome_fill_of_done h
  case mpr => exact fun h => ⟨_, outcome_fill_of_done h, String.ofList_toList⟩

theorem plainText_formats {value : Value} {format : Option String} :
    ∀ e ∈ (Variable.plainText site refuse value format).events, site.Formats e := by
  intro e h
  unfold Variable.plainText at h
  split at h
  case h_1 => exact absurd h Run.not_mem_events_ofExcept
  case h_2 name =>
    split at h
    case h_1 => cases h
    case h_2 formatter _ =>
      rw [Site.emit, Run.emit_bind] at h
      rcases List.mem_cons.1 h with rfl | h
      case inl => exact ⟨formatter, value, name, rfl⟩
      case inr =>
        rcases Run.mem_events_bind.1 h with h | ⟨r, _, h⟩
        case inl => exact absurd h Run.not_mem_events_ofExcept
        case inr =>
          cases r
          case none => cases h
          case some => exact absurd h Run.not_mem_events_ofExcept

theorem variableText_formats {v : Variable} :
    ∀ e ∈ (v.text site bag refuse).events, site.Formats e := by
  intro e h
  unfold Variable.text at h
  split at h
  case isTrue => cases h
  case isFalse =>
    split at h
    case h_1 | h_2 => cases h
    case h_3 =>
      rcases Run.mem_events_bind.1 h with h | ⟨s, _, h⟩
      case inl => exact plainText_formats e h
      case inr => split at h <;> cases h

theorem fill_formats : ∀ e ∈ (fill site bag template part).events, site.Formats e := by
  rw [← Run.events_forget, forget_fill]
  exact Run.forall_mem_events_inTurn fun _ _ => variableText_formats

theorem interpolate_formats : ∀ e ∈ (interpolate site bag template).events, site.Formats e := by
  rw [interpolate, Run.events_map]
  exact fill_formats

theorem interpolateAround_formats :
    ∀ e ∈ (interpolateAround site bag template).events, site.Formats e := by
  rw [← Run.events_forget, forget_interpolateAround]
  exact Run.forall_mem_events_inTurn fun _ _ => variableText_formats

theorem mem_events_bag {n : Nested} {e : Event ι} (h : e ∈ (n.bag site bag refuse).events) :
    e ∈ (interpolate { site with options := site.options.unescaped } bag n.inner).events := by
  unfold Nested.bag at h
  split at h
  case isTrue => cases h
  case isFalse =>
    rcases Run.mem_events_bind.1 h with h | ⟨text, _, h⟩
    case inl => exact h
    case inr => split at h <;> cases h

theorem plainText_fed {value : Value} (format : Option String) :
    (Variable.plainText site refuse value format).Fed := by
  unfold Variable.plainText
  split
  case h_1 => exact .ofExcept
  case h_2 =>
    split
    case h_1 => exact .raise
    case h_2 =>
      refine .bind nofun fun _ => .bind .ofExcept fun r => ?_
      cases r
      case none => exact .raise
      case some => exact .ofExcept

theorem variableText_fed (v : Variable) : (v.text site bag refuse).Fed := by
  unfold Variable.text
  split
  case isTrue => exact .raise
  case isFalse =>
    split
    case h_1 | h_2 => exact .raise
    case h_3 =>
      refine (plainText_fed _).bind fun _ => ?_
      split
      case isTrue => exact .pure
      case isFalse => exact .pure

theorem fill_fed (part : List Char) : (fill site bag template part).Fed :=
  .renderM (fun _ => .pure) (fun _ => variableText_fed _) _

theorem interpolate_fed : (interpolate site bag template).Fed :=
  .map (fill_fed _)

theorem bag_fed {refuse : Cause → Failure} (n : Nested) : (n.bag site bag refuse).Fed := by
  unfold Nested.bag
  split
  case isTrue => exact .pure
  case isFalse =>
    refine interpolate_fed.bind fun text => ?_
    split
    case h_1 | h_3 => exact .raise
    case h_2 => exact .pure

theorem interpolateAround_fed : (interpolateAround site bag template).Fed :=
  .map (.renderM fill_fed (fun _ => .pure) _)

end Endings
end Template
end Phrasebook
