import Phrasebook.Proofs.Template.Pieces
import Phrasebook.Template.Nested

namespace Phrasebook

variable {ι : Type}

structure Options.Plain (o : Options ι) (text : String) : Prop where
  no_variable : (o.variableMarks.split text.toList).marked = []
  no_nesting : (o.nestingMarks.split text.toList).marked = []

namespace Template

theorem Marking.split_of_marked_eq_nil {m : Marking} {text : List Char}
    (h : (m.split text).marked = []) : m.split text = ⟨[], text⟩ := by
  have ht := m.text_split text
  cases hs : m.split text
  case mk marked tail =>
    simp only [hs] at h ht
    subst h
    exact congrArg (Split.mk []) ht

theorem Marking.marked_eq_nil_of_no_token {m : Marking} {text : List Char}
    (h : ∀ content, ¬ m.token content <:+: text) : (m.split text).marked = [] :=
  List.map_eq_nil_iff.1 (List.eq_nil_iff_forall_not_mem.2 fun content hc =>
    h content (token_infix_of_mem_contents hc))

variable {site : Site ι} {bag : Bag} {text : String}

theorem fill_of_plain {part : List Char} (h : (site.options.variableMarks.split part).marked = [])
    (template : String) : fill site bag template part = pure part := by
  rw [fill, Marking.split_of_marked_eq_nil h]
  rfl

theorem interpolateAround_of_no_nesting
    (h : (site.options.nestingMarks.split text.toList).marked = []) :
    interpolateAround site bag text = interpolate site bag text := by
  rw [interpolateAround, Marking.split_of_marked_eq_nil h]
  rfl

theorem nest_of_no_nesting (h : (site.options.nestingMarks.split text.toList).marked = [])
    (resolve : Resolver ι) : nest site bag resolve text = pure text := by
  have hr : nest site bag resolve text = String.ofList <$> pure text.toList := by
    rw [nest, Marking.split_of_marked_eq_nil h]
    rfl
  rw [hr, map_pure, String.ofList_toList]

theorem interpolateAround_of_plain (h : site.options.Plain text) :
    interpolateAround site bag text = pure text := by
  rw [interpolateAround_of_no_nesting h.no_nesting, interpolate, fill_of_plain h.no_variable,
    map_pure, String.ofList_toList]

theorem nest_of_plain (h : site.options.Plain text) (resolve : Resolver ι) :
    nest site bag resolve text = pure text :=
  nest_of_no_nesting h.no_nesting resolve

end Template

-- No token stands in the text, whether a scan would come to it or not.
theorem Options.Plain.of_no_token {o : Options ι} {text : String}
    (hv : ∀ content, ¬ o.variableMarks.token content <:+: text.toList)
    (hn : ∀ content, ¬ o.nestingMarks.token content <:+: text.toList) : o.Plain text where
  no_variable := Template.Marking.marked_eq_nil_of_no_token hv
  no_nesting := Template.Marking.marked_eq_nil_of_no_token hn

end Phrasebook
