import Phrasebook.Options
import Phrasebook.Template.Nesting

namespace Phrasebook

theorem Setting.toList_textOr_ne_nil {fallback : String} (h : fallback ≠ "") (s : Setting String) :
    (s.textOr fallback).toList ≠ [] := by
  simpa using s.textOr_ne_empty h

namespace Options

variable {ι : Type} (o : Options ι)

def variableMarks : Template.Marking where
  opening := (o.opening.textOr "\x7b\x7b").toList
  closing := (o.closing.textOr "\x7d\x7d").toList
  close := Text.cut? (o.closing.textOr "\x7d\x7d").toList
  closing_ne := o.closing.toList_textOr_ne_nil (by decide)
  eq_of_close := Text.eq_of_cut?
  close_append := Text.cut?_append

-- A nested key ends at the first closing mark outside of its own variables.
def nestingMarks : Template.Marking where
  opening := (o.nestOpening.textOr "$t(").toList
  closing := (o.nestClosing.textOr ")").toList
  close := Template.Nesting.close? (o.nestClosing.textOr ")").toList {}
  closing_ne := o.nestClosing.toList_textOr_ne_nil (by decide)
  eq_of_close := Template.Nesting.eq_of_close?
  close_append :=
    Template.Nesting.close?_append (o.nestClosing.toList_textOr_ne_nil (by decide))

end Options
end Phrasebook
