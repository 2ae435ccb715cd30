import Phrasebook.Members
import Phrasebook.Setting

namespace Phrasebook

-- What happens to a failure: a warning and a miss, or whatever a handler makes of it.
inductive OnFailure (ι : Type) where
  | warn
  | handler (name : ι)

structure Options (ι : Type) where
  nsSeparator : Setting String := .unset
  contextSeparator : Setting String := .unset
  pluralSeparator : Setting String := .unset
  pluralSuffix : Setting String := .unset
  keySeparator : Setting String := .unset
  -- The marks around a variable, and the one between its name and its format.
  opening : Setting String := .unset
  closing : Setting String := .unset
  formatSeparator : Setting String := .unset
  -- The mark in front of a name that is not escaped.
  rawMark : Setting String := .unset
  escapes : Setting Bool := .unset
  -- The marks around a nested key, and the one between the key and its own variables.
  nestOpening : Setting String := .unset
  nestClosing : Setting String := .unset
  nestSeparator : Setting String := .unset
  depthLimit : Setting Int := .unset
  fallbacks : Setting (List String) := .unset
  formats : Setting (Members ι) := .unset
  onMissing : Setting ι := .unset
  onFailure : Setting (OnFailure ι) := .unset

namespace Options

variable {ι : Type}

def base : Options ι where
  nsSeparator := .set ":"
  contextSeparator := .set "_"
  pluralSeparator := .set "_"
  pluralSuffix := .set "plural"
  keySeparator := .set "."
  opening := .set "\x7b\x7b"
  closing := .set "\x7d\x7d"
  formatSeparator := .set ","
  rawMark := .set "-"
  escapes := .set true
  nestOpening := .set "$t("
  nestClosing := .set ")"
  nestSeparator := .set ","
  depthLimit := .set 25
  fallbacks := .set []
  formats := .set []
  onFailure := .set .warn

def merge (lower upper : Options ι) : Options ι where
  nsSeparator := lower.nsSeparator.under upper.nsSeparator
  contextSeparator := lower.contextSeparator.under upper.contextSeparator
  pluralSeparator := lower.pluralSeparator.under upper.pluralSeparator
  pluralSuffix := lower.pluralSuffix.under upper.pluralSuffix
  keySeparator := lower.keySeparator.under upper.keySeparator
  opening := lower.opening.under upper.opening
  closing := lower.closing.under upper.closing
  formatSeparator := lower.formatSeparator.under upper.formatSeparator
  rawMark := lower.rawMark.under upper.rawMark
  escapes := lower.escapes.under upper.escapes
  nestOpening := lower.nestOpening.under upper.nestOpening
  nestClosing := lower.nestClosing.under upper.nestClosing
  nestSeparator := lower.nestSeparator.under upper.nestSeparator
  depthLimit := lower.depthLimit.under upper.depthLimit
  fallbacks := lower.fallbacks.under upper.fallbacks
  formats := lower.formats.under upper.formats
  onMissing := lower.onMissing.under upper.onMissing
  onFailure := lower.onFailure.under upper.onFailure

def merge? (lower : Options ι) : Option (Options ι) → Options ι
  | none => lower
  | some upper => lower.merge upper

def mergeAll (lower : Options ι) (layers : List (Option (Options ι))) : Options ι :=
  layers.foldl merge? lower

def unescaped (o : Options ι) : Options ι :=
  o.merge { escapes := .set false }

-- A text in place of a list of namespaces gives one namespace for each of its characters.
def namespacesOfText (s : String) : List String :=
  s.toList.map String.singleton

end Options
end Phrasebook
