import Phrasebook.Options

namespace Phrasebook

structure Settings where
  -- What is put before names outside of production; empty in production.
  stage : String := ""
  logLevel : String := "WARNING"
  defaultLocale : String := "en"
  nsSeparator : String := ":"
  contextSeparator : String := "_"
  pluralSeparator : String := "_"
  keySeparator : String := "."
  escapes : Bool := true
  fallbacks : List String := []
  depthLimit : Int := 25
  one_le_depthLimit : 1 ≤ depthLimit := by decide

namespace Settings

def isProduction (s : Settings) : Bool :=
  s.stage.isEmpty

-- The options that settings speak of. All others stay open.
def options {ι : Type} (s : Settings) : Options ι where
  nsSeparator := .set s.nsSeparator
  contextSeparator := .set s.contextSeparator
  pluralSeparator := .set s.pluralSeparator
  keySeparator := .set s.keySeparator
  escapes := .set s.escapes
  fallbacks := .set s.fallbacks
  depthLimit := .set s.depthLimit

end Settings
end Phrasebook
