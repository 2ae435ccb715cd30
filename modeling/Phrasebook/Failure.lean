import Phrasebook.Json.Token

namespace Phrasebook

inductive Cause where
  | emptyToken
  | unbound (name : String)
  | unknownFormat (name : String)
  | silentFormat (name : String)
  | emptyNesting
  | unreadableOptions (fault : Json.Fault)
  | optionsNotObject
  | nestedMissing (key : String)
  | tooDeep (limit : Int)
deriving DecidableEq

namespace Cause

def message : Cause → String
  | emptyToken => "Empty interpolation token"
  | unbound name => "Could not evaluate variable '" ++ name ++ "'"
  | unknownFormat name => "Unknown format '" ++ name ++ "'"
  | silentFormat name => "Format '" ++ name ++ "' returned no value"
  | emptyNesting => "Empty nesting token"
  | unreadableOptions fault => "Invalid nesting options: " ++ fault.message
  | optionsNotObject => "Nesting options must be a JSON object"
  | nestedMissing key => "Nested translation '" ++ key ++ "' not found"
  | tooDeep limit => "Nesting deeper than " ++ toString limit ++ " levels"

def kind : Cause → String
  | emptyToken | unbound _ | unknownFormat _ | silentFormat _ => "InterpolationError"
  | emptyNesting | unreadableOptions _ | optionsNotObject | nestedMissing _ => "NestingError"
  | tooDeep _ => "NestingDepthExceededError"

end Cause

inductive Failure where
  -- A token of a template that has no text.
  | render (cause : Cause) (template token : String)
  -- An error of a store, a formatter or a handler, with the kind and the message it was given.
  | host (kind message : String)
  | blankTag
deriving DecidableEq

namespace Failure

def message : Failure → String
  | render cause _ _ => cause.message
  | host _ message => message
  | blankTag => "Locale tag must not be empty"

def kind : Failure → String
  | render cause _ _ => cause.kind
  | host kind _ => kind
  | blankTag => "ValueError"

end Failure
end Phrasebook
