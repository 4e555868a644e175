import RowFormula.Rows.Store

/-! Why a variable cannot be resolved. -/

namespace RowFormula

/-- Why a variable cannot be resolved. -/
inductive ResolutionError where
  /-- The path has the wrong number of segments. -/
  | unknownPath (path : String)
  /-- The path leads to an entity that has no relationship with the bound row's entity. -/
  | unknownEntity (path entity source : String)
  | unknownProperty (entity property : String)
  /-- Several rows are related and no function reduces their values. -/
  | multipleValues (path : String)
  | unsupportedAggregator (name : String)
  /-- The function's name is reserved. -/
  | notImplemented (name : String)
  /-- The path starts with a reserved name. -/
  | unsupportedNamespace (name : String)
  | store (cause : StoreError)
  deriving Repr, DecidableEq

def ResolutionError.message : ResolutionError → String
  | unknownPath path => "Variable '" ++ path ++ "' is not a valid path"
  | unknownEntity path entity source =>
    "Entity '" ++ entity ++ "' is neither '" ++ source ++ "' nor related to it (variable '"
      ++ path ++ "')"
  | unknownProperty entity property =>
    "Property '" ++ property ++ "' does not exist on entity '" ++ entity ++ "'"
  | multipleValues path =>
    "Variable '" ++ path ++ "' has multiple values but no custom function was specified"
  | unsupportedAggregator name => "Custom function '" ++ name ++ "' is not supported"
  | notImplemented name => "Custom function '" ++ name ++ "' is not implemented yet"
  | unsupportedNamespace name => "Variables of type '" ++ name ++ "' are not supported yet"
  | store cause => cause.message

end RowFormula
