/-!
# Failures

What stops a generation as a whole.  Ids are given by their texts and types by their names.
-/

namespace TypeSchema

inductive Failure where
  | unknownType (name : String)
  | unsupportedIndexKey (typeName key : String)
  | indexSignatureArity (typeName : String) (count : Nat)
  | missingSubtypes (name : String)
  | recursionLimit (name : String)
  | danglingType (id : String)
  | danglingSymbol (id : String)
  | danglingDeclaration (id : String)
  /-- A declaration is nested in itself, so that a walk through the children would never end. -/
  | endlessNesting (id : String)
  deriving DecidableEq

namespace Failure

def message : Failure → String
  | unknownType name => "type " ++ name ++ " not found"
  | unsupportedIndexKey typeName key =>
    "not supported: index signature on " ++ typeName ++ " keyed by `" ++ key ++
      "` (only string and number keys)"
  | indexSignatureArity typeName count =>
    "not supported: index signature on " ++ typeName ++ " with " ++ toString count ++
      " parameters (expected 1)"
  | missingSubtypes name => "abstract type " ++ name ++ " has no known subtypes"
  | recursionLimit name =>
    "type " ++ name ++ " nests too deeply; an unnamed type probably refers to itself"
  | danglingType id => "program graph references unknown type id `" ++ id ++ "`"
  | danglingSymbol id => "program graph references unknown symbol id `" ++ id ++ "`"
  | danglingDeclaration id => "program graph references unknown declaration id `" ++ id ++ "`"
  | endlessNesting id => "declaration `" ++ id ++ "` is nested in itself"

end Failure

end TypeSchema
