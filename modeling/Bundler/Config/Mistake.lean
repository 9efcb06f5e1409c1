import Bundler.Text.Pieces

/-!
# Mistakes in a configuration

A configuration that does not fit its form has one or more mistakes, each at a place. They are
reported together, in the order of the form.
-/

namespace Bundler

/-- A step to a place in a value. -/
inductive Step
  | field (name : String)
  | item (index : Nat)
  deriving DecidableEq, Repr

/-- What is wrong with a value. -/
inductive Wrong
  | missing
  | notString
  | notTable
  | notList
  | notPath
  | notCallable
  | notRecord (name : String)
  | refused (reason : String)
  deriving DecidableEq, Repr

def Wrong.kind : Wrong → String
  | .missing => "missing"
  | .notString => "string_type"
  | .notTable => "dict_type"
  | .notList => "list_type"
  | .notPath => "path_type"
  | .notCallable => "callable_type"
  | .notRecord _ => "model_type"
  | .refused _ => "value_error"

def Wrong.message : Wrong → String
  | .missing => "Field required"
  | .notString => "Input should be a valid string"
  | .notTable => "Input should be a valid dictionary"
  | .notList => "Input should be a valid list"
  | .notPath => "Input is not a valid path for <class 'pathlib.Path'>"
  | .notCallable => "Input should be callable"
  | .notRecord name => s!"Input should be a valid dictionary or instance of {name}"
  | .refused reason => s!"Value error, {reason}"

structure Mistake where
  place : List Step
  wrong : Wrong
  deriving DecidableEq, Repr

def mistakesHeading (record : String) (mistakes : List Mistake) : String :=
  let plural := if mistakes.length = 1 then "" else "s"
  s!"{mistakes.length} validation error{plural} for {record}"

end Bundler
