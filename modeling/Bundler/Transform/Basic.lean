import Bundler.Attempt
import Bundler.Regex.Parse

/-!
# Transforms

A transform turns one text into another. It may change a memory of its own, raise something, or give
something that is no text. A chain of transforms is written like a composition of functions: the last
one sees the text first.
-/

namespace Bundler

/-- Something raised by code outside the bundler: its kind, its text, and its text as quoted by
others. -/
structure Raised where
  kind : String
  message : String
  shown : String := message
  deriving DecidableEq, Repr

/-- What calling a transform gives: a text, or something of another type. -/
inductive Outcome
  | text (text : String)
  | other (typeName : String)
  deriving DecidableEq, Repr

/-- A transform with the name that messages call it by. -/
structure Transform (ω : Type) where
  name : String
  run : String → Attempt ω Raised Outcome

namespace Transform

variable {ω : Type}

/-- A transform without a memory. -/
def ofResult (name : String) (f : String → Except Raised Outcome) : Transform ω :=
  ⟨name, fun text => Attempt.ofExcept (f text)⟩

def ofFunction (name : String) (f : String → String) : Transform ω :=
  ofResult name fun text => .ok (.text (f text))

def notText (name typeName : String) : Raised :=
  let message := s!"Transform {name} returned {typeName}, expected str"
  ⟨"TypeError", message, message⟩

def apply (transform : Transform ω) (text : String) : Attempt ω Raised String := do
  match ← transform.run text with
  | .text result => return result
  | .other typeName => throw (notText transform.name typeName)

end Transform

/-- Applies a chain, the last transform first. -/
def applyChain {ω : Type} : List (Transform ω) → String → Attempt ω Raised String
  | [], text => pure text
  | transform :: rest, text => do transform.apply (← applyChain rest text)

/-- How a rule names a transform: the transform itself, or a text that stands for one. -/
inductive TransformRef (ω : Type)
  | direct (transform : Transform ω)
  | named (reference : String)

/-- A loader rule: files whose path holds a match of the pattern go through the chain. -/
structure Rule (τ : Type) where
  test : String
  pattern : Regex.Pattern
  use : List τ

end Bundler
