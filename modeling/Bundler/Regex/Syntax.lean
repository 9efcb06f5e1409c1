/-!
# Regular expressions

The expressions a rule's pattern is made of, and the numbers of characters they can match.
-/

namespace Bundler.Regex

/-- Switches that change what an expression matches. -/
structure Flags where
  ignoreCase : Bool := false
  multiline : Bool := false
  dotAll : Bool := false
  verbose : Bool := false
  ascii : Bool := false
  unicode : Bool := false
  template : Bool := false
  deriving DecidableEq, Repr

namespace Flags

def union (left right : Flags) : Flags :=
  { ignoreCase := left.ignoreCase || right.ignoreCase
    multiline := left.multiline || right.multiline
    dotAll := left.dotAll || right.dotAll
    verbose := left.verbose || right.verbose
    ascii := left.ascii || right.ascii
    unicode := left.unicode || right.unicode
    template := left.template || right.template }

def without (left right : Flags) : Flags :=
  { ignoreCase := left.ignoreCase && !right.ignoreCase
    multiline := left.multiline && !right.multiline
    dotAll := left.dotAll && !right.dotAll
    verbose := left.verbose && !right.verbose
    ascii := left.ascii && !right.ascii
    unicode := left.unicode && !right.unicode
    template := left.template && !right.template }

def common (left right : Flags) : Flags := left.without (left.without right)

def isEmpty (flags : Flags) : Bool := flags == {}

/-- The kind of text that classes are about is chosen. -/
def choosesText (flags : Flags) : Bool := flags.ascii || flags.unicode

/-- The switches inside a group that turns some on and some off. -/
def inGroup (flags on off : Flags) : Flags :=
  let base := if on.choosesText then { flags with ascii := false, unicode := false } else flags
  (base.union on).without off

end Flags

/-- A class of characters with a letter of its own. -/
inductive Category
  | digit
  | space
  | word
  deriving DecidableEq, Repr

/-- What a set of characters lists. -/
inductive SetItem
  | literal (code : Nat)
  | range (first last : Nat)
  | category (category : Category) (negated : Bool)
  deriving DecidableEq, Repr

/-- A condition on a place between characters. -/
inductive Place
  | lineStart
  | lineEnd
  | textStart
  | textEnd
  | boundary
  | noBoundary
  deriving DecidableEq, Repr

/-- How a repetition tries the numbers of rounds: many first, few first, or many and no others. -/
inductive Greed
  | greedy
  | lazy
  | possessive
  deriving DecidableEq, Repr

inductive Expr
  | literal (code : Nat) (negated : Bool)
  | any
  | set (negated : Bool) (items : List SetItem)
  | place (place : Place)
  | choice (branches : List (List Expr))
  | group (number : Option Nat) (on off : Flags) (body : List Expr)
  | atomic (body : List Expr)
  | repetition (greed : Greed) (least : Nat) (most : Option Nat) (body : List Expr)
  | look (behind negated : Bool) (body : List Expr)
  | reference (number : Nat)
  | condition (number : Nat) (yes : List Expr) (no : Option (List Expr))
  deriving Repr

/-- The greatest width that is told apart. -/
def maxWidth : Nat := Nat.pow 2 64

/-- The least and the greatest number of characters matched. -/
abbrev Width := Nat × Nat

/-- Both ends, none beyond the greatest width. -/
def Width.clamp (width : Width) : Width := (min width.1 maxWidth, min width.2 maxWidth)

mutual

def Expr.width (groups : Nat → Width) : Expr → Width
  | .literal .. | .any | .set .. => (1, 1)
  | .place _ | .look .. => (0, 0)
  | .choice branches => widestOf groups branches
  | .group _ _ _ body => widthOf groups body
  | .atomic body => widthOf groups body
  | .repetition _ least most body =>
    let (low, high) := widthOf groups body
    match most with
    | some most => (low * least, high * most)
    | none => (low * least, if high = 0 then 0 else maxWidth)
  | .reference number => groups number
  | .condition _ yes no =>
    let (low, high) := widthOf groups yes
    match no with
    | some no =>
      let (low', high') := widthOf groups no
      (min low low', max high high')
    | none => (0, high)

def widthOf (groups : Nat → Width) : List Expr → Width
  | [] => (0, 0)
  | expr :: rest =>
    let (low, high) := expr.width groups
    let (low', high') := widthOf groups rest
    Width.clamp (low + low', high + high')

def widestOf (groups : Nat → Width) : List (List Expr) → Width
  | [] => (maxWidth, 0)
  | branch :: rest =>
    let (low, high) := widthOf groups branch
    let (low', high') := widestOf groups rest
    (min low low', max high high')

end

end Bundler.Regex
