import Bundler.Regex.Parse
import Bundler.Text.Case
import Bundler.Text.Word

/-!
# Searching with regular expressions

`search` says whether a pattern matches anywhere in a text. Expressions are tried with what has to
match after them as a continuation; the first way that leads to a match counts.
-/

namespace Bundler.Regex

/-- A place in a text: the characters before it, nearest first, those after it, and the pieces matched
by groups so far. -/
structure Point where
  before : List Char
  after : List Char
  groups : List (Nat × List Char) := []

def Point.left (point : Point) : Nat := point.after.length

/-- Moves over one character of a kind. -/
def Point.step? (point : Point) (wanted : Char → Bool) : Option Point :=
  match point.after with
  | c :: rest =>
    if wanted c then some { point with before := c :: point.before, after := rest } else none
  | [] => none

/-- Moves back over so many characters. -/
def Point.back? : Nat → Point → Option Point
  | 0, point => some point
  | count + 1, point =>
    match point.before with
    | c :: before => Point.back? count { point with before := before, after := c :: point.after }
    | [] => none

/-- The code points that count as this one. -/
def variants (flags : Flags) (code : Nat) : List Nat :=
  if !flags.ignoreCase then [code]
  else if flags.ascii then
    let c := Char.ofNat code
    if code < 128 then [c.toLower.toNat, c.toUpper.toNat] else [code]
  else Text.caseVariants code

def Category.has (flags : Flags) (c : Char) : Category → Bool
  | .digit => if flags.ascii then c.isDigit else Text.isDecimalDigit c
  | .space => if flags.ascii then isPatternBlank c else Text.isBlank c
  | .word =>
    if flags.ascii then c.isAlphanum || c == '_' else Text.isWordChar c

def SetItem.has (flags : Flags) (c : Char) : SetItem → Bool
  | .literal code => (variants flags c.toNat).contains code
  | .range first last => (variants flags c.toNat).any fun code => first ≤ code && code ≤ last
  | .category kind negated => kind.has flags c != negated

/-- The character before or after a place belongs to a word. -/
def isWordAt (flags : Flags) (c : Option Char) : Bool :=
  match c with
  | some c => Category.word.has flags c
  | none => false

def Place.holds (flags : Flags) (point : Point) : Place → Bool
  | .textStart => point.before.isEmpty
  | .lineStart =>
    point.before.isEmpty || (flags.multiline && point.before.head? == some '\n')
  | .textEnd => point.after.isEmpty
  | .lineEnd =>
    point.after.isEmpty || point.after == ['\n'] ||
      (flags.multiline && point.after.head? == some '\n')
  | .boundary =>
    isWordAt flags point.before.head? != isWordAt flags point.after.head?
  | .noBoundary =>
    !(point.before.isEmpty && point.after.isEmpty) &&
      isWordAt flags point.before.head? == isWordAt flags point.after.head?

/-- What has to match after an expression. -/
abbrev Continuation := Point → Option Point

/-- Exactly so many rounds. A round that matches nothing stands for all that are left. -/
def roundsExactly (body : Continuation → Point → Option Point) (next : Continuation) :
    Nat → Point → Option Point
  | 0, point => next point
  | count + 1, point =>
    body (fun later =>
      if later.left = point.left then next later else roundsExactly body next count later) point

/-- Up to so many rounds, many first. The second number bounds them by the characters left. -/
def roundsGreedy (body : Continuation → Point → Option Point) (next : Continuation) :
    Nat → Option Nat → Point → Option Point
  | 0, _, point => next point
  | _ + 1, some 0, point => next point
  | fuel + 1, most, point =>
    (body (fun later =>
      if later.left = point.left then next later
      else roundsGreedy body next fuel (most.map (· - 1)) later) point).orElse fun _ => next point

/-- Up to so many rounds, few first. -/
def roundsLazy (body : Continuation → Point → Option Point) (next : Continuation) :
    Nat → Option Nat → Point → Option Point
  | 0, _, point => next point
  | _ + 1, some 0, point => next point
  | fuel + 1, most, point =>
    (next point).orElse fun _ =>
      body (fun later =>
        if later.left = point.left then next later
        else roundsLazy body next fuel (most.map (· - 1)) later) point

/-- Rounds that are never given back. -/
def roundsPossessive (body : Continuation → Point → Option Point) :
    Nat → Option Nat → Point → Point
  | 0, _, point => point
  | _ + 1, some 0, point => point
  | fuel + 1, most, point =>
    match body some point with
    | some later =>
      if later.left = point.left then later
      else roundsPossessive body fuel (most.map (· - 1)) later
    | none => point

/-- The rounds of a repetition from the place where it starts. -/
def roundsOf (greed : Greed) (least : Nat) (most : Option Nat)
    (body : Continuation → Point → Option Point) (next : Continuation) (point : Point) :
    Option Point :=
  let more := most.map (· - least)
  match greed with
  | .greedy =>
    roundsExactly body (fun later => roundsGreedy body next (later.left + 1) more later) least point
  | .lazy =>
    roundsExactly body (fun later => roundsLazy body next (later.left + 1) more later) least point
  | .possessive =>
    (roundsExactly body some least point).bind fun later =>
      next (roundsPossessive body (later.left + 1) more later)

/-- The text ahead starts with a piece, letter case apart if the switches say so. -/
def readPiece (flags : Flags) : List Char → Point → Option Point
  | [], point => some point
  | c :: rest, point =>
    (point.step? fun d => (variants flags c.toNat).contains d.toNat).bind (readPiece flags rest)

mutual

/-- Matches one expression and then what comes after it. -/
def Expr.tryAt (flags : Flags) : Expr → Continuation → Point → Option Point
  | .literal code negated, next, point =>
    (point.step? fun c => (variants flags c.toNat).contains code != negated).bind next
  | .any, next, point => (point.step? fun c => flags.dotAll || c != '\n').bind next
  | .set negated items, next, point =>
    (point.step? fun c => items.any (·.has flags c) != negated).bind next
  | .place place, next, point => if place.holds flags point then next point else none
  | .choice branches, next, point => tryBranches flags branches next point
  | .group number on off body, next, point =>
    trySequence (flags.inGroup on off) body
      (fun later =>
        match number with
        | some number =>
          let piece := point.after.take (point.left - later.left)
          next { later with groups := (number, piece) :: later.groups }
        | none => next later) point
  | .atomic body, next, point => (trySequence flags body some point).bind next
  | .repetition greed least most body, next, point =>
    roundsOf greed least most (trySequence flags body) next point
  | .look behind negated body, next, point =>
    let start := if behind then point.back? (widthOf (fun number =>
        let width := ((point.groups.lookup number).map List.length).getD 0
        (width, width)) body).1 else some point
    match start.bind (trySequence flags body some) with
    | some found => if negated then none else next { point with groups := found.groups }
    | none => if negated then next point else none
  | .reference number, next, point =>
    match point.groups.lookup number with
    | some piece => (readPiece flags piece point).bind next
    | none => none
  | .condition number yes no, next, point =>
    if (point.groups.lookup number).isSome then trySequence flags yes next point
    else
      match no with
      | some no => trySequence flags no next point
      | none => next point

/-- Matches a sequence and then what comes after it. -/
def trySequence (flags : Flags) : List Expr → Continuation → Point → Option Point
  | [], next, point => next point
  | expr :: rest, next, point => expr.tryAt flags (trySequence flags rest next) point

/-- Matches the first branch that leads to a match. -/
def tryBranches (flags : Flags) : List (List Expr) → Continuation → Point → Option Point
  | [], _, _ => none
  | branch :: rest, next, point =>
    (trySequence flags branch next point).orElse fun _ => tryBranches flags rest next point

end

/-- The pattern matches at a place of a text or after it. -/
def searchFrom (pattern : Pattern) (before : List Char) : List Char → Bool
  | [] => (trySequence pattern.flags pattern.body some ⟨before, [], []⟩).isSome
  | c :: rest =>
    (trySequence pattern.flags pattern.body some ⟨before, c :: rest, []⟩).isSome ||
      searchFrom pattern (c :: before) rest

def search (pattern : Pattern) (text : String) : Bool := searchFrom pattern [] text.toList

end Bundler.Regex
