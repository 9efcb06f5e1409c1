import Bundler.Proofs.Grammar.Standing
import Bundler.Proofs.Source.Lines

/-!
# Tables

A statement gives a name to a table from strings to names, with a comma behind every line of it. It is read
whatever the strings and the names are (`stands_assignment`): line by line, then as the value of an assignment.
-/

namespace Bundler.Grammar

open Bundler.Source (Token TokenKind mark lineMark)

variable {rest : List Token} {token target : Token} {pair : Token × Token} {pairs : List (Token × Token)}

/-- An operator or a delimiter, with nothing before it. -/
def sign (text : String) : Token := ⟨.operator, [], [], text.toList⟩

def itemTokens (pair : Token × Token) : List Token := [pair.1, sign ":", pair.2, sign ","]

def tableTokens (pairs : List (Token × Token)) : List Token :=
  sign "\x7b" :: (pairs.flatMap itemTokens ++ [sign "\x7d"])

/-- A string and a name stand in the line. -/
def IsItem (pair : Token × Token) : Prop := pair.1.kind = .string ∧ Token.IsName pair.2

/-! ### Names and strings -/

theorem Token.IsName.holds (h : Token.IsName token) : Test.identifier.holds token = true := by
  rw [Test.holds, h.1, Bool.and_eq_true, Bool.not_eq_true', Bool.eq_false_iff, ne_eq, List.contains_iff_mem]
  exact ⟨rfl, h.2.2⟩

theorem takes_name (h : Token.IsName token) (rest : List Token) :
    Rule.Takes .atom (token :: rest) (.leaf token) rest :=
  .unnamed (.left (.token h.holds) _)

theorem Token.IsName.misses (h : Token.IsName token) {tests : List Test} (htests : tests.all Test.unnamed = true) :
    ∀ test ∈ tests, test.holds token = false :=
  fun test htest => h.unnamed (List.all_eq_true.1 htests test htest)

set_option maxRecDepth 20000 in
theorem takes_key (hkind : token.kind = .string) (rest : List Token) :
    Rule.Takes .expression (token :: sign ":" :: rest) (.leaf token) (sign ":" :: rest) := by
  have hpasses : Token.Passes token [.kind token.kind] := Token.passes_kind (by simp [hkind])
  rw [hkind] at hpasses
  exact takes_operand (takes_string hkind (by decide)) rfl
    (fun test htest => hpasses.misses test (by revert test; decide)) (by decide) .expression (by simp [operands])

set_option maxRecDepth 20000 in
theorem takes_value (h : Token.IsName token) (rest : List Token) :
    Rule.Takes .expression (token :: sign "," :: rest) (.leaf token) (sign "," :: rest) :=
  takes_operand (takes_name h _) rfl (h.misses (by decide)) (by decide) .expression (by simp [operands])

/-! ### Lines -/

theorem isSign_opening : Token.IsSign "\x7b" (sign "\x7b") := ⟨rfl, rfl⟩

theorem isSign_closing : Token.IsSign "\x7d" (sign "\x7d") := ⟨rfl, rfl⟩

theorem ends_colon (rest : List Token) :
    Ends Rule.pattern (Rule.tok ":") (sign ":" :: rest) (.matched [.leaf (sign ":")] none rest) :=
  .token (by decide)

theorem ends_comma (rest : List Token) :
    Ends Rule.pattern Rule.comma (sign "," :: rest) (.matched [.leaf (sign ",")] none rest) :=
  .token (by decide)

set_option maxRecDepth 20000 in
theorem ends_item (h : IsItem pair) (rest : List Token) :
    Ends Rule.pattern (.rule .dictItem) (itemTokens pair ++ rest)
      (.matched [.leaf pair.1, .leaf (sign ":"), .leaf pair.2] none (sign "," :: rest)) := by
  have hpasses : Token.Passes pair.1 [.kind pair.1.kind] := Token.passes_kind (by simp [h.1])
  rw [h.1] at hpasses
  have hstars : Ends Rule.pattern (Rule.tok "**" ++ Rule.ref .bitwiseOr) (itemTokens pair ++ rest) .failed :=
    .fails rfl hpasses rfl
  exact .unnamed (hstars.right (((takes_key h.1 _).seq (ends_colon _)).seq (takes_value h.2 _)))

/-- The parts of the further lines, with the comma before each of them. -/
def furtherParts (pairs : List (Token × Token)) : List Tree :=
  pairs.flatMap fun pair => [.leaf (sign ","), .leaf pair.1, .leaf (sign ":"), .leaf pair.2]

set_option maxRecDepth 20000 in
theorem ends_further (hpairs : ∀ pair ∈ pairs, IsItem pair) (rest : List Token) :
    Ends Rule.pattern (Rule.furtherItems (Rule.ref .dictItem))
      (sign "," :: (pairs.flatMap itemTokens ++ sign "\x7d" :: rest))
      (.matched (furtherParts pairs ++ [.leaf (sign ",")]) none (sign "\x7d" :: rest)) := by
  have hmany : Ends Rule.pattern (.many (Rule.comma ++ Rule.ref .dictItem))
      (sign "," :: (pairs.flatMap itemTokens ++ sign "\x7d" :: rest))
      (.matched (furtherParts pairs) none (sign "," :: sign "\x7d" :: rest)) := by
    induction pairs with
    | nil => exact .stop ((ends_comma _).seq_failed_behind (.fails rfl isSign_closing.passes rfl))
    | cons pair pairs ih =>
      rw [List.forall_mem_cons] at hpairs
      rw [List.flatMap_cons, List.append_assoc]
      exact ((ends_comma _).seq (ends_item hpairs.1 _)).again (by simp [itemTokens]) (ih hpairs.2)
  exact hmany.seq ((ends_comma _).left _)

/-! ### The table -/

def tableParts : List (Token × Token) → List Tree
  | [] => [.leaf (sign "\x7b"), .leaf (sign "\x7d")]
  | pair :: pairs => .leaf (sign "\x7b") :: .leaf pair.1 :: .leaf (sign ":") :: .leaf pair.2
      :: (furtherParts pairs ++ [.leaf (sign ","), .leaf (sign "\x7d")])

theorem ends_opening (rest : List Token) :
    Ends Rule.pattern (Rule.tok "\x7b") (sign "\x7b" :: rest) (.matched [.leaf (sign "\x7b")] none rest) :=
  .token (by decide)

theorem ends_closing (rest : List Token) :
    Ends Rule.pattern (Rule.tok "\x7d") (sign "\x7d" :: rest) (.matched [.leaf (sign "\x7d")] none rest) :=
  .token (by decide)

set_option maxRecDepth 20000 in
theorem ends_braced (hpairs : ∀ pair ∈ pairs, IsItem pair) (rest : List Token) :
    Ends Rule.pattern (Rule.pattern .braced) (tableTokens pairs ++ rest)
      (.matched (tableParts pairs) (some .dict) rest) := by
  cases pairs with
  | nil => exact (ends_opening _).seq (.left ((ends_closing _).seq (.label .dict)) _)
  | cons pair pairs =>
    rw [List.forall_mem_cons] at hpairs
    have hpasses : Token.Passes pair.1 [.kind pair.1.kind] := Token.passes_kind (by simp [hpairs.1.1])
    rw [hpairs.1.1] at hpasses
    have hnot : ∀ {pattern : Pattern Rule} {tokens : List Token}, pattern.refuses [.kind .string] = true →
        Ends Rule.pattern pattern (pair.1 :: tokens) .failed := fun h => .fails h hpasses rfl
    have hcomma : Token.IsSign "," (sign ",") := ⟨rfl, rfl⟩
    have hvalue := takes_value hpairs.1.2 (pairs.flatMap itemTokens ++ sign "\x7d" :: rest)
    have hfurther := ends_further hpairs.2 rest
    have hitems : Ends Rule.pattern (Rule.ref .comprehensionClauses ++ Rule.tok "\x7d" ++ .label .dictComprehension
        <|> Rule.furtherItems (Rule.ref .dictItem) ++ Rule.tok "\x7d" ++ .label .dict)
        (sign "," :: (pairs.flatMap itemTokens ++ sign "\x7d" :: rest))
        (.matched (furtherParts pairs ++ [.leaf (sign ",")] ++ [.leaf (sign "\x7d")] ++ []) (some .dict) rest) :=
      .right (.fails rfl hcomma.passes rfl) ((hfurther.seq (ends_closing rest)).seq (.label .dict))
    have hrest := (takes_key hpairs.1.1 _).seq (.left (((ends_colon _).seq hvalue).seq hitems)
      (Rule.ref .comprehensionClauses ++ Rule.tok "\x7d" ++ .label .setComprehension
        <|> Rule.furtherItems (Rule.ref .starNamedExpression) ++ Rule.tok "\x7d" ++ .label .set))
    have htokens : tableTokens (pair :: pairs) ++ rest = sign "\x7b" :: pair.1 :: sign ":" :: pair.2 :: sign ","
        :: (pairs.flatMap itemTokens ++ sign "\x7d" :: rest) := by
      simp [tableTokens, itemTokens]
    have hparts : tableParts (pair :: pairs) = [.leaf (sign "\x7b")] ++ ([.leaf pair.1]
        ++ ([.leaf (sign ":")] ++ [.leaf pair.2]
          ++ (furtherParts pairs ++ [.leaf (sign ",")] ++ [.leaf (sign "\x7d")] ++ []))) := by
      simp [tableParts]
    rw [htokens, hparts]
    exact (ends_opening _).seq ((hnot rfl).right ((hnot rfl).right ((hnot rfl).right
      (.right (.seq_failed (.seq_failed (.peek_failed (hnot rfl)) _) _) hrest))))

set_option maxRecDepth 20000 in
/-- The table is read as a value, where the line ends behind it. -/
theorem takes_table (hpairs : ∀ pair ∈ pairs, IsItem pair) (rest : List Token) :
    ∀ rule ∈ operands, rule.Takes (tableTokens pairs ++ lineMark :: rest) (.node .dict (tableParts pairs))
      (lineMark :: rest) := by
  have hnot : ∀ {pattern : Pattern Rule}, pattern.refuses [.text "\x7b".toList, .kind .operator] = true →
      Ends Rule.pattern pattern (tableTokens pairs ++ lineMark :: rest) .failed :=
    fun h => .fails h isSign_opening.passes rfl
  have hrule : Rule.Takes .braced (tableTokens pairs ++ lineMark :: rest) (.node .dict (tableParts pairs))
      (lineMark :: rest) := (ends_braced hpairs (lineMark :: rest)).rule
  have hatom : Rule.Takes .atom (tableTokens pairs ++ lineMark :: rest) (.node .dict (tableParts pairs))
      (lineMark :: rest) :=
    .unnamed ((hnot rfl).right ((hnot rfl).right ((hnot rfl).right ((hnot rfl).right ((hnot rfl).right
      ((hnot rfl).right (hrule.left _)))))))
  exact takes_operand hatom rfl (by decide) (by decide)

/-! ### The assignment -/

/-- What a statement other than an assignment begins with. -/
def openingWords : List (List Char) :=
  ["@", "async", "def", "class", "if", "with", "for", "try", "while", "match", "return", "import", "from",
    "raise", "pass", "del", "assert", "break", "continue", "global", "nonlocal", "yield", "type"].map String.toList

theorem IsPlainName.misses_opening (h : IsPlainName target) :
    ∀ test ∈ openingWords.map Test.text, test.holds target = false := by
  have hknown : ∀ word ∈ openingWords, (Test.text word).isKnown = true := by decide
  rintro _ htest
  obtain ⟨word, hword, rfl⟩ := List.mem_map.1 htest
  rw [Test.holds, beq_eq_false_iff_ne.2 (h.2.ne_of_isKnown (hknown word hword)), Bool.and_false]

def assignmentTokens (target : Token) (pairs : List (Token × Token)) : List Token :=
  target :: sign "=" :: (tableTokens pairs ++ [lineMark])

theorem ends_equals (rest : List Token) :
    Ends Rule.pattern (Rule.tok "=") (sign "=" :: rest) (.matched [.leaf (sign "=")] none rest) :=
  .token (by decide)

theorem isSign_equals : Token.IsSign "=" (sign "=") := ⟨rfl, rfl⟩

/-- What is neither an attribute nor an element is no place. -/
theorem no_place {tokens : List Token} {value : Tree} (h : Rule.Takes .primary tokens value rest)
    (hvalue : ∀ kind ∈ [Node.attribute, .subscript], ∀ children, value ≠ .node kind children) :
    Ends Rule.pattern Rule.place tokens .failed :=
  h.only_other fun kind hkind children heq => hvalue kind hkind children (List.singleton_inj.1 heq)

set_option maxRecDepth 20000 in
theorem target_no_place (h : Token.IsName target) (rest : List Token) :
    Ends Rule.pattern Rule.place (target :: sign "=" :: rest) .failed :=
  no_place (takes_operand (takes_name h (sign "=" :: rest)) rfl (h.misses (by decide)) (by decide) .primary
    (by simp [operands])) nofun

set_option maxRecDepth 20000 in
theorem takes_target (h : Token.IsName target) (rest : List Token) :
    Rule.Takes .starTargets (target :: sign "=" :: rest) (.leaf target) (sign "=" :: rest) := by
  have hatom : Rule.Takes .starAtom (target :: sign "=" :: rest) (.leaf target) (sign "=" :: rest) :=
    .unnamed (.left (.token h.holds) _)
  have htarget : Rule.Takes .target (target :: sign "=" :: rest) (.leaf target) (sign "=" :: rest) :=
    .unnamed ((target_no_place h rest).right hatom)
  have hstars : ∀ test ∈ [Test.text ['*']], test.holds target = false := h.misses rfl
  have hstar : Ends Rule.pattern (Rule.tok "*" ++ .absent (Rule.tok "*") ++ Rule.ref .starTarget)
      (target :: sign "=" :: rest) .failed :=
    .seq_failed (.seq_failed (.fails_at rfl hstars rfl) _) _
  have hitem : Rule.Takes .starTarget (target :: sign "=" :: rest) (.leaf target) (sign "=" :: rest) :=
    .unnamed (hstar.right htarget)
  exact .unnamed (hitem.without (.fails rfl isSign_equals.passes rfl))

set_option maxRecDepth 20000 in
theorem table_no_target (hpairs : ∀ pair ∈ pairs, IsItem pair) (rest : List Token) :
    Ends Rule.pattern (.rule .starTargets) (tableTokens pairs ++ lineMark :: rest) .failed := by
  have htakes := takes_table hpairs rest
  have hnot : ∀ {pattern : Pattern Rule}, pattern.refuses [.text "\x7b".toList, .kind .operator] = true →
      Ends Rule.pattern pattern (tableTokens pairs ++ lineMark :: rest) .failed :=
    fun h => .fails h isSign_opening.passes rfl
  have hplace := no_place (htakes .primary (by simp [operands])) (by simp)
  have htarget : Ends Rule.pattern (.rule .target) (tableTokens pairs ++ lineMark :: rest) .failed :=
    .rule_failed (hplace.right (hnot rfl))
  exact .rule_failed (.seq_failed (.rule_failed ((hnot rfl).right htarget)) _)

set_option maxRecDepth 20000 in
theorem ends_assignment (htarget : Token.IsName target) (hpairs : ∀ pair ∈ pairs, IsItem pair)
    (rest : List Token) : Ends Rule.pattern (.rule .assignment)
      (target :: sign "=" :: (tableTokens pairs ++ lineMark :: rest))
      (.matched [.leaf target, .leaf (sign "="), .node .dict (tableParts pairs)] none (lineMark :: rest)) := by
  have htakes := takes_table hpairs rest
  have hnot : ∀ {pattern : Pattern Rule}, pattern.refuses [.text "\x7b".toList, .kind .operator] = true →
      Ends Rule.pattern pattern (tableTokens pairs ++ lineMark :: rest) .failed :=
    fun h => .fails h isSign_opening.passes rfl
  have hend : ∀ {pattern : Pattern Rule}, pattern.refuses [.kind .newline] = true →
      Ends Rule.pattern pattern (lineMark :: rest) .failed :=
    fun h => .fails h (Token.passes_kind (by decide)) rfl
  have hcolon : Ends Rule.pattern (Rule.tok ":") (sign "=" :: (tableTokens pairs ++ lineMark :: rest)) .failed :=
    .fails rfl isSign_equals.passes rfl
  have hname : Ends Rule.pattern Rule.name (target :: sign "=" :: (tableTokens pairs ++ lineMark :: rest))
      (.matched [.leaf target] none (sign "=" :: (tableTokens pairs ++ lineMark :: rest))) := .token htarget.holds
  have hstar : Rule.Takes .starExpression (tableTokens pairs ++ lineMark :: rest) (.node .dict (tableParts pairs))
      (lineMark :: rest) := .unnamed ((hnot rfl).right (htakes .expression (by simp [operands])))
  have hvalue : Rule.Takes .assignedValue (tableTokens pairs ++ lineMark :: rest) (.node .dict (tableParts pairs))
      (lineMark :: rest) := .unnamed ((hnot rfl).right (.unnamed (hstar.without (hend rfl))))
  have htargets := ((takes_target htarget (tableTokens pairs ++ lineMark :: rest)).seq (ends_equals _)).seq
    (.stop ((table_no_target hpairs rest).seq_failed (Rule.tok "=")))
  exact .unnamed (.right (.seq_failed (.seq_failed (hname.seq_failed_behind hcolon) _) _)
    (.right (.seq_failed (.seq_failed (.seq_failed (target_no_place htarget _) _) _) _)
      (.left ((htargets.seq hvalue).seq (.absent (hend rfl))) _)))

set_option maxRecDepth 20000 in
theorem stands_assignment (htarget : IsPlainName target) (hpairs : ∀ pair ∈ pairs, IsItem pair) :
    Stands (assignmentTokens target pairs)
      [.leaf target, .leaf (sign "="), .node .dict (tableParts pairs), .leaf lineMark] := by
  have hmisses := htarget.misses_opening
  refine ⟨⟨target, rfl, htarget.isName.misses (by decide)⟩, fun rest _ => ?_⟩
  have hnot : ∀ {pattern : Pattern Rule}, pattern.beginsWith (openingWords.map Test.text) = true →
      Ends Rule.pattern pattern (target :: sign "=" :: (tableTokens pairs ++ lineMark :: rest)) .failed :=
    fun h => .fails_at h hmisses rfl
  have hend : ∀ {pattern : Pattern Rule}, pattern.refuses [.kind .newline] = true →
      Ends Rule.pattern pattern (lineMark :: rest) .failed :=
    fun h => .fails h (Token.passes_kind (by decide)) rfl
  have hassignment := ends_assignment htarget.isName hpairs rest
  have hsimple : Ends Rule.pattern (.rule .simpleStatement)
      (target :: sign "=" :: (tableTokens pairs ++ lineMark :: rest)) _ :=
    .unnamed ((hnot rfl).right ((hnot rfl).right ((hnot rfl).right ((hnot rfl).right ((hnot rfl).right
      ((hnot rfl).right ((hnot rfl).right ((hnot rfl).right ((hnot rfl).right ((hnot rfl).right
        ((hnot rfl).right ((hnot rfl).right (.left hassignment _)))))))))))))
  have hnewline : Ends Rule.pattern Rule.newline (lineMark :: rest) (.matched [.leaf lineMark] none rest) :=
    .token (by decide)
  have hline : Ends Rule.pattern (.rule .simpleStatements)
      (target :: sign "=" :: (tableTokens pairs ++ lineMark :: rest)) _ :=
    .unnamed (((hsimple.seq (.stop (hend rfl))).without (hend rfl)).seq hnewline)
  have htokens : assignmentTokens target pairs ++ rest
      = target :: sign "=" :: (tableTokens pairs ++ lineMark :: rest) := by simp [assignmentTokens]
  have hstatement : Ends Rule.pattern (Rule.pattern .statement)
      (target :: sign "=" :: (tableTokens pairs ++ lineMark :: rest)) (.matched _ (some .statement) rest) :=
    ((hnot rfl).right hline).seq (.label .statement)
  rw [htokens]
  exact hstatement.rule

end Bundler.Grammar
