import Bundler.Proofs.Load.Exchange
import Bundler.Proofs.Source.Gaps

/-!
# The shape of a retargeted module

A tree whose leaves are the tokens of a text is not crowded (`check_crowded?`): something stands between
two names side by side. Exchanging load calls mixes no text with bytes (`check_mixed?_exchangedAmong`).

A text is accepted if it is a module of the language and no literal in it puts text and bytes together. Where no
token holds bytes, there is nothing to put together (`check_mixed?_of_text`).
-/

namespace Bundler.Load

open Grammar Source Shape

variable {naming : Naming} {directory : String}

theorem check_eq_ok_iff {test : Node → List Tree → Option ShapeFault} {trees : List Tree} :
    check test trees = .ok () ↔ faultAmong? test trees = none := by
  rw [check]
  split
  next hfault => simp [hfault]
  next hfault => simp [hfault]

/-! ### Gaps -/

theorem not_startsWithName {token : Token} {tree : Tree} {rest : List Tree}
    (hname : token.kind = .name) (h : (leavesOf (.leaf token :: tree :: rest)).IsChain Token.Parted) :
    startsWithName tree = false := by
  rw [leavesOf, Tree.leaves, leavesOf, List.singleton_append, List.isChain_cons] at h
  rw [Bool.eq_false_iff]
  intro hstarts
  rw [startsWithName] at hstarts
  split at hstarts
  next later more hleaves =>
    rw [Bool.and_eq_true, Bool.and_eq_true, decide_eq_true_eq, List.isEmpty_iff] at hstarts
    exact h.1 later (by rw [hleaves]; rfl) hname hstarts.1.1 hstarts.1.2
  · cases hstarts

theorem missingGap?_eq_none (node : Node) (first : Bool) (trees : List Tree)
    (h : (leavesOf trees).IsChain Token.Parted) : missingGap? node first trees = none := by
  have htail : ∀ {tree : Tree} {rest : List Tree}, (leavesOf (tree :: rest)).IsChain Token.Parted →
      (leavesOf rest).IsChain Token.Parted := by
    intro tree rest h
    rw [leavesOf] at h
    exact (List.isChain_append.1 h).2.1
  fun_induction missingGap? node first trees with
  | case1 first token next rest hstarts ih =>
    rw [Bool.and_eq_true, decide_eq_true_eq] at hstarts
    rw [not_startsWithName hstarts.1 h] at hstarts
    cases hstarts.2
  | case2 first token next rest hstarts ih => exact ih (htail h)
  | case3 first tree rest hnot ih => exact ih (htail h)
  | case4 => rfl

mutual

theorem faultIn?_crowded? (tree : Tree) (h : tree.leaves.IsChain Token.Parted) :
    faultIn? crowded? tree = none := by
  cases tree with
  | leaf token => rfl
  | node kind children =>
    rw [Tree.leaves] at h
    rw [faultIn?, faultAmong?_crowded? children h, Option.none_or, crowded?,
      missingGap?_eq_none kind true children h]
    rfl

theorem faultAmong?_crowded? (trees : List Tree) (h : (leavesOf trees).IsChain Token.Parted) :
    faultAmong? crowded? trees = none := by
  cases trees with
  | nil => rfl
  | cons tree rest =>
    rw [leavesOf, List.isChain_append] at h
    rw [faultAmong?, faultIn?_crowded? tree h.1, faultAmong?_crowded? rest h.2.1]
    rfl

end

/-- A tree of the tokens of a text is not crowded. -/
theorem check_crowded? {trees : List Tree} {chars : List Char} (h : tokens chars = .ok (leavesOf trees)) :
    check crowded? trees = .ok () :=
  check_eq_ok_iff.2 (faultAmong?_crowded? trees (parted_of_tokens h))

/-! ### Text and bytes -/

theorem isBytes_exchanged (tree : Tree) : isBytes (exchanged naming directory tree) = isBytes tree := by
  cases tree with
  | leaf token => rw [exchanged]
  | node kind children =>
    rw [exchanged]
    split <;> rfl

theorem exchangedAmong_eq_map (trees : List Tree) :
    exchangedAmong naming directory trees = trees.map (exchanged naming directory) := by
  induction trees with
  | nil => rw [exchangedAmong, List.map_nil]
  | cons tree rest ih => rw [exchangedAmong, ih, List.map_cons]

theorem isUniform_exchangedAmong (trees : List Tree) :
    isUniform (exchangedAmong naming directory trees) = isUniform trees := by
  simp [isUniform, exchangedAmong_eq_map, List.all_map, Function.comp_def, isBytes_exchanged]

theorem faultIn?_replace (tree : Tree) (kind : TokenKind) (text : List Char) :
    faultIn? mixed? (replace tree kind text) = none := by
  obtain ⟨token, htoken, -⟩ := exists_replace tree kind text
  rw [htoken, faultIn?]

theorem faultAmong?_map_replaceValue {rest : List Tree} {text : List Char}
    (h : faultAmong? mixed? rest = none) : faultAmong? mixed? (rest.map (replaceValue text)) = none := by
  induction rest with
  | nil => rfl
  | cons tree rest ih =>
    rw [faultAmong?, Option.or_eq_none_iff] at h
    rw [List.map_cons, faultAmong?, ih h.2, Option.or_none]
    unfold replaceValue
    split
    · rw [faultIn?, faultAmong?, faultAmong?, faultIn?_replace]
      rfl
    · exact h.1

mutual

theorem faultIn?_exchanged (tree : Tree) (h : faultIn? mixed? tree = none) :
    faultIn? mixed? (exchanged naming directory tree) = none := by
  match tree, h with
  | .leaf token, h =>
    rw [exchanged]
    exact h
  | .node kind children, h =>
    rw [faultIn?, Option.or_eq_none_iff] at h
    rw [exchanged]
    split
    next callee rest hcall =>
      obtain ⟨rfl, rfl, -⟩ := callOf?_eq_some hcall
      rw [faultAmong?, Option.or_eq_none_iff] at h
      rw [faultIn?, faultAmong?, faultIn?_replace, faultAmong?_map_replaceValue h.1.2]
      rfl
    · rw [faultIn?, faultAmong?_exchangedAmong children h.1, Option.none_or, mixed?,
        isUniform_exchangedAmong]
      exact h.2

theorem faultAmong?_exchangedAmong (trees : List Tree) (h : faultAmong? mixed? trees = none) :
    faultAmong? mixed? (exchangedAmong naming directory trees) = none := by
  match trees, h with
  | [], _ =>
    rw [exchangedAmong]
    rfl
  | tree :: rest, h =>
    rw [faultAmong?, Option.or_eq_none_iff] at h
    rw [exchangedAmong, faultAmong?, faultIn?_exchanged tree h.1, faultAmong?_exchangedAmong rest h.2]
    rfl

end

/-- Exchanging load calls puts no text beside bytes. -/
theorem check_mixed?_exchangedAmong {trees : List Tree} (h : check mixed? trees = .ok ()) :
    check mixed? (exchangedAmong naming directory trees) = .ok () :=
  check_eq_ok_iff.2 (faultAmong?_exchangedAmong trees (check_eq_ok_iff.1 h))

/-! ### Accepted texts -/

/-- The text is this module, and no literal in it puts text and bytes together. -/
structure Accepts (text : List Char) (module : Module) : Prop where
  read : read text = some module
  unmixed : check mixed? module = .ok ()

/-! ### Tokens without bytes -/

/-- The token does not hold bytes. -/
def IsText (token : Token) : Prop := isBytes (.leaf token) = false

instance (token : Token) : Decidable (IsText token) := inferInstanceAs (Decidable (_ = _))

theorem isText_of_quotes {token : Token} (h : ∀ c ∈ token.text, c ≠ '"' ∧ c ≠ '\'') : IsText token := by
  have hparts : stringParts? token.text = none := by
    rw [stringParts?, Option.bind_eq_bind, Option.bind_eq_none_iff]
    rintro ⟨letters, rest⟩ hprefix
    obtain ⟨quote, more, rfl, hquote⟩ := exists_quote_of_stringPrefix? hprefix
    have hmem : quote ∈ token.text := by
      rw [← append_of_stringPrefix? hprefix]
      simp
    obtain ⟨hdouble, hsingle⟩ := h quote hmem
    rcases hquote with rfl | rfl
    · exact absurd rfl hdouble
    · exact absurd rfl hsingle
  rw [IsText, isBytes, hparts]
  rfl

theorem isText_of_isIdentifier {token : Token} (h : Text.isIdentifier token.text = true) : IsText token := by
  refine isText_of_quotes fun c hc => ?_
  obtain ⟨-, hparts⟩ := isNamePart_of_isIdentifier h
  constructor
  all_goals
    rintro rfl
    exact absurd (hparts _ hc) (by decide)

theorem isText_of_quoted {token : Token} {text : List Char} (h : token.text = Text.quoted text) : IsText token := by
  rw [IsText, isBytes, h, stringParts?_quoted]
  rfl

theorem mem_leavesOf {trees : List Tree} {token : Token} (h : .leaf token ∈ trees) : token ∈ leavesOf trees := by
  obtain ⟨before, after, rfl⟩ := List.append_of_mem h
  simp [leavesOf_append, leavesOf, Tree.leaves]

mutual

theorem faultIn?_of_text (tree : Tree) (h : ∀ token ∈ tree.leaves, IsText token) :
    faultIn? mixed? tree = none := by
  cases tree with
  | leaf token => rfl
  | node kind children =>
    have huniform : isUniform children = true := by
      rw [isUniform, Bool.or_eq_true, List.all_eq_true, List.all_eq_true]
      refine .inr fun child hchild => ?_
      cases child with
      | leaf token =>
        have htext : isBytes (.leaf token) = false := h token (mem_leavesOf hchild)
        simpa using htext
      | node kind parts => rfl
    rw [faultIn?, faultAmong?_of_text children h, mixed?, huniform]
    simp

theorem faultAmong?_of_text (trees : List Tree) (h : ∀ token ∈ leavesOf trees, IsText token) :
    faultAmong? mixed? trees = none := by
  cases trees with
  | nil => rfl
  | cons tree rest =>
    rw [leavesOf, List.forall_mem_append] at h
    rw [faultAmong?, faultIn?_of_text tree h.1, faultAmong?_of_text rest h.2]
    rfl

end

theorem check_mixed?_of_text {trees : List Tree} (h : ∀ token ∈ leavesOf trees, IsText token) :
    check mixed? trees = .ok () := check_eq_ok_iff.2 (faultAmong?_of_text trees h)

end Bundler.Load
