import Bundler.Proofs.Grammar.Signed
import Bundler.Proofs.Grammar.Statements
import Bundler.Proofs.Load.Again
import Bundler.Proofs.Load.Shapes
import Bundler.Proofs.Source.Dropped

/-!
# Load calls with parentheses around their literals

Retargeting takes the parentheses around the literal of a load call away. Where none stand around callees, the
text of the exchanged tree still has the tokens of this tree, and is read as this tree (`read_renewed`), unless
line breaks go with the parentheses in a text with lines that start with a backslash. So retargeting gives a text
that is accepted again (`exists_retargetText`), and retargeting that text changes nothing
(`retargetText_exchanged`).
-/

namespace Bundler.Load

open Grammar Source
open Relation (ReflTransGen)

variable {naming : Naming} {directory : String} {straight : Prop}

/-! ### One call -/

theorem encloses_of_bare {tree : Tree} {token : Token} (hsigned : tree.Signed)
    (hproper : ∀ leaf ∈ tree.leaves, Token.Proper leaf) (hbare : bare tree = .leaf token) :
    tree.Encloses token := by
  fun_induction bare tree with
  | case1 first inner last ih =>
    cases hsigned with
    | node _ _ hgroup _ hchildren =>
    obtain ⟨opening, middle, closing, heq, hopening, hclosing⟩ := hgroup rfl
    obtain ⟨rfl, heq⟩ := List.cons.inj heq
    obtain ⟨rfl, rfl⟩ : middle = [inner] ∧ .leaf closing = last := by
      cases middle with
      | nil => simp at heq
      | cons tree middle => cases middle <;> simp_all
    simp only [Tree.leaves, leavesOf, List.append_nil, List.forall_mem_append, List.forall_mem_singleton]
      at hproper
    exact .group (hproper.1.isSign hopening rfl) (hproper.2.2.isSign hclosing rfl)
      (ih (hchildren inner (by simp)) hproper.2.1 hbare)
  | case2 tree _ =>
    subst hbare
    exact .leaf token

theorem sheds_between {tokens result : List Token} (h : ReflTransGen (Sheds straight) tokens result)
    (fore rest : List Token) : ReflTransGen (Sheds straight) (fore ++ tokens ++ rest) (fore ++ result ++ rest) := by
  induction h with
  | refl => exact .refl
  | tail _ hlast ih => exact ih.tail (hlast.between fore rest)

/-- Behind an opening parenthesis the parentheses around a string go, pair by pair. -/
theorem sheds_of_encloses {value : Tree} {literal outer : Token} {new : List Char} (h : value.Encloses literal)
    (hliteral : literal.kind = .string) (hnew : IsLiteral new) (hline : ∀ c ∈ new, isLineBreak c = false)
    (hquiet : straight ∨ ∀ token ∈ value.leaves.tail, ∀ c ∈ token.before, isLineBreak c = false)
    (houter : Token.IsSign "(" outer) (rest : List Token) :
    ∃ first more text, value.leaves = first :: more
      ∧ ReflTransGen (Sheds straight) (outer :: (value.leaves ++ rest))
          (outer :: { first with kind := .string, text := text } :: rest) := by
  induction h generalizing outer rest with
  | leaf literal =>
    obtain ⟨kind, before, margin, text⟩ := literal
    obtain rfl : kind = .string := hliteral
    exact ⟨_, [], text, rfl, .refl⟩
  | @group opening closing literal inner hopening hclosing _ ih =>
    simp only [Tree.leaves, leavesOf, List.append_nil, List.singleton_append, List.tail_cons] at hquiet ⊢
    have hinside : straight ∨ ∀ token ∈ inner.leaves ++ [closing], ∀ c ∈ token.before, isLineBreak c = false := by
      simpa using hquiet
    obtain ⟨first, more, text, hleaves, hsheds⟩ := ih hliteral
      (hinside.imp_right fun h token hmem => h token (List.mem_append_left _ (List.mem_of_mem_tail hmem))) hopening
      (closing :: rest)
    refine ⟨opening, _, new, rfl, ?_⟩
    have hpair : Sheds straight ([] ++ outer :: opening :: { first with kind := .string, text := text }
        :: closing :: rest) ([] ++ outer :: { opening with kind := .string, text := new } :: rest) := by
      refine .mk houter hopening rfl hclosing hnew hline (hinside.imp_right fun h c hmem => ?_)
      rcases List.mem_append.1 hmem with hmem | hmem
      · exact h first (by simp [hleaves]) c hmem
      · exact h closing (by simp) c hmem
    have hfirst := sheds_between hsheds [outer] []
    simp only [List.append_nil, List.nil_append, List.cons_append, List.append_assoc] at hfirst hpair ⊢
    exact hfirst.tail hpair

/-- Behind the only argument of a call comes a comma or a parenthesis. -/
theorem closer_of_inCall {opening : Token} {value : Tree} {closing : List Token}
    (h : InCall (.leaf opening :: .node .argument [value] :: closing.map .leaf))
    (hproper : ∀ token ∈ opening :: closing, Token.Proper token) :
    Token.IsSign "(" opening ∧ ∃ closer more, closing = closer :: more ∧ Token.Passes closer behindTests := by
  obtain ⟨first, inner, last, heq, hfirst, hlast, hcommas⟩ := h
  rw [List.cons.injEq, Grammar.Tree.leaf.injEq] at heq
  obtain ⟨rfl, heq⟩ := heq
  rw [List.forall_mem_cons] at hproper
  refine ⟨hproper.1.isSign hfirst rfl, ?_⟩
  cases inner with
  | nil => cases heq
  | cons argument inner =>
    rw [List.cons_append, List.cons.injEq] at heq
    obtain ⟨rfl, heq⟩ := heq
    cases closing with
    | nil => simp at heq
    | cons closer closing =>
      refine ⟨closer, closing, rfl, ?_⟩
      have hcloser := hproper.2 closer List.mem_cons_self
      cases inner with
      | nil =>
        rw [List.map_cons, List.nil_append, List.cons.injEq, Grammar.Tree.leaf.injEq] at heq
        obtain ⟨rfl, -⟩ := heq
        have hsign : Token.IsSign ")" closer := hcloser.isSign hlast rfl
        exact hsign.passes.mono (by decide)
      | cons tree inner =>
        rw [List.map_cons, List.cons_append, List.cons.injEq] at heq
        obtain ⟨rfl, -⟩ := heq
        have hsign : Token.IsSign "," closer := hcloser.isSign (hcommas closer (by simp)) rfl
        exact hsign.passes.mono (by decide)

/-! ### The exchange -/

/-- No line break stands in the parentheses around the literal of the call. -/
def KeepsLines (call : Tree × List Tree) : Prop :=
  ∀ value, Grammar.Tree.node .argument [value] ∈ call.2 →
    ∀ token ∈ value.leaves.tail, ∀ c ∈ token.before, isLineBreak c = false

/-- The trees are turned, and their tokens are exchanged where some have gone with the parentheses around
literals. -/
structure Renewed (straight : Prop) (naming : Naming) (trees others : List Tree) : Prop where
  tokens : ∃ middle, ReflTransGen (Sheds straight) (leavesOf trees) middle
    ∧ Swaps naming.load.toList naming.runtime.toList .free middle (leavesOf others)
  turns : Turns trees others

namespace Renewed

theorem refl_leaf (token : Token) : Renewed straight naming [.leaf token] [.leaf token] where
  tokens := ⟨_, .refl, .refl _⟩
  turns := .leaf token .nil

theorem nil : Renewed straight naming [] [] where
  tokens := ⟨_, .refl, .refl _⟩
  turns := .nil

theorem append {trees others more last : List Tree} (h : Renewed straight naming trees others)
    (hmore : Renewed straight naming more last) : Renewed straight naming (trees ++ more) (others ++ last) where
  tokens := by
    obtain ⟨middle, hsheds, hswaps⟩ := h.tokens
    obtain ⟨middle', hsheds', hswaps'⟩ := hmore.tokens
    have hfirst := sheds_between hsheds [] (leavesOf more)
    have hsecond := sheds_between hsheds' middle []
    rw [List.nil_append, List.nil_append] at hfirst
    rw [List.append_nil, List.append_nil] at hsecond
    rw [leavesOf_append, leavesOf_append]
    exact ⟨_, hfirst.trans hsecond, hswaps.append hswaps'⟩
  turns := h.turns.append hmore.turns

theorem node {kind : Node} {trees others : List Tree} (h : Renewed straight naming trees others) :
    Renewed straight naming [.node kind trees] [.node kind others] where
  tokens := by simpa [leavesOf, Tree.leaves] using h.tokens
  turns := .node kind h.turns .nil

end Renewed

/-- What has to hold of a load call: its callee has no parentheses and it names a module without a carriage return.
The parentheses around its literal go, and with them the line breaks in them; where a line starts with a backslash,
the tokenizer can have taken the next line for a part of it (`straight` says that none does). -/
structure Clear (naming : Naming) (directory : String) (straight : Prop) (call : Tree × List Tree) : Prop where
  bare : ∃ token, call.1 = .leaf token
  names : ∃ identity, Names naming directory call identity ∧ '\r' ∉ identity.toList
  quiet : straight ∨ KeepsLines call

def isLeaf : Tree → Bool
  | .leaf _ => true
  | .node .. => false

/-- The module is accepted, and its load calls are clear in a text without lines that start with a backslash. -/
def isClear (naming : Naming) (directory : String) (text : List Char) (module : Module) : Bool :=
  (Shape.faultAmong? Shape.mixed? module).isNone && unjoined true (withoutMark text)
    && (loadCalls naming.load module).all (fun call => isLeaf call.1)
    && (retargetAll naming directory module).toOption.any fun answer =>
      answer.2.all fun identity => !identity.toList.contains '\r'

theorem clear_of_isClear {text : List Char} {module : Module} (hread : read text = some module)
    (h : isClear naming directory text module = true) :
    Accepts text module ∧ ∀ call ∈ loadCalls naming.load module,
      Clear naming directory (unjoined true (withoutMark text) = true) call := by
  simp only [isClear, Bool.and_eq_true, Option.isNone_iff_eq_none, List.all_eq_true] at h
  obtain ⟨⟨⟨hmixed, hstraight⟩, hleaves⟩, hanswer⟩ := h
  obtain ⟨⟨_, identities⟩, hanswer, hreturn⟩ := (Option.any_eq_true _ _).1 hanswer
  refine ⟨⟨hread, check_eq_ok_iff.2 hmixed⟩, fun call hcall => ?_⟩
  obtain ⟨identity, hmem, hidentity⟩ := exists_names_of_retargetAll hread
    (Option.map_eq_some_iff.2 ⟨_, hanswer, rfl⟩) call hcall
  refine ⟨?_, ⟨identity, hidentity, ?_⟩, .inl hstraight⟩
  · have hleaf := hleaves call hcall
    match call.1, hleaf with
    | .leaf token, _ => exact ⟨token, rfl⟩
  · have hidentityReturn := List.all_eq_true.1 hreturn identity hmem
    simpa using hidentityReturn

theorem renewed_call {callee : Tree} {rest : List Tree}
    (hload : IsFree naming.load.toList) (hruntime : IsFree naming.runtime.toList)
    (hformed : (Grammar.Tree.node .call (callee :: rest)).WellFormed)
    (hcalls : (Grammar.Tree.node .call (callee :: rest)).Calls)
    (hsigned : (Grammar.Tree.node .call (callee :: rest)).Signed)
    (hproper : ∀ token ∈ (Grammar.Tree.node .call (callee :: rest)).leaves, Token.Proper token)
    (hcall : callOf? naming.load (.node .call (callee :: rest)) = some (callee, rest))
    (hclear : Clear naming directory straight (callee, rest)) :
    Renewed straight naming [.node .call (callee :: rest)]
      [.node .call (replace callee .name naming.runtime.toList
        :: rest.map (replaceValue (newLiteral naming directory rest)))] := by
  obtain ⟨⟨name, hname⟩, ⟨identity, ⟨literal, target, hliteral, -, hof, hnew⟩, hreturn⟩, hquiet⟩ := hclear
  simp only at hname
  subst hname
  have hnewliteral := isLiteral_literalLike literal.text (toList_ne_nil_of_ofTarget hof) hreturn
  obtain ⟨opening, value, closing, hkind, htext, -, -, hvalue, hstring, rfl⟩ :=
    exists_of_leafCall hformed hcalls hcall hliteral
  cases hsigned with
  | node _ _ _ hincall hinside =>
  obtain ⟨_, _, heq, hincall⟩ := hincall rfl
  cases heq
  simp only [Tree.leaves, leavesOf, List.append_nil, List.singleton_append, leavesOf_map_leaf,
    List.forall_mem_cons, List.forall_mem_append] at hproper
  obtain ⟨-, hproperOpening, hproperValue, hproperClosing⟩ := hproper
  obtain ⟨hopening, closer, closing, rfl, hcloser⟩ :=
    closer_of_inCall hincall (List.forall_mem_cons.2 ⟨hproperOpening, hproperClosing⟩)
  have hargument : Grammar.Tree.Signed (.node .argument [value]) := hinside _ (by simp)
  cases hargument with
  | node _ _ _ _ hparts =>
  have hencloses := encloses_of_bare (hparts value List.mem_cons_self) hproperValue hvalue
  obtain ⟨first, more, text, hleaves, hsheds⟩ :=
    sheds_of_encloses hencloses hstring (isLiteral_quoted (List.cons_ne_nil 'a' []))
      (isLineBreak_of_all rfl)
      (hquiet.imp_right fun h => h value (by simp)) hopening (closer :: closing)
  simp only at hnew
  rw [hnew]
  obtain ⟨kind, before, margin, nameText⟩ := name
  obtain ⟨kind', before', margin', openingText⟩ := opening
  obtain ⟨kind'', before'', margin'', firstText⟩ := first
  obtain ⟨hoperator, hparen⟩ := id hopening
  simp only at hkind htext hoperator hparen hleaves hsheds
  subst hkind htext hoperator hparen
  have hreplaced : replace value .string (literalLike literal.text identity)
      = .leaf ⟨.string, before'', margin'', literalLike literal.text identity⟩ := by
    rw [replace, hleaves]
  simp only [List.map_cons, replaceValue, hreplaced, map_replaceValue_leaf]
  have hmiddle := sheds_between hsheds [⟨.name, before, margin, naming.load.toList⟩] []
  have hswaps : Swaps naming.load.toList naming.runtime.toList .free
      (⟨.name, before, margin, naming.load.toList⟩ :: ⟨.operator, before', margin', ['(']⟩
        :: ⟨.string, before'', margin'', text⟩ :: closer :: closing)
      (⟨.name, before, margin, naming.runtime.toList⟩ :: ⟨.operator, before', margin', ['(']⟩
        :: ⟨.string, before'', margin'', literalLike literal.text identity⟩ :: closer :: closing) :=
    .cons .name (.cons (.opening (.inr rfl)) (.cons (.literal _ hnewliteral) (.refl _)))
  rw [List.append_nil, List.append_nil] at hmiddle
  refine ⟨⟨?middle, ?_, ?_⟩, ?_⟩
  case refine_1 => simpa [leavesOf, Tree.leaves] using hmiddle
  case refine_2 => simpa [leavesOf, Tree.leaves, replace] using hswaps
  · exact .call closing ⟨rfl, hload.identifier, hload.free⟩ ⟨rfl, hruntime.identifier, hruntime.free⟩ hopening
      hencloses hstring rfl hcloser .nil

mutual

theorem renewed_exchanged (hload : IsFree naming.load.toList) (hruntime : IsFree naming.runtime.toList)
    (tree : Tree) (hformed : tree.WellFormed) (hcalls : tree.Calls)
    (hsigned : tree.Signed) (hproper : ∀ token ∈ tree.leaves, Token.Proper token)
    (hclear : ∀ call ∈ loadCalls naming.load [tree], Clear naming directory straight call) :
    Renewed straight naming [tree] [exchanged naming directory tree] := by
  match tree, hformed, hcalls, hsigned, hproper, hclear with
  | .leaf token, _, _, _, _, _ =>
    rw [exchanged]
    exact .refl_leaf token
  | .node kind children, hformed, hcalls, hsigned, hproper, hclear =>
    cases hcall : callOf? naming.load (.node kind children) with
    | none =>
      rw [loadCalls_node, hcall] at hclear
      rw [exchanged, hcall]
      cases hformed with
      | node _ _ _ hparts =>
      cases hcalls with
      | node _ _ _ hinside =>
      cases hsigned with
      | node _ _ _ _ hsigns =>
      exact (renewed_exchangedAmong hload hruntime children hparts hinside hsigns hproper hclear).node
    | some call =>
      obtain ⟨callee, rest⟩ := call
      obtain ⟨rfl, rfl, -⟩ := callOf?_eq_some hcall
      rw [exchanged, hcall]
      exact renewed_call hload hruntime hformed hcalls hsigned hproper hcall
        (hclear (callee, rest) (by rw [loadCalls_node, hcall]; exact List.mem_cons_self))

theorem renewed_exchangedAmong (hload : IsFree naming.load.toList) (hruntime : IsFree naming.runtime.toList)
    (trees : List Tree) (hformed : ∀ tree ∈ trees, tree.WellFormed)
    (hcalls : ∀ tree ∈ trees, tree.Calls) (hsigned : ∀ tree ∈ trees, tree.Signed)
    (hproper : ∀ token ∈ leavesOf trees, Token.Proper token)
    (hclear : ∀ call ∈ loadCalls naming.load trees, Clear naming directory straight call) :
    Renewed straight naming trees (exchangedAmong naming directory trees) := by
  match trees, hformed, hcalls, hsigned, hproper, hclear with
  | [], _, _, _, _, _ =>
    rw [exchangedAmong]
    exact .nil
  | tree :: rest, hformed, hcalls, hsigned, hproper, hclear =>
    rw [loadCalls_cons, List.forall_mem_append] at hclear
    rw [leavesOf, List.forall_mem_append] at hproper
    rw [List.forall_mem_cons] at hformed hcalls hsigned
    rw [exchangedAmong]
    exact (renewed_exchanged hload hruntime tree hformed.1 hcalls.1 hsigned.1 hproper.1 hclear.1).append
      (renewed_exchangedAmong hload hruntime rest hformed.2 hcalls.2 hsigned.2 hproper.2 hclear.2)

end

/-! ### The whole text -/

theorem exists_tokens_of_sheds {chars : List Char} {toks result : List Token}
    (h : ReflTransGen (Sheds straight) toks result) (htokens : tokens chars = .ok toks)
    (hstraight : straight → unjoined true chars = true) : ∃ other, tokens other = .ok result := by
  suffices ∃ other, tokens other = .ok result ∧ (straight → unjoined true other = true) by
    obtain ⟨other, hother, -⟩ := this
    exact ⟨other, hother⟩
  induction h with
  | refl => exact ⟨chars, htokens, hstraight⟩
  | tail _ hlast ih =>
    obtain ⟨other, hother, hstraight⟩ := ih
    exact hlast.exists_tokens hother hstraight

theorem isChain_of_sheds {toks result : List Token} {allowed : Token → Prop}
    (h : ReflTransGen (Sheds straight) toks result)
    (hchain : toks.IsChain fun token later => token.kind = .number → allowed later) :
    result.IsChain fun token later => token.kind = .number → allowed later := by
  induction h with
  | refl => exact hchain
  | tail _ hlast ih => exact hlast.isChain ih

theorem read_renewed {text : List Char} {module : Module} (hread : read text = some module)
    (hload : IsFree naming.load.toList) (hruntime : IsFree naming.runtime.toList)
    (hclear : ∀ call ∈ loadCalls naming.load module,
      Clear naming directory (unjoined true (withoutMark text) = true) call) :
    tokens (print (exchangedAmong naming directory module))
        = .ok (leavesOf (exchangedAmong naming directory module))
      ∧ read (print (exchangedAmong naming directory module))
        = some (exchangedAmong naming directory module) := by
  have htext := tokens_of_read hread
  have hparse : parse (leavesOf module) = some module := by
    rw [Grammar.read, htext] at hread
    exact hread
  have hproper : ∀ token ∈ leavesOf module, Token.Proper token := isIdentifier_of_tokens htext
  have hrenewed := renewed_exchangedAmong hload hruntime module (wellFormed_of_read hread) (calls_of_read hread)
    (signed_of_parse hparse) hproper hclear
  obtain ⟨middle, hsheds, hswaps⟩ := hrenewed.tokens
  obtain ⟨other, hother⟩ := exists_tokens_of_sheds hsheds htext id
  have hnumbers : middle.IsChain fun token later =>
      token.kind = .number → ¬(later.kind = .name ∧ later.text = naming.load.toList) := by
    refine isChain_of_sheds hsheds ((apart_of_read hread).imp fun token later hapart hkind hname => ?_)
    exact hapart hkind ⟨hname.1, hname.2 ▸ hload.identifier, hname.2 ▸ hload.free⟩
  have htokens := tokens_shownText hload.identifier hruntime.identifier hother hswaps hnumbers
  refine ⟨htokens, ?_⟩
  rw [Grammar.read, print, withoutMark_of_tokens htokens, htokens]
  exact parse_turned hparse ⟨hrenewed.turns, hproper⟩

/-! ### The calls of the exchanged tree -/

/-- The call with callee and literal exchanged. -/
def renamed (naming : Naming) (directory : String) (call : Tree × List Tree) : Tree :=
  .node .call (replace call.1 .name naming.runtime.toList
    :: call.2.map (replaceValue (newLiteral naming directory call.2)))

def CallsBare (name : String) (tree : Tree) : Prop :=
  ∃ token rest, tree = .node .call (.leaf token :: rest) ∧ token.kind = .name ∧ token.text = name.toList

theorem callsBare_renamed (naming : Naming) (directory : String) (call : Tree × List Tree) :
    CallsBare naming.runtime (renamed naming directory call) := by
  obtain ⟨token, htoken, hkind, htext⟩ := exists_replace call.1 .name naming.runtime.toList
  exact ⟨token, _, by rw [renamed, htoken], hkind, htext⟩

mutual

theorem sublist_exchanged (tree : Tree) (hformed : tree.WellFormed)
    (hnames : ∀ call ∈ loadCalls naming.load [tree], ∃ identity, Names naming directory call identity) :
    ((loadCalls naming.load [tree]).map (renamed naming directory)).Sublist
      (exchanged naming directory tree).subtrees := by
  match tree, hformed, hnames with
  | .leaf token, _, _ => exact List.nil_sublist _
  | .node kind children, hformed, hnames =>
    cases hcall : callOf? naming.load (.node kind children) with
    | none =>
      rw [loadCalls_node, hcall] at hnames ⊢
      rw [exchanged, hcall]
      cases hformed with
      | node _ _ _ hparts => exact (sublist_exchangedAmong children hparts hnames).cons _
    | some call =>
      obtain ⟨callee, rest⟩ := call
      obtain ⟨rfl, rfl, -⟩ := callOf?_eq_some hcall
      obtain ⟨_, _, _, hliteral, -⟩ := hnames (callee, rest)
        (by rw [loadCalls_node, hcall]; exact List.mem_cons_self)
      rw [loadCalls_of_literalOf hformed hcall hliteral, exchanged, hcall]
      exact (List.nil_sublist _).cons_cons _

theorem sublist_exchangedAmong (trees : List Tree) (hformed : ∀ tree ∈ trees, tree.WellFormed)
    (hnames : ∀ call ∈ loadCalls naming.load trees, ∃ identity, Names naming directory call identity) :
    ((loadCalls naming.load trees).map (renamed naming directory)).Sublist
      (subtreesOf (exchangedAmong naming directory trees)) := by
  match trees, hformed, hnames with
  | [], _, _ => exact List.nil_sublist _
  | tree :: rest, hformed, hnames =>
    rw [loadCalls_cons, List.forall_mem_append] at hnames
    rw [List.forall_mem_cons] at hformed
    rw [loadCalls_cons, List.map_append, exchangedAmong, subtreesOf]
    exact (sublist_exchanged tree hformed.1 hnames.1).append (sublist_exchangedAmong rest hformed.2 hnames.2)

end

/-- Retargeting gives a text that is accepted again, with a call of the other name for each load call. -/
theorem exists_retargetText {text : String} {module : Module} (haccepts : Accepts text.toList module)
    (hload : IsFree naming.load.toList) (hruntime : IsFree naming.runtime.toList)
    (hclear : ∀ call ∈ loadCalls naming.load module,
      Clear naming directory (unjoined true (withoutMark text.toList) = true) call) :
    ∃ code identities, retargetText naming directory text = .ok (code, identities)
      ∧ List.Forall₂ (Names naming directory) (loadCalls naming.load module) identities
      ∧ Accepts code.toList (exchangedAmong naming directory module)
      ∧ ((loadCalls naming.load module).map (renamed naming directory)).Sublist
        (subtreesOf (exchangedAmong naming directory module)) := by
  obtain ⟨hread, hmixed⟩ := haccepts
  have hnames : ∀ call ∈ loadCalls naming.load module, ∃ identity, Names naming directory call identity :=
    fun call hcall => (hclear call hcall).names.imp fun _ h => h.1
  obtain ⟨identities, hidentities⟩ := exists_identities hnames
  obtain ⟨htokens, hagain⟩ := read_renewed hread hload hruntime hclear
  have htext := retargetText_of_names hread hmixed hidentities
  rw [check_crowded? htokens] at htext
  refine ⟨_, identities, htext, hidentities, ⟨?_, check_mixed?_exchangedAmong hmixed⟩,
    sublist_exchangedAmong module (wellFormed_of_read hread) hnames⟩
  rw [String.toList_ofList]
  exact hagain

-- The lexer takes the line break behind a line that starts with a backslash for nothing, and here no other one is
-- left between the two statements.
example : ((retargetText {} "." "\\\nx = require((\n'./a'))\ny = 1\n").toOption.map fun answer =>
    (answer.1, (read answer.1.toList).isSome)) = some ("\\\nx = __bundle_require__('./a.py')\ny = 1\n", false) := by
  decide +kernel

/-- Where every load call names a module, retargeting gives the text of the exchanged tree, unless a name
in it follows a word with nothing between them. The tree has no load call left. Where the load calls are clear,
something is left between the tokens, the text is read as the exchanged tree, and retargeting it changes nothing. -/
theorem retargetText_exchanged {text : String} {module : Module} (hread : read text.toList = some module)
    (hmixed : Shape.check Shape.mixed? module = .ok ()) (hruntime : naming.runtime ≠ naming.load)
    (hnames : ∀ call ∈ loadCalls naming.load module, ∃ identity, Names naming directory call identity) :
    ∃ identities, List.Forall₂ (Names naming directory) (loadCalls naming.load module) identities
      ∧ retargetText naming directory text
        = (match Shape.check Shape.crowded? (exchangedAmong naming directory module) with
          | .ok _ => .ok (String.ofList (print (exchangedAmong naming directory module)), identities)
          | .error fault => .error (.shape fault))
      ∧ loadCalls naming.load (exchangedAmong naming directory module) = []
      ∧ (IsFree naming.load.toList → IsFree naming.runtime.toList →
          (∀ call ∈ loadCalls naming.load module,
            Clear naming directory (unjoined true (withoutMark text.toList) = true) call) →
          Shape.check Shape.crowded? (exchangedAmong naming directory module) = .ok ()
            ∧ read (print (exchangedAmong naming directory module))
              = some (exchangedAmong naming directory module)
            ∧ ∀ place, retargetText naming place
                (String.ofList (print (exchangedAmong naming directory module)))
              = .ok (String.ofList (print (exchangedAmong naming directory module)), [])) := by
  obtain ⟨identities, hidentities⟩ := exists_identities hnames
  have hformed := wellFormed_of_read hread
  have hnone := loadCalls_exchangedAmong hruntime module hformed hnames
  refine ⟨identities, hidentities, retargetText_of_names hread hmixed hidentities, hnone, ?_⟩
  intro hload hname hclear
  obtain ⟨htokens, hagain⟩ := read_renewed hread hload hname hclear
  have hshape := check_crowded? htokens
  refine ⟨hshape, hagain, fun place => ?_⟩
  have hsecond : read (String.ofList (print (exchangedAmong naming directory module))).toList
      = some (exchangedAmong naming directory module) := by
    rw [String.toList_ofList]
    exact hagain
  have hnothing : List.Forall₂ (Names naming place)
      (loadCalls naming.load (exchangedAmong naming directory module)) [] := by
    rw [hnone]
    exact .nil
  have hsame : exchangedAmong naming place (exchangedAmong naming directory module)
      = exchangedAmong naming directory module := exchangedAmong_of_loadCalls_eq_nil _ hnone
  rw [retargetText_of_names hsecond (check_mixed?_exchangedAmong hmixed) hnothing, hsame, hshape]

/-- A load call without parentheses around its literal, and one with. -/
theorem retargetText_assignment :
    ∃ source module code, source = "x = require(\"./a\")\ny = require((\"./b\"))\n"
      ∧ read source.toList = some module
      ∧ code = "x = __bundle_require__(\"./a.py\")\ny = __bundle_require__(\"./b.py\")\n"
      ∧ retargetText {} "." source = .ok (code, ["./a.py", "./b.py"])
      ∧ read code.toList = some (exchangedAmong {} "." module)
      ∧ ∀ place, retargetText {} place code = .ok (code, []) := by
  have hmodule : ((read "x = require(\"./a\")\ny = require((\"./b\"))\n".toList).map fun module =>
      isClear {} "." "x = require(\"./a\")\ny = require((\"./b\"))\n".toList module
        && (retargetAll {} "." module).toOption.map Prod.snd == some ["./a.py", "./b.py"]) = some true := by
    decide +kernel
  have hanswer : retargetText {} "." "x = require(\"./a\")\ny = require((\"./b\"))\n"
      = .ok ("x = __bundle_require__(\"./a.py\")\ny = __bundle_require__(\"./b.py\")\n",
        ["./a.py", "./b.py"]) := by
    decide +kernel
  obtain ⟨module, hread, hmodule⟩ := Option.map_eq_some_iff.1 hmodule
  rw [Bool.and_eq_true, beq_iff_eq] at hmodule
  obtain ⟨hclear, hall⟩ := hmodule
  obtain ⟨haccepts, hclear⟩ := clear_of_isClear hread hclear
  have hnames : ∀ call ∈ loadCalls "require" module, ∃ identity, Names {} "." call identity :=
    fun call hcall => (hclear call hcall).names.imp fun _ h => h.1
  obtain ⟨identities, -, htext, -, hagain⟩ :=
    @retargetText_exchanged {} "." _ module hread haccepts.unmixed (by decide) hnames
  rw [hanswer] at htext
  split at htext
  · obtain ⟨hcode, rfl⟩ := Prod.mk.inj (Except.ok.inj htext)
    obtain ⟨-, hread', hsecond⟩ := hagain ⟨by decide, by decide⟩ ⟨by decide, by decide⟩ hclear
    rw [← hcode] at hsecond
    refine ⟨_, module, _, rfl, hread, rfl, hanswer, ?_, hsecond⟩
    rw [hcode, String.toList_ofList]
    exact hread'
  · cases htext

/-- Parentheses kept the callee apart from the word before it. -/
theorem retargetText_negation :
    ∃ module, read "x = not(require)(\"./a\")\n".toList = some module
      ∧ Shape.check Shape.mixed? module = .ok ()
      ∧ (∀ call ∈ loadCalls "require" module, Names {} "." call "./a.py")
      ∧ retargetText {} "." "x = not(require)(\"./a\")\n" = .error (.shape (.noGap .negation)) := by
  have hmodule : ((read "x = not(require)(\"./a\")\n".toList).map fun module =>
      (Shape.faultAmong? Shape.mixed? module).isNone
        && (retargetAll {} "." module).toOption.map Prod.snd == some ["./a.py"]) = some true := by
    decide +kernel
  have hanswer : retargetText {} "." "x = not(require)(\"./a\")\n" = .error (.shape (.noGap .negation)) := by
    decide +kernel
  obtain ⟨module, hread, hmodule⟩ := Option.map_eq_some_iff.1 hmodule
  rw [Bool.and_eq_true, Option.isNone_iff_eq_none, beq_iff_eq] at hmodule
  refine ⟨module, hread, check_eq_ok_iff.2 hmodule.1, fun call hcall => ?_, hanswer⟩
  obtain ⟨identity, hidentity, hnames⟩ := exists_names_of_retargetAll hread hmodule.2 call hcall
  rw [List.mem_singleton] at hidentity
  exact hidentity ▸ hnames

end Bundler.Load
