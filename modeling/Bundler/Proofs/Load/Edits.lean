import Bundler.Proofs.Load.Calls
import Bundler.Proofs.Load.Literal
import Bundler.Proofs.Load.Targets
import Bundler.Proofs.Source.Layout

/-!
# What retargeting does to the tokens of a module

`editsAmong` says what becomes of each token: the callee of a load call gives way to the runtime's name,
its literal to a new one, and every other token is kept. The text of a retargeted module is the text of
its tokens with these edits (`retargetText_edits`). It is the module's text with these edits if and only
if every line that is kept had the indentation of its block.
-/

namespace Bundler.Load

open Grammar Source

variable {naming : Naming} {directory : String}

/-! ### Edits -/

/-- What becomes of a token: it stays, a text takes the place of what it says, or it goes. -/
inductive Edit
  | kept
  | becomes (text : List Char)
  | dropped
  deriving DecidableEq, Repr

def Edit.apply (token : Token) : Edit → List Char
  | .kept => token.shown
  | .becomes text => token.before ++ token.margin ++ text
  | .dropped => []

def applied (edits : List Edit) (tokens : List Token) : List Char :=
  (List.zipWith Edit.apply tokens edits).flatten

def giveWay (text : List Char) : List Token → List Edit
  | [] => []
  | _ :: rest => .becomes text :: rest.map fun _ => .dropped

/-- The literal that takes the place of a load call's literal. -/
def newLiteral (naming : Naming) (directory : String) (rest : List Tree) : List Char :=
  match literalOf naming.load rest with
  | .ok literal =>
    match identityOf naming directory literal with
    | .ok identity => literalLike literal.text identity
    | .error _ => []
  | .error _ => []

/-- The value of an argument gives way to a text. -/
def partEdits (text : List Char) : Tree → List Edit
  | .node .argument [value] => giveWay text value.leaves
  | tree => tree.leaves.map fun _ => .kept

mutual

/-- What becomes of the tokens of a tree. -/
def edits (naming : Naming) (directory : String) : Tree → List Edit
  | .leaf _ => [.kept]
  | .node kind children =>
    match callOf? naming.load (.node kind children) with
    | some (callee, rest) =>
      giveWay naming.runtime.toList callee.leaves
        ++ rest.flatMap (partEdits (newLiteral naming directory rest))
    | none => editsAmong naming directory children

def editsAmong (naming : Naming) (directory : String) : List Tree → List Edit
  | [] => []
  | tree :: rest => edits naming directory tree ++ editsAmong naming directory rest

end

theorem applied_append {first second : List Edit} {tokens more : List Token}
    (h : first.length = tokens.length) :
    applied (first ++ second) (tokens ++ more) = applied first tokens ++ applied second more := by
  rw [applied, List.zipWith_append h.symm, List.flatten_append]
  rfl

theorem applied_kept (tokens : List Token) :
    applied (tokens.map fun _ => .kept) tokens = shownText tokens := by
  induction tokens with
  | nil => rfl
  | cons token rest ih =>
    rw [List.map_cons, shownText_cons, ← ih]
    rfl

theorem applied_giveWay (text : List Char) (token : Token) (rest : List Token) :
    applied (giveWay text (token :: rest)) (token :: rest) = token.before ++ token.margin ++ text := by
  have hrest : applied (rest.map fun _ => .dropped) rest = [] := by
    induction rest with
    | nil => rfl
    | cons token rest ih => exact ih
  show token.before ++ token.margin ++ text ++ applied (rest.map fun _ => .dropped) rest = _
  rw [hrest, List.append_nil]

@[simp] theorem length_giveWay (text : List Char) (tokens : List Token) :
    (giveWay text tokens).length = tokens.length := by
  cases tokens <;> simp [giveWay]

@[simp] theorem length_partEdits (text : List Char) (tree : Tree) :
    (partEdits text tree).length = tree.leaves.length := by
  unfold partEdits
  split <;> simp [Tree.leaves, leavesOf]

theorem length_flatMap_partEdits (text : List Char) (rest : List Tree) :
    (rest.flatMap (partEdits text)).length = (leavesOf rest).length := by
  induction rest with
  | nil => rfl
  | cons tree rest ih => simp [leavesOf, ih]

mutual

theorem length_edits (tree : Tree) : (edits naming directory tree).length = tree.leaves.length := by
  cases tree with
  | leaf token => rfl
  | node kind children =>
    rw [edits]
    split
    next hcall =>
      obtain ⟨-, rfl, -⟩ := callOf?_eq_some hcall
      rw [List.length_append, length_giveWay, length_flatMap_partEdits, Tree.leaves, leavesOf,
        List.length_append]
    · rw [length_editsAmong children, Tree.leaves]

theorem length_editsAmong (trees : List Tree) :
    (editsAmong naming directory trees).length = (leavesOf trees).length := by
  cases trees with
  | nil => rfl
  | cons tree rest =>
    rw [editsAmong, leavesOf, List.length_append, List.length_append, length_edits tree,
      length_editsAmong rest]

end

/-! ### Retargeting -/

/-- The load call names the module, and the new literal is written for it. -/
def Names (naming : Naming) (directory : String) (call : Tree × List Tree) (identity : Identity) : Prop :=
  ∃ literal target, literalOf naming.load call.2 = .ok literal
    ∧ evaluate naming.characters literal.text = .ok (.text target)
    ∧ Identity.ofTarget naming.extension directory (String.ofList target) = .ok identity
    ∧ newLiteral naming directory call.2 = literalLike literal.text identity

/-- What retargeting gives is what the edits give. -/
structure Retargeted (naming : Naming) (directory : String) (before after : List Tree)
    (identities : List Identity) : Prop where
  names : List.Forall₂ (Names naming directory) (loadCalls naming.load before) identities
  text : shownText (leavesOf after) = applied (editsAmong naming directory before) (leavesOf before)
  solid : ∀ text, .becomes text ∈ editsAmong naming directory before →
    text = naming.runtime.toList ∨ IsSolid text

theorem Retargeted.nil : Retargeted naming directory [] [] [] := ⟨.nil, rfl, by simp [editsAmong]⟩

theorem Retargeted.cons {tree result : Tree} {before after : List Tree} {identities others : List Identity}
    (hfirst : Retargeted naming directory [tree] [result] identities)
    (hrest : Retargeted naming directory before after others) :
    Retargeted naming directory (tree :: before) (result :: after) (identities ++ others) where
  names := by
    rw [loadCalls_cons]
    exact List.rel_append hfirst.names hrest.names
  text := by
    have htext := hfirst.text
    simp only [leavesOf, editsAmong, List.append_nil] at htext
    rw [leavesOf, leavesOf, editsAmong, applied_append (length_edits tree), shownText_append, htext,
      hrest.text]
  solid := by
    intro text hmem
    rw [editsAmong, List.mem_append] at hmem
    rcases hmem with hmem | hmem
    · exact hfirst.solid text (by simpa [editsAmong] using hmem)
    · exact hrest.solid text hmem

theorem Retargeted.node {kind : Node} {before after : List Tree} {identities : List Identity}
    (hcall : callOf? naming.load (.node kind before) = none)
    (h : Retargeted naming directory before after identities) :
    Retargeted naming directory [.node kind before] [.node kind after] identities := by
  have hedits : editsAmong naming directory [.node kind before] = editsAmong naming directory before := by
    simp [editsAmong, edits, hcall]
  refine ⟨?_, ?_, ?_⟩
  · rw [loadCalls_node, hcall]
    exact h.names
  · rw [hedits]
    simpa [leavesOf, Tree.leaves] using h.text
  · rw [hedits]
    exact h.solid

theorem identityOf_eq_ok {literal : Token} {identity : Identity}
    (h : identityOf naming directory literal = .ok identity) :
    ∃ target, evaluate naming.characters literal.text = .ok (.text target)
      ∧ Identity.ofTarget naming.extension directory (String.ofList target) = .ok identity := by
  obtain ⟨target, htarget, h⟩ := bind_eq_ok_iff.1 h
  unfold targetText at htarget
  split at htarget
  next chars hvalue =>
    cases htarget
    refine ⟨chars, hvalue, ?_⟩
    cases hof : Identity.ofTarget naming.extension directory (String.ofList chars) with
    | error fault => simp [hof, Except.mapError] at h
    | ok other => simpa [hof, Except.mapError] using h
  · cases htarget
  · cases htarget

theorem map_replaceValue_leaf (text : List Char) (tokens : List Token) :
    (tokens.map Tree.leaf).map (replaceValue text) = tokens.map .leaf := by
  rw [List.map_map]
  rfl

theorem flatMap_partEdits_leaf (text : List Char) (tokens : List Token) :
    (tokens.map Tree.leaf).flatMap (partEdits text) = tokens.map fun _ => .kept := by
  induction tokens with
  | nil => rfl
  | cons token tokens ih => simpa [partEdits, Tree.leaves] using ih

theorem shown_replace {tree : Tree} (h : tree.leaves ≠ []) (kind : TokenKind) (text : List Char) :
    shownText (replace tree kind text).leaves = applied (giveWay text tree.leaves) tree.leaves := by
  unfold replace
  cases hleaves : tree.leaves with
  | nil => exact absurd hleaves h
  | cons token rest =>
    rw [applied_giveWay]
    simp [Tree.leaves, Token.shown]

theorem isSolid_literalLike (literal : List Char) (identity : Identity) :
    IsSolid (literalLike literal identity) := by
  rcases literalLike_eq literal identity with hquoted | ⟨quote, quotes, ⟨hquote, hquotes⟩, heq, -⟩
  · rw [hquoted]
    refine ⟨_, _, rfl, ?_⟩
    rcases Text.quoteFor_eq identity.toList with heq | heq <;> rw [heq] <;> rfl
  · have hspace : isSpace quote = false := by rcases hquote with rfl | rfl <;> rfl
    rw [heq]
    rcases hquotes with rfl | rfl
    · exact ⟨_, _, rfl, hspace⟩
    · exact ⟨_, _, rfl, hspace⟩

theorem retargeted_call {callee : Tree} {rest : List Tree} {literal : Token} {identity : Identity}
    (hformed : (Grammar.Tree.node .call (callee :: rest)).WellFormed)
    (hcall : callOf? naming.load (.node .call (callee :: rest)) = some (callee, rest))
    (hliteral : literalOf naming.load rest = .ok literal)
    (hidentity : identityOf naming directory literal = .ok identity) :
    Retargeted naming directory [.node .call (callee :: rest)]
      [.node .call (replace callee .name naming.runtime.toList
        :: rest.map (replaceValue (literalLike literal.text identity)))] [identity] := by
  have hnew : newLiteral naming directory rest = literalLike literal.text identity := by
    simp [newLiteral, hliteral, hidentity]
  have hnames : Names naming directory (callee, rest) identity := by
    obtain ⟨target, htarget, hof⟩ := identityOf_eq_ok hidentity
    exact ⟨literal, target, hliteral, htarget, hof, hnew⟩
  have hcalls := loadCalls_of_literalOf hformed hcall hliteral
  have hedits : editsAmong naming directory [.node .call (callee :: rest)]
      = giveWay naming.runtime.toList callee.leaves
        ++ rest.flatMap (partEdits (literalLike literal.text identity)) := by
    simp [editsAmong, edits, hcall, hnew]
  obtain ⟨-, -, token, hbare, -⟩ := callOf?_eq_some hcall
  obtain ⟨-, opening, value, closing, rfl, -, hinside, -⟩ := parts_of_literalOf hformed hliteral
  have hcallee : callee.leaves ≠ [] := List.ne_nil_of_mem (mem_leaves_of_bare hbare)
  have hleaves : value.leaves ≠ [] := List.ne_nil_of_mem (mem_leaves_of_bare hinside)
  rw [List.flatMap_append, List.flatMap_cons, flatMap_partEdits_leaf, flatMap_partEdits_leaf,
    partEdits] at hedits
  refine ⟨?_, ?_, ?_⟩
  · rw [hcalls]
    exact .cons hnames .nil
  · rw [hedits, List.map_append, List.map_cons, map_replaceValue_leaf, map_replaceValue_leaf,
      replaceValue]
    simp only [leavesOf, Tree.leaves, leavesOf_append, leavesOf_map_leaf, shownText_append,
      List.append_nil]
    rw [applied_append (length_giveWay _ _), applied_append (by simp), applied_append (by simp),
      applied_kept, applied_kept, shown_replace hcallee, shown_replace hleaves]
  · intro text hmem
    have hgives : ∀ (given : List Char) (tokens : List Token), .becomes text ∈ giveWay given tokens →
        text = given := by
      intro given tokens hmem
      cases tokens <;> simp [giveWay] at hmem
      exact hmem
    rw [hedits] at hmem
    simp only [List.mem_append, List.mem_map, reduceCtorEq, and_false, exists_false, false_or,
      or_false] at hmem
    rcases hmem with hmem | hmem
    · exact .inl (hgives _ _ hmem)
    · rw [hgives _ _ hmem]
      exact .inr (isSolid_literalLike _ _)

mutual

theorem retargeted_of_retarget (before : Tree) {after : Tree} {identities : List Identity}
    (hformed : before.WellFormed) (h : retarget naming directory before = .ok (after, identities)) :
    Retargeted naming directory [before] [after] identities := by
  match before, hformed, h with
  | .leaf token, _, h =>
    rw [retarget] at h
    cases h
    exact ⟨.nil, by simp [editsAmong, edits, leavesOf, Tree.leaves, applied, Edit.apply],
      by simp [editsAmong, edits]⟩
  | .node kind children, hformed, h =>
    cases hcall : callOf? naming.load (.node kind children) with
    | none =>
      obtain ⟨trees, hall, rfl⟩ := retarget_other hcall h
      cases hformed with
      | node _ _ _ hchildren => exact (retargeted_of_retargetAll children hchildren hall).node hcall
    | some call =>
      obtain ⟨literal, identity, hliteral, hidentity, rfl, rfl⟩ := retarget_call hcall h
      obtain ⟨rfl, rfl, -⟩ := callOf?_eq_some hcall
      exact retargeted_call hformed hcall hliteral hidentity

theorem retargeted_of_retargetAll (before : List Tree) {after : List Tree} {identities : List Identity}
    (hformed : ∀ tree ∈ before, tree.WellFormed)
    (h : retargetAll naming directory before = .ok (after, identities)) :
    Retargeted naming directory before after identities := by
  match before, hformed, h with
  | [], _, h =>
    rw [retargetAll] at h
    cases h
    exact .nil
  | first :: rest, hformed, h =>
    obtain ⟨tree, others, left, right, hfirst, hrest, rfl, rfl⟩ := retargetAll_cons h
    rw [List.forall_mem_cons] at hformed
    exact (retargeted_of_retarget first hformed.1 hfirst).cons
      (retargeted_of_retargetAll rest hformed.2 hrest)

end

mutual

theorem edits_of_loadCalls_eq_nil (tree : Tree) (h : loadCalls naming.load [tree] = []) :
    edits naming directory tree = tree.leaves.map fun _ => .kept := by
  cases tree with
  | leaf token => rfl
  | node kind children =>
    rw [loadCalls_node, List.append_eq_nil_iff, Option.toList_eq_nil_iff] at h
    rw [edits, h.1, editsAmong_of_loadCalls_eq_nil children h.2, Tree.leaves]

theorem editsAmong_of_loadCalls_eq_nil (trees : List Tree) (h : loadCalls naming.load trees = []) :
    editsAmong naming directory trees = (leavesOf trees).map fun _ => .kept := by
  cases trees with
  | nil => rfl
  | cons tree rest =>
    rw [loadCalls_cons, List.append_eq_nil_iff] at h
    rw [editsAmong, leavesOf, List.map_append, edits_of_loadCalls_eq_nil tree h.1,
      editsAmong_of_loadCalls_eq_nil rest h.2]

end

/-! ### Indentation -/

def written (placed : List (Token × List Char)) : List Token :=
  placed.map fun place => place.1.indented place.2

/-- Every token that does not go was written with the margin of its block. -/
def Regular (edits : List Edit) (placed : List (Token × List Char)) : Prop :=
  ∀ pair ∈ edits.zip placed, pair.1 ≠ .dropped → pair.2.1.margin = pair.2.2

theorem applied_of_regular {edits : List Edit} {placed : List (Token × List Char)}
    (hlength : edits.length = placed.length) (h : Regular edits placed) :
    applied edits (placed.map Prod.fst) = applied edits (written placed) := by
  induction edits generalizing placed with
  | nil =>
    cases placed with
    | nil => rfl
    | cons _ _ => cases hlength
  | cons edit edits ih =>
    cases placed with
    | nil => cases hlength
    | cons place placed =>
      rw [Regular, List.zip_cons_cons, List.forall_mem_cons] at h
      have hfirst : edit.apply place.1 = edit.apply (place.1.indented place.2) := by
        cases edit with
        | kept => rw [← h.1 nofun, Token.indented]
        | becomes text => rw [← h.1 nofun, Token.indented]
        | dropped => rfl
      show edit.apply place.1 ++ applied edits (placed.map Prod.fst)
        = edit.apply (place.1.indented place.2) ++ applied edits (written placed)
      rw [hfirst, ih (Nat.succ.inj hlength) h.2]

/-- The margins show in the text of the tokens that are left. -/
theorem regular_of_applied_eq {edits : List Edit} {placed : List (Token × List Char)}
    (hlength : edits.length = placed.length) (hplaced : ∀ place ∈ placed, place.1.Placed place.2)
    (hsolid : ∀ text, .becomes text ∈ edits → IsSolid text)
    (h : applied edits (placed.map Prod.fst) = applied edits (written placed)) :
    Regular edits placed := by
  induction edits generalizing placed with
  | nil => simp [Regular]
  | cons edit edits ih =>
    cases placed with
    | nil => cases hlength
    | cons place placed =>
      obtain ⟨token, indentation⟩ := place
      rw [List.forall_mem_cons] at hplaced
      have hrest := ih (Nat.succ.inj hlength) hplaced.2
        fun text hmem => hsolid text (List.mem_cons_of_mem _ hmem)
      rw [Regular, List.zip_cons_cons, List.forall_mem_cons]
      change edit.apply token ++ applied edits (placed.map Prod.fst)
        = edit.apply (token.indented indentation) ++ applied edits (written placed) at h
      -- What the edit leaves of the token behind its margin; only a solid text tells margins apart.
      have hshown : ∀ text : List Char, (IsSolid text ∨ token.margin = indentation) →
          token.before ++ token.margin ++ text ++ applied edits (placed.map Prod.fst)
            = token.before ++ indentation ++ text ++ applied edits (written placed) →
          token.margin = indentation
            ∧ applied edits (placed.map Prod.fst) = applied edits (written placed) := by
        intro text htext heq
        simp only [List.append_assoc, List.append_cancel_left_eq] at heq
        have hmargin : token.margin = indentation := by
          rcases htext with htext | hmargin
          · rcases hplaced.1 with ⟨hmargin, rfl⟩ | ⟨hmargin, hblank, -⟩
            · exact hmargin
            · exact blanks_eq hmargin hblank (htext.append _) (htext.append _) heq
          · exact hmargin
        rw [hmargin, List.append_cancel_left_eq, List.append_cancel_left_eq] at heq
        exact ⟨hmargin, heq⟩
      cases edit with
      | kept =>
        have htext : IsSolid token.text ∨ token.margin = indentation := by
          rcases hplaced.1 with ⟨hmargin, rfl⟩ | ⟨-, -, htext⟩
          · exact .inr hmargin
          · exact .inl htext
        obtain ⟨hmargin, heq⟩ := hshown token.text htext h
        exact ⟨fun _ => hmargin, hrest heq⟩
      | becomes text =>
        obtain ⟨hmargin, heq⟩ := hshown text (.inl (hsolid text List.mem_cons_self)) h
        exact ⟨fun _ => hmargin, hrest heq⟩
      | dropped => exact ⟨fun hdropped => absurd rfl hdropped, hrest h⟩

theorem applied_written {placed : List (Token × List Char)} {tokens : List Token} {chars : List Char}
    (h : Laid placed tokens chars) : applied (tokens.map fun _ => .kept) (written placed) = chars := by
  have hkept : (tokens.map fun _ => Edit.kept) = (written placed).map fun _ => .kept := by
    rw [← h.tokens, written, List.map_map, List.map_map]
    rfl
  rw [hkept, applied_kept, ← h.written, shownText, written, List.flatMap_map]

/-- What a retargeted text says and what it loads. The text is `applied` to the tokens as their lines
are indented in the tree. It is `applied` to the tokens as they are written if every token that is left was
written with the margin of its block, and only then, unless the runtime's name starts with a blank. -/
theorem retargetText_edits {text code : String} {identities : List Identity}
    (h : retargetText naming directory text = .ok (code, identities)) :
    ∃ module placed, read text.toList = some module
      ∧ Laid placed (leavesOf module) (withoutMark text.toList)
      ∧ List.Forall₂ (Names naming directory) (loadCalls naming.load module) identities
      ∧ code.toList = applied (editsAmong naming directory module) (leavesOf module)
      ∧ (Regular (editsAmong naming directory module) placed →
          code.toList = applied (editsAmong naming directory module) (written placed))
      ∧ (IsSolid naming.runtime.toList →
          code.toList = applied (editsAmong naming directory module) (written placed) →
          Regular (editsAmong naming directory module) placed)
      ∧ (loadCalls naming.load module = [] → identities = []
          ∧ applied (editsAmong naming directory module) (written placed) = withoutMark text.toList)
      ∧ ∀ call identity, Names naming directory call identity →
          (evaluate naming.characters (newLiteral naming directory call.2) = .ok (.text identity.toList)
            ↔ newLiteral naming directory call.2 = Text.quoted identity.toList
              ∨ '\r' ∉ identity.toList ∧ '\x00' ∉ identity.toList) := by
  obtain ⟨module, trees, hread, -, hall, -, rfl⟩ := retargetText_eq_ok h
  obtain ⟨placed, hlaid⟩ := exists_laid (tokens_of_read hread)
  have hretargeted := retargeted_of_retargetAll module (wellFormed_of_read hread) hall
  have hcode : (String.ofList (print trees)).toList
      = applied (editsAmong naming directory module) (leavesOf module) := by
    rw [String.toList_ofList, print, hretargeted.text]
  have hlength : (editsAmong naming directory module).length = placed.length := by
    rw [length_editsAmong, ← hlaid.tokens, List.length_map]
  refine ⟨module, placed, hread, hlaid, hretargeted.names, hcode, ?_, ?_, ?_, ?_⟩
  · intro hregular
    rw [hcode, ← hlaid.tokens]
    exact applied_of_regular hlength hregular
  · intro hruntime heq
    have hsolid : ∀ text, .becomes text ∈ editsAmong naming directory module → IsSolid text := by
      intro text hmem
      rcases hretargeted.solid text hmem with rfl | hsolid
      · exact hruntime
      · exact hsolid
    rw [hcode, ← hlaid.tokens] at heq
    exact regular_of_applied_eq hlength hlaid.placed hsolid heq
  · intro hnone
    refine ⟨?_, ?_⟩
    · have hnames := hretargeted.names
      rw [hnone] at hnames
      exact List.forall₂_nil_left_iff.1 hnames
    · rw [editsAmong_of_loadCalls_eq_nil module hnone, applied_written hlaid]
  · rintro call identity ⟨literal, target, -, -, -, hnew⟩
    rw [hnew]
    exact evaluate_literalLike_iff naming.characters literal.text identity

/-- A form feed in front of a load call is no part of the margin, and is lost. -/
theorem retargetText_formFeed :
    ∃ code identities module placed,
      retargetText {} "." "\x0crequire(\"./a\")\n" = .ok (code, identities)
      ∧ read "\x0crequire(\"./a\")\n".toList = some module
      ∧ Laid placed (leavesOf module) (withoutMark "\x0crequire(\"./a\")\n".toList)
      ∧ code.toList ≠ applied (editsAmong {} "." module) (written placed) := by
  have hok : (retargetText {} "." "\x0crequire(\"./a\")\n").toBool = true := by decide +kernel
  have hmodule : ((read "\x0crequire(\"./a\")\n".toList).map fun module =>
      (editsAmong {} "." module).all (· != .dropped)
        && print module != withoutMark "\x0crequire(\"./a\")\n".toList) = some true := by
    decide +kernel
  cases hanswer : retargetText {} "." "\x0crequire(\"./a\")\n" with
  | error fault =>
    rw [hanswer] at hok
    cases hok
  | ok answer =>
    obtain ⟨code, identities⟩ := answer
    obtain ⟨module, placed, hread, hlaid, -, -, -, hregular, -⟩ := retargetText_edits hanswer
    refine ⟨code, identities, module, placed, rfl, hread, hlaid, fun heq => ?_⟩
    rw [hread, Option.map_some, Option.some.injEq, Bool.and_eq_true, List.all_eq_true] at hmodule
    obtain ⟨hkept, hprint⟩ := hmodule
    have hlength : placed.length ≤ (editsAmong {} "." module).length := by
      rw [length_editsAmong, ← hlaid.tokens, List.length_map]
    have hsame : ∀ place ∈ placed, (place.1.indented place.2).shown = place.1.shown := by
      intro place hplace
      rw [← List.map_snd_zip hlength, List.mem_map] at hplace
      obtain ⟨⟨edit, _⟩, hpair, rfl⟩ := hplace
      have hedit : edit ≠ .dropped := by simpa using hkept edit (List.of_mem_zip hpair).1
      rw [← hregular ⟨'_', _, rfl, rfl⟩ heq _ hpair hedit]
      rfl
    have hwritten : withoutMark "\x0crequire(\"./a\")\n".toList = print module := by
      rw [← hlaid.written, print, ← hlaid.tokens, shownText, List.flatMap_map]
      exact List.flatMap_congr hsame
    rw [hwritten] at hprint
    simp at hprint

end Bundler.Load
