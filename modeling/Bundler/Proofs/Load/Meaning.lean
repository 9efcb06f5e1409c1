import Bundler.Proofs.Load.Again

/-!
# What the new literals mean

The texts that retargeting writes anew are, for each load call in turn, the runtime's name and a literal
(`rewritten_editsAmong`). The literal denotes the identity, unless the identity has a carriage return or
a null character and is written raw between the old quotes (`literals_of_retargetText`).
-/

namespace Bundler.Load

open Grammar Source

variable {naming : Naming} {directory : String}

/-! ### What is written anew -/

def rewritten (edits : List Edit) : List (List Char) :=
  edits.filterMap fun
    | .becomes text => some text
    | _ => none

@[simp] theorem rewritten_append (first second : List Edit) :
    rewritten (first ++ second) = rewritten first ++ rewritten second := by
  simp [rewritten]

@[simp] theorem rewritten_kept (tokens : List Token) : rewritten (tokens.map fun _ => .kept) = [] := by
  simp [rewritten]

theorem rewritten_giveWay (text : List Char) {tokens : List Token} (hne : tokens ≠ []) :
    rewritten (giveWay text tokens) = [text] := by
  obtain ⟨token, rest, rfl⟩ := List.exists_cons_of_ne_nil hne
  simp [rewritten, giveWay]

theorem rewritten_call {callee : Tree} {rest : List Tree} {identity : Identity}
    (hformed : (Grammar.Tree.node .call (callee :: rest)).WellFormed)
    (hcall : callOf? naming.load (.node .call (callee :: rest)) = some (callee, rest))
    (hnames : Names naming directory (callee, rest) identity) :
    rewritten (edits naming directory (.node .call (callee :: rest)))
      = [naming.runtime.toList, newLiteral naming directory rest] := by
  obtain ⟨literal, -, hliteral, -, -, -⟩ := hnames
  obtain ⟨-, -, token, hbare, -⟩ := callOf?_eq_some hcall
  obtain ⟨-, opening, value, closing, hrest, -, hinside, -⟩ := parts_of_literalOf hformed hliteral
  rw [edits, hcall]
  simp only
  generalize newLiteral naming directory rest = text
  rw [hrest, List.flatMap_append, List.flatMap_cons, flatMap_partEdits_leaf, flatMap_partEdits_leaf,
    partEdits, rewritten_append, rewritten_append, rewritten_append, rewritten_kept, rewritten_kept,
    rewritten_giveWay _ (List.ne_nil_of_mem (mem_leaves_of_bare hbare)),
    rewritten_giveWay _ (List.ne_nil_of_mem (mem_leaves_of_bare hinside))]
  rfl

mutual

theorem rewritten_edits (tree : Tree) (hformed : tree.WellFormed)
    (hnames : ∀ call ∈ loadCalls naming.load [tree], ∃ identity, Names naming directory call identity) :
    rewritten (edits naming directory tree)
      = (loadCalls naming.load [tree]).flatMap fun call =>
          [naming.runtime.toList, newLiteral naming directory call.2] := by
  match tree, hformed, hnames with
  | .leaf token, _, _ => rfl
  | .node kind children, hformed, hnames =>
    cases hcall : callOf? naming.load (.node kind children) with
    | none =>
      rw [loadCalls_node, hcall] at hnames ⊢
      rw [edits, hcall]
      cases hformed with
      | node _ _ _ hchildren => exact rewritten_editsAmong children hchildren hnames
    | some call =>
      obtain ⟨callee, rest⟩ := call
      obtain ⟨rfl, rfl, -⟩ := callOf?_eq_some hcall
      obtain ⟨identity, hidentity⟩ := hnames (callee, rest)
        (by rw [loadCalls_node, hcall]; exact List.mem_cons_self)
      rw [rewritten_call hformed hcall hidentity]
      obtain ⟨literal, -, hliteral, -⟩ := hidentity
      rw [loadCalls_of_literalOf hformed hcall hliteral]
      rfl

/-- What is written anew are the two texts of each load call. -/
theorem rewritten_editsAmong (trees : List Tree) (hformed : ∀ tree ∈ trees, tree.WellFormed)
    (hnames : ∀ call ∈ loadCalls naming.load trees, ∃ identity, Names naming directory call identity) :
    rewritten (editsAmong naming directory trees)
      = (loadCalls naming.load trees).flatMap fun call =>
          [naming.runtime.toList, newLiteral naming directory call.2] := by
  match trees, hformed, hnames with
  | [], _, _ => rfl
  | tree :: rest, hformed, hnames =>
    rw [loadCalls_cons, List.forall_mem_append] at hnames
    rw [List.forall_mem_cons] at hformed
    rw [loadCalls_cons, List.flatMap_append, editsAmong, rewritten_append,
      rewritten_edits tree hformed.1 hnames.1, rewritten_editsAmong rest hformed.2 hnames.2]

end

/-! ### What it means -/

/-- The text is a string literal wherever it stands, and the other text is its value, whatever names of
characters there are. -/
def Denotes (literal value : List Char) : Prop :=
  IsLiteral literal ∧ ∀ characters, evaluate characters literal = .ok (.text value)

def quoteOf (literal : List Char) : Char :=
  (((stringParts? literal).map fun parts => parts.2.1).getD ['"']).headD '"'

/-- The identity does not go between the old quotes as it is. -/
def Requoted (literal : List Char) (identity : Identity) : Prop :=
  '\\' ∈ identity.toList ∨ quoteOf literal ∈ identity.toList ∨ '\n' ∈ identity.toList

theorem literalLike_of_requoted {literal : List Char} {identity : Identity}
    (h : Requoted literal identity) : literalLike literal identity = Text.quoted identity.toList := by
  unfold literalLike
  simp only
  rw [if_pos]
  rw [Bool.or_eq_true, Bool.or_eq_true, List.contains_iff_mem, List.contains_iff_mem,
    List.contains_iff_mem, or_assoc]
  exact h

/-- Quoted text has no character that does not print. -/
theorem printable_of_literalLike {literal : List Char} {identity : Identity}
    (hnot : ¬Requoted literal identity)
    (h : literalLike literal identity = Text.quoted identity.toList) :
    '\r' ∉ identity.toList ∧ '\x00' ∉ identity.toList := by
  have hmem : ∀ c ∈ identity.toList, c ∈ literalLike literal identity := by
    intro c hc
    unfold literalLike
    simp only
    rw [if_neg]
    · exact List.mem_append_left _ (List.mem_append_right _ hc)
    · rw [Bool.or_eq_true, Bool.or_eq_true, List.contains_iff_mem, List.contains_iff_mem,
        List.contains_iff_mem, or_assoc]
      exact hnot
  have hprints : ∀ c ∈ identity.toList, Text.isPrintable c = true := by
    intro c hc
    exact Text.isPrintable_of_mem_quoted (h ▸ hmem c hc)
  refine ⟨fun hreturn => ?_, fun hnull => ?_⟩
  · exact absurd (hprints _ hreturn) (by decide +kernel)
  · exact absurd (hprints _ hnull) (by decide +kernel)

/-- The new literal denotes the identity exactly if it is quoted anew, or has nothing in it that is read
differently between quotes. -/
theorem denotes_literalLike_iff (literal : List Char) {identity : Identity}
    (hne : identity.toList ≠ []) :
    Denotes (literalLike literal identity) identity.toList
      ↔ Requoted literal identity ∨ '\r' ∉ identity.toList ∧ '\x00' ∉ identity.toList := by
  constructor
  · rintro ⟨-, hvalue⟩
    by_cases hrequoted : Requoted literal identity
    · exact .inl hrequoted
    · right
      rcases (evaluate_literalLike_iff .standard literal identity).1 (hvalue _) with hquoted | hplain
      · exact printable_of_literalLike hrequoted hquoted
      · exact hplain
  · rintro (hrequoted | hplain)
    · have hquoted := literalLike_of_requoted hrequoted
      refine ⟨?_, fun characters => (evaluate_literalLike_iff characters literal identity).2 (.inl hquoted)⟩
      rw [hquoted]
      exact isLiteral_quoted hne
    · exact ⟨isLiteral_literalLike literal hne hplain.1,
        fun characters => (evaluate_literalLike_iff characters literal identity).2 (.inr hplain)⟩

/-- The text of a retargeted module is its tokens with the callee and the literal of each load call written
anew, and the literal of a call denotes the identity listed for it, unless a carriage return or a null
character goes raw between the old quotes. -/
theorem literals_of_retargetText {text code : String} {identities : List Identity}
    (h : retargetText naming directory text = .ok (code, identities)) :
    ∃ module, read text.toList = some module
      ∧ code.toList = applied (editsAmong naming directory module) (leavesOf module)
      ∧ rewritten (editsAmong naming directory module)
        = (loadCalls naming.load module).flatMap (fun call =>
            [naming.runtime.toList, newLiteral naming directory call.2])
      ∧ List.Forall₂ (fun call identity => ∃ old : Token, literalOf naming.load call.2 = .ok old
          ∧ (Denotes (newLiteral naming directory call.2) identity.toList
            ↔ Requoted old.text identity ∨ '\r' ∉ identity.toList ∧ '\x00' ∉ identity.toList))
          (loadCalls naming.load module) identities := by
  obtain ⟨module, trees, hread, -, hall, -, rfl⟩ := retargetText_eq_ok h
  have hformed := wellFormed_of_read hread
  have hretargeted := retargeted_of_retargetAll module hformed hall
  have hnames : ∀ call ∈ loadCalls naming.load module, ∃ identity, Names naming directory call identity := by
    intro call hcall
    obtain ⟨identity, -, hidentity⟩ := exists_of_forall₂ hretargeted.names.flip hcall
    exact ⟨identity, hidentity⟩
  refine ⟨module, hread, ?_, rewritten_editsAmong module hformed hnames, ?_⟩
  · rw [String.toList_ofList, print, hretargeted.text]
  · refine hretargeted.names.imp ?_
    rintro call identity ⟨literal, target, hliteral, -, hof, hnew⟩
    rw [hnew]
    exact ⟨literal, hliteral, denotes_literalLike_iff literal.text (toList_ne_nil_of_ofTarget hof)⟩

/-- An apostrophe does not go between apostrophes: the identity is quoted anew. -/
theorem literals_of_retargetText_apostrophe :
    retargetText {} "." "require('./it\\'s')\n"
        = .ok ("__bundle_require__(\"./it's.py\")\n", ["./it's.py"])
      ∧ ∃ module call, read "require('./it\\'s')\n".toList = some module
        ∧ loadCalls "require" module = [call]
        ∧ newLiteral {} "." call.2 = "\"./it's.py\"".toList
        ∧ Denotes "\"./it's.py\"".toList "./it's.py".toList := by
  have hanswer : retargetText {} "." "require('./it\\'s')\n"
      = .ok ("__bundle_require__(\"./it's.py\")\n", ["./it's.py"]) := by
    decide +kernel
  have hmodule : ((read "require('./it\\'s')\n".toList).map fun module =>
      (loadCalls "require" module).map fun call => newLiteral {} "." call.2)
        = some ["\"./it's.py\"".toList] := by
    decide +kernel
  obtain ⟨module, hread, -, -, hdenotes⟩ := literals_of_retargetText hanswer
  rw [hread] at hmodule
  obtain ⟨call, hcalls, hnew⟩ := List.map_eq_singleton_iff.1 (Option.some.inj hmodule)
  refine ⟨hanswer, module, call, hread, hcalls, hnew, ?_⟩
  change List.Forall₂ _ (loadCalls "require" module) _ at hdenotes
  rw [hcalls] at hdenotes
  cases hdenotes with
  | cons hfirst _ =>
    obtain ⟨old, -, hdenotes⟩ := hfirst
    rw [← hnew]
    exact hdenotes.2 (.inr (by decide))

/-- A carriage return goes raw between apostrophes, and ends the line there. -/
theorem not_denotes_carriageReturn :
    retargetText {} "." "require('./a\\r')\n"
        = .ok ("__bundle_require__('./a\r.py')\n", ["./a\r.py"])
      ∧ lexemeAt ⟨[], [], false, false, true⟩ "'./a\r.py'".toList = .error .unterminatedString
      ∧ ¬Denotes "'./a\r.py'".toList "./a\r.py".toList := by
  have hlexeme : lexemeAt ⟨[], [], false, false, true⟩ "'./a\r.py'".toList
      = .error .unterminatedString := by
    decide +kernel
  refine ⟨by decide +kernel, hlexeme, fun hdenotes => ?_⟩
  have hliteral := hdenotes.1 ⟨[], [], false, false, true⟩ []
  rw [List.append_nil, hlexeme] at hliteral
  cases hliteral

end Bundler.Load
