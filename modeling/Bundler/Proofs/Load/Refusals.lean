import Bundler.Fault.Report
import Bundler.Processing
import Bundler.Proofs.Load.Shapes

/-!
# How a module is refused

A load call is refused for one of six reasons (`Refused`). Retargeting a module fails at the first load call
that is refused, in the order in which the calls begin (`retargetAll_eq_error_iff`). Where the callees of all
load calls stand without parentheses, no name comes too close to the word before it, so a module is refused
for its grammar, for text beside bytes, or for that load call (`refusals_of_retargetText`).
-/

namespace Bundler.Load

open Grammar Source

variable {naming : Naming} {directory : String} {call : Tree × List Tree} {fault : LoadFault}

/-! ### One load call -/

/-- Why a load call names no module, as seen from a directory. -/
inductive Refused (naming : Naming) (directory : String) (call : Tree × List Tree) : LoadFault → Prop
  | argumentCount (hcount : (arguments call.2).length ≠ 1) :
      Refused naming directory call (.argumentCount naming.load (arguments call.2).length)
  | notPositional {label value} (harguments : arguments call.2 = [(label, value)])
      (hlabel : label ≠ .argument) : Refused naming directory call (.notPositional naming.load)
  | notLiteral {value} (harguments : arguments call.2 = [(.argument, value)])
      (hvalue : ∀ token, bare value = .leaf token → token.kind ≠ .string) :
      Refused naming directory call (.notLiteral naming.load (kindName (bare value)))
  | bytes {literal} (hliteral : literalOf naming.load call.2 = .ok literal)
      (hvalue : evaluate naming.characters literal.text = .ok .bytes) : Refused naming directory call (.bytes naming.load)
  | literal {literal fault} (hliteral : literalOf naming.load call.2 = .ok literal)
      (hvalue : evaluate naming.characters literal.text = .error fault) : Refused naming directory call (.literal fault)
  | target {literal target fault} (hliteral : literalOf naming.load call.2 = .ok literal)
      (hvalue : evaluate naming.characters literal.text = .ok (.text target))
      (htarget : Identity.ofTarget naming.extension directory (String.ofList target) = .error fault) :
      Refused naming directory call (.target fault)

def callFault? (naming : Naming) (directory : String) (call : Tree × List Tree) : Option LoadFault :=
  match literalOf naming.load call.2 >>= identityOf naming directory with
  | .error fault => some fault
  | .ok _ => none

theorem callFault?_eq_some_iff :
    callFault? naming directory call = some fault
      ↔ literalOf naming.load call.2 >>= identityOf naming directory = .error fault := by
  rw [callFault?]
  cases literalOf naming.load call.2 >>= identityOf naming directory with
  | error other => simp
  | ok identity => simp

theorem literalOf_eq_error_iff :
    literalOf naming.load call.2 = .error fault
      ↔ (fault = .argumentCount naming.load (arguments call.2).length ∧ (arguments call.2).length ≠ 1) ∨
        (fault = .notPositional naming.load ∧
          ∃ label value, arguments call.2 = [(label, value)] ∧ label ≠ .argument) ∨
        ∃ value, fault = .notLiteral naming.load (kindName (bare value)) ∧
          arguments call.2 = [(.argument, value)] ∧
          ∀ token, bare value = .leaf token → token.kind ≠ .string := by
  rw [literalOf]
  split
  next value harguments =>
    rw [harguments]
    cases hbare : bare value with
    | leaf token =>
      by_cases hkind : token.kind = .string
      · simp [hbare, hkind]
      · simp [hbare, hkind, Ne.symm hkind, eq_comm]
    | node kind children => simp [hbare, eq_comm]
  next pair hpositional harguments =>
    obtain ⟨label, value⟩ := pair
    have hlabel : label ≠ .argument := fun heq => hpositional value (by rw [heq])
    simp [harguments, hlabel, eq_comm]
  next all hargument hsingle =>
    have hcount : (arguments call.2).length ≠ 1 := by
      intro hlength
      obtain ⟨pair, hpair⟩ := List.length_eq_one_iff.1 hlength
      exact hsingle pair hpair
    have hnone : ∀ pair, arguments call.2 ≠ [pair] := hsingle
    simp [hcount, hnone, eq_comm]

theorem identityOf_eq_error_iff {literal : Token} :
    identityOf naming directory literal = .error fault
      ↔ (fault = .bytes naming.load ∧ evaluate naming.characters literal.text = .ok .bytes) ∨
        (∃ cause, fault = .literal cause ∧ evaluate naming.characters literal.text = .error cause) ∨
        ∃ target cause, fault = .target cause ∧ evaluate naming.characters literal.text = .ok (.text target) ∧
          Identity.ofTarget naming.extension directory (String.ofList target) = .error cause := by
  rw [identityOf, targetText]
  cases evaluate naming.characters literal.text with
  | error cause => simp [bind, Except.bind, eq_comm]
  | ok value =>
    cases value with
    | bytes => simp [bind, Except.bind, eq_comm]
    | text target => simp [bind, Except.bind, mapError_eq_error_iff, and_comm]

theorem callFault?_eq_some_iff_refused :
    callFault? naming directory call = some fault ↔ Refused naming directory call fault := by
  rw [callFault?_eq_some_iff, bind_eq_error_iff, literalOf_eq_error_iff]
  simp only [identityOf_eq_error_iff]
  constructor
  · rintro ((⟨rfl, hcount⟩ | ⟨rfl, label, value, harguments, hlabel⟩ | ⟨value, rfl, harguments, hvalue⟩) |
      ⟨literal, hliteral, ⟨rfl, hvalue⟩ | ⟨cause, rfl, hvalue⟩ | ⟨target, cause, rfl, hvalue, htarget⟩⟩)
    · exact .argumentCount hcount
    · exact .notPositional harguments hlabel
    · exact .notLiteral harguments hvalue
    · exact .bytes hliteral hvalue
    · exact .literal hliteral hvalue
    · exact .target hliteral hvalue htarget
  · intro h
    cases h with
    | argumentCount hcount => exact .inl (.inl ⟨rfl, hcount⟩)
    | notPositional harguments hlabel => exact .inl (.inr (.inl ⟨rfl, _, _, harguments, hlabel⟩))
    | notLiteral harguments hvalue => exact .inl (.inr (.inr ⟨_, rfl, harguments, hvalue⟩))
    | bytes hliteral hvalue => exact .inr ⟨_, hliteral, .inl ⟨rfl, hvalue⟩⟩
    | literal hliteral hvalue => exact .inr ⟨_, hliteral, .inr (.inl ⟨_, rfl, hvalue⟩)⟩
    | target hliteral hvalue htarget =>
      exact .inr ⟨_, hliteral, .inr (.inr ⟨_, _, rfl, hvalue, htarget⟩)⟩

theorem callFault?_eq_none_iff :
    callFault? naming directory call = none ↔ ∃ identity, Names naming directory call identity := by
  rw [callFault?]
  cases hresult : literalOf naming.load call.2 >>= identityOf naming directory with
  | error fault =>
    simp only [reduceCtorEq, false_iff]
    rintro ⟨identity, literal, target, hliteral, hvalue, hidentity, -⟩
    simp [hliteral, identityOf, targetText, hvalue, hidentity, bind, Except.bind, Except.mapError] at hresult
  | ok identity =>
    obtain ⟨literal, hliteral, hidentity⟩ := bind_eq_ok_iff.1 hresult
    obtain ⟨target, hvalue, hof⟩ := identityOf_eq_ok hidentity
    simp only [true_iff]
    exact ⟨identity, literal, target, hliteral, hvalue, hof, by simp [newLiteral, hliteral, hidentity]⟩

/-! ### The first load call that is refused -/

/-- The fault of the first load call that names no module. -/
def firstFault? (naming : Naming) (directory : String) (trees : List Tree) : Option LoadFault :=
  (loadCalls naming.load trees).findSome? (callFault? naming directory)

theorem firstFault?_cons (tree : Tree) (rest : List Tree) :
    firstFault? naming directory (tree :: rest)
      = (firstFault? naming directory [tree]).or (firstFault? naming directory rest) := by
  rw [firstFault?, loadCalls_cons, List.findSome?_append]
  rfl

theorem firstFault?_eq_none_iff {trees : List Tree} :
    firstFault? naming directory trees = none
      ↔ ∀ call ∈ loadCalls naming.load trees, ∃ identity, Names naming directory call identity := by
  simp only [firstFault?, List.findSome?_eq_none_iff, callFault?_eq_none_iff]

theorem retarget_of_firstFault?_eq_none {tree : Tree} (hformed : tree.WellFormed)
    (h : firstFault? naming directory [tree] = none) :
    ∃ identities, retarget naming directory tree = .ok (exchanged naming directory tree, identities) := by
  obtain ⟨identities, hidentities⟩ := exists_identities (firstFault?_eq_none_iff.1 h)
  exact ⟨identities, retarget_of_names tree hformed hidentities⟩

mutual

theorem retarget_of_firstFault?_eq_some (tree : Tree) (hformed : tree.WellFormed)
    (h : firstFault? naming directory [tree] = some fault) :
    retarget naming directory tree = .error fault := by
  match tree, hformed, h with
  | .leaf token, _, h => cases h
  | .node kind children, hformed, h =>
    cases hcall : callOf? naming.load (.node kind children) with
    | none =>
      have hchildren : firstFault? naming directory children = some fault := by
        rwa [firstFault?, loadCalls_node, hcall] at h
      cases hformed with
      | node _ _ _ hwell =>
        rw [retarget, hcall]
        simp [retargetAll_of_firstFault?_eq_some children hwell hchildren, bind, Except.bind]
    | some call =>
      obtain ⟨callee, rest⟩ := call
      obtain ⟨rfl, rfl, -⟩ := callOf?_eq_some hcall
      have hfirst : callFault? naming directory (callee, rest) = some fault := by
        cases hfault : callFault? naming directory (callee, rest) with
        | some other =>
          rw [firstFault?, loadCalls_node, hcall] at h
          simpa [hfault] using h
        | none =>
          -- a call that names a module holds no other load call
          obtain ⟨identity, literal, target, hliteral, hnamed⟩ := callFault?_eq_none_iff.1 hfault
          rw [firstFault?, loadCalls_of_literalOf hformed hcall hliteral] at h
          simp [hfault] at h
      rw [callFault?_eq_some_iff] at hfirst
      rw [retarget, hcall]
      rcases bind_eq_error_iff.1 hfirst with hliteral | ⟨literal, hliteral, hidentity⟩
      · simp [hliteral, bind, Except.bind]
      · simp [hliteral, hidentity, bind, Except.bind]

theorem retargetAll_of_firstFault?_eq_some (trees : List Tree)
    (hformed : ∀ tree ∈ trees, tree.WellFormed)
    (h : firstFault? naming directory trees = some fault) :
    retargetAll naming directory trees = .error fault := by
  match trees, hformed, h with
  | [], _, h => cases h
  | tree :: rest, hformed, h =>
    rw [List.forall_mem_cons] at hformed
    rw [firstFault?_cons] at h
    rw [retargetAll]
    cases hfirst : firstFault? naming directory [tree] with
    | some other =>
      rw [hfirst, Option.some_or] at h
      simp [retarget_of_firstFault?_eq_some tree hformed.1 (hfirst.trans h), bind, Except.bind]
    | none =>
      rw [hfirst, Option.none_or] at h
      obtain ⟨identities, hretarget⟩ := retarget_of_firstFault?_eq_none hformed.1 hfirst
      simp [hretarget, retargetAll_of_firstFault?_eq_some rest hformed.2 h, bind, Except.bind]

end

/-- Retargeting fails at the first load call that names no module. -/
theorem retargetAll_eq_error_iff {trees : List Tree} (hformed : ∀ tree ∈ trees, tree.WellFormed) :
    retargetAll naming directory trees = .error fault
      ↔ firstFault? naming directory trees = some fault := by
  refine ⟨fun h => ?_, retargetAll_of_firstFault?_eq_some trees hformed⟩
  cases hfirst : firstFault? naming directory trees with
  | some other =>
    rw [retargetAll_of_firstFault?_eq_some trees hformed hfirst] at h
    exact congrArg some (Except.error.inj h)
  | none =>
    obtain ⟨identities, hidentities⟩ := exists_identities (firstFault?_eq_none_iff.1 hfirst)
    rw [retargetAll_of_names trees hformed hidentities] at h
    cases h

/-- The fault belongs to a load call that is refused, and all load calls that begin before it name
modules. -/
theorem firstFault?_eq_some_iff {trees : List Tree} :
    firstFault? naming directory trees = some fault
      ↔ ∃ earlier call later, loadCalls naming.load trees = earlier ++ call :: later ∧
        (∀ other ∈ earlier, ∃ identity, Names naming directory other identity) ∧
        Refused naming directory call fault := by
  rw [firstFault?, List.findSome?_eq_some_iff]
  simp only [callFault?_eq_none_iff, callFault?_eq_some_iff_refused]
  constructor
  · rintro ⟨earlier, call, later, hcalls, hrefused, hearlier⟩
    exact ⟨earlier, call, later, hcalls, hearlier, hrefused⟩
  · rintro ⟨earlier, call, later, hcalls, hearlier, hrefused⟩
    exact ⟨earlier, call, later, hcalls, hrefused, hearlier⟩

/-! ### Callees without parentheses -/

/-- The tokens come from other tokens: each has the kind of one of them and what stands before that one, or
takes the place of several and is no name. -/
inductive Reworded : List Token → List Token → Prop
  | nil : Reworded [] []
  | token {token other tokens others} (hkind : other.kind = token.kind) (hbefore : other.before = token.before)
      (hrest : Reworded tokens others) : Reworded (token :: tokens) (other :: others)
  | merged {merged other tokens others} (hkind : other.kind ≠ .name) (hrest : Reworded tokens others) :
      Reworded (merged ++ tokens) (other :: others)

namespace Reworded

variable {tokens others more last : List Token}

theorem refl : ∀ tokens : List Token, Reworded tokens tokens
  | [] => .nil
  | _ :: rest => .token rfl rfl (refl rest)

theorem append (h : Reworded tokens others) (hmore : Reworded more last) :
    Reworded (tokens ++ more) (others ++ last) := by
  induction h with
  | nil => exact hmore
  | token hkind hbefore _ ih => exact .token hkind hbefore ih
  | merged hkind _ ih =>
    rw [List.append_assoc]
    exact .merged hkind ih

/-- A name at the front of the new tokens was one at the front of the old ones. -/
theorem head (h : Reworded tokens others) {other : Token} (hother : others.head? = some other)
    (hname : other.kind = .name) :
    ∃ token, tokens.head? = some token ∧ token.kind = .name ∧ token.before = other.before := by
  cases h with
  | nil => cases hother
  | token hkind hbefore _ =>
    cases hother
    exact ⟨_, rfl, hkind ▸ hname, hbefore.symm⟩
  | merged hkind _ =>
    cases hother
    exact absurd hname hkind

theorem parted (h : Reworded tokens others) (hparted : tokens.IsChain Token.Parted) :
    others.IsChain Token.Parted := by
  induction h with
  | nil => exact .nil
  | @token token other tokens others hkind hbefore hrest ih =>
    rw [List.isChain_cons] at hparted ⊢
    refine ⟨fun later hlater hother hname => ?_, ih hparted.2⟩
    obtain ⟨former, hformer, hformerKind, hformerBefore⟩ := hrest.head hlater hname
    rw [← hformerBefore]
    exact hparted.1 former hformer (hkind ▸ hother) hformerKind
  | merged hkind hrest ih =>
    rw [List.isChain_cons]
    exact ⟨fun _ _ hname => absurd hname hkind, ih (List.isChain_append.1 hparted).2.1⟩

end Reworded

theorem reworded_replaceValue (text : List Char) (tree : Tree) :
    Reworded tree.leaves (replaceValue text tree).leaves := by
  unfold replaceValue
  split
  next value =>
    obtain ⟨token, htoken, hkind, -⟩ := exists_replace value .string text
    have hmerged : Reworded (value.leaves ++ []) [token] :=
      .merged (by rw [hkind]; decide) .nil
    rw [htoken]
    simpa [Tree.leaves, leavesOf] using hmerged
  · exact .refl _

theorem reworded_map_replaceValue (text : List Char) (trees : List Tree) :
    Reworded (leavesOf trees) (leavesOf (trees.map (replaceValue text))) := by
  induction trees with
  | nil => exact .nil
  | cons tree rest ih =>
    rw [List.map_cons, leavesOf, leavesOf]
    exact (reworded_replaceValue text tree).append ih

mutual

theorem reworded_exchanged (tree : Tree)
    (h : ∀ call ∈ loadCalls naming.load [tree], ∃ token, call.1 = .leaf token) :
    Reworded tree.leaves (exchanged naming directory tree).leaves := by
  match tree, h with
  | .leaf token, _ =>
    rw [exchanged]
    exact .refl _
  | .node kind children, h =>
    cases hcall : callOf? naming.load (.node kind children) with
    | none =>
      rw [loadCalls_node, hcall] at h
      rw [exchanged, hcall, Tree.leaves]
      exact reworded_exchangedAmong children h
    | some call =>
      obtain ⟨callee, rest⟩ := call
      obtain ⟨rfl, rfl, name, hbare, hkind, -⟩ := callOf?_eq_some hcall
      obtain ⟨token, rfl⟩ : ∃ token, callee = .leaf token :=
        h (callee, rest) (by rw [loadCalls_node, hcall]; exact List.mem_cons_self)
      obtain rfl : token = name := by
        rw [bare] at hbare
        · exact Tree.leaf.inj hbare
        · exact nofun
      rw [exchanged, hcall, Tree.leaves]
      exact .token hkind.symm rfl (reworded_map_replaceValue _ rest)

theorem reworded_exchangedAmong (trees : List Tree)
    (h : ∀ call ∈ loadCalls naming.load trees, ∃ token, call.1 = .leaf token) :
    Reworded (leavesOf trees) (leavesOf (exchangedAmong naming directory trees)) := by
  match trees, h with
  | [], _ =>
    rw [exchangedAmong]
    exact .nil
  | tree :: rest, h =>
    rw [loadCalls_cons, List.forall_mem_append] at h
    rw [exchangedAmong, leavesOf, leavesOf]
    exact (reworded_exchanged tree h.1).append (reworded_exchangedAmong rest h.2)

end

/-- Where callees stand without parentheses, no name loses its distance to the word before it. -/
theorem check_crowded?_exchangedAmong {text : List Char} {module : Module} (hread : read text = some module)
    (hcallees : ∀ call ∈ loadCalls naming.load module, ∃ token, call.1 = .leaf token) :
    Shape.check Shape.crowded? (exchangedAmong naming directory module) = .ok () := by
  have hparted := parted_of_tokens (tokens_of_read hread)
  exact check_eq_ok_iff.2 (faultAmong?_crowded? _ ((reworded_exchangedAmong module hcallees).parted hparted))

/-! ### Text beside bytes -/

mutual

theorem faultIn?_mixed?_eq_some (tree : Tree) {fault : ShapeFault}
    (h : Shape.faultIn? Shape.mixed? tree = some fault) : fault = .mixedStrings := by
  match tree, h with
  | .leaf token, h => cases h
  | .node kind children, h =>
    rw [Shape.faultIn?, Option.or_eq_some_iff] at h
    rcases h with h | ⟨-, h⟩
    · exact faultAmong?_mixed?_eq_some children h
    · rw [Shape.mixed?] at h
      split at h
      · exact (Option.some.inj h).symm
      · cases h

theorem faultAmong?_mixed?_eq_some (trees : List Tree) {fault : ShapeFault}
    (h : Shape.faultAmong? Shape.mixed? trees = some fault) : fault = .mixedStrings := by
  match trees, h with
  | [], h => cases h
  | tree :: rest, h =>
    rw [Shape.faultAmong?, Option.or_eq_some_iff] at h
    rcases h with h | ⟨-, h⟩
    · exact faultIn?_mixed?_eq_some tree h
    · exact faultAmong?_mixed?_eq_some rest h

end

theorem check_mixed?_eq_error {trees : List Tree} {fault : ShapeFault}
    (h : Shape.check Shape.mixed? trees = .error fault) : fault = .mixedStrings := by
  rw [Shape.check] at h
  split at h
  next other hother =>
    cases h
    exact faultAmong?_mixed?_eq_some trees hother
  · cases h

/-! ### The whole text -/

/-- The text is a module without text beside bytes, whose first load call that names no module is refused
with this fault. -/
def RefusedFirst (naming : Naming) (directory text : String) (fault : LoadFault) : Prop :=
  ∃ module earlier call later, read text.toList = some module ∧ Shape.check Shape.mixed? module = .ok () ∧
    loadCalls naming.load module = earlier ++ call :: later ∧
    (∀ other ∈ earlier, ∃ identity, Names naming directory other identity) ∧
    Refused naming directory call fault

/-- The code of a module and the modules it loads, or the failure that a module of this identity ends
with. -/
def retargetAs (naming : Naming) (identity : Identity) (directory text : String) :
    Except Failure (String × List Identity) :=
  (retargetText naming directory text).mapError (Processing.retargetFailure identity)

/-- How retargeting a text ends, where callees stand without parentheses. -/
inductive Ends (naming : Naming) (directory text : String) : Except RetargetFault (String × List Identity) → Prop
  | notAModule (hread : read text.toList = none) : Ends naming directory text (.error .notAModule)
  | mixed {module} (hread : read text.toList = some module)
      (hmixed : Shape.check Shape.mixed? module = .error .mixedStrings) :
      Ends naming directory text (.error (.shape .mixedStrings))
  | refused {cause : LoadFault} (h : RefusedFirst naming directory text cause) :
      Ends naming directory text (.error (.load cause))
  | named {module answer} (hread : read text.toList = some module)
      (hmixed : Shape.check Shape.mixed? module = .ok ())
      (hnames : ∀ call ∈ loadCalls naming.load module, ∃ identity, Names naming directory call identity) :
      Ends naming directory text (.ok answer)

theorem retargetText_of_mixed {text : String} {module : Module} (hread : read text.toList = some module)
    (hmixed : Shape.check Shape.mixed? module = .error .mixedStrings) :
    retargetText naming directory text = .error (.shape .mixedStrings) := by
  rw [retargetText, hread]
  simp only [hmixed, bind, Except.bind, Except.mapError]

theorem retargetText_of_refusedFirst {text : String} (h : RefusedFirst naming directory text fault) :
    retargetText naming directory text = .error (.load fault) := by
  obtain ⟨module, earlier, call, later, hread, hmixed, hcalls⟩ := h
  have hall := (retargetAll_eq_error_iff (wellFormed_of_read hread)).2
    (firstFault?_eq_some_iff.2 ⟨earlier, call, later, hcalls⟩)
  rw [retargetText, hread]
  simp only [hmixed, hall, bind, Except.bind, Except.mapError]

theorem ends_retargetText {text : String}
    (hcallees : ∀ module, read text.toList = some module →
      ∀ call ∈ loadCalls naming.load module, ∃ token, call.1 = .leaf token) :
    Ends naming directory text (retargetText naming directory text) := by
  cases hread : read text.toList with
  | none =>
    rw [retargetText, hread]
    exact .notAModule hread
  | some module =>
    cases hmixed : Shape.check Shape.mixed? module with
    | error shape =>
      obtain rfl := check_mixed?_eq_error hmixed
      rw [retargetText_of_mixed hread hmixed]
      exact .mixed hread hmixed
    | ok _ =>
      cases hfirst : firstFault? naming directory module with
      | some cause =>
        obtain ⟨earlier, call, later, hcalls⟩ := firstFault?_eq_some_iff.1 hfirst
        have hrefused : RefusedFirst naming directory text cause :=
          ⟨module, earlier, call, later, hread, hmixed, hcalls⟩
        rw [retargetText_of_refusedFirst hrefused]
        exact .refused hrefused
      | none =>
        have hnames := firstFault?_eq_none_iff.1 hfirst
        obtain ⟨identities, hidentities⟩ := exists_identities hnames
        rw [retargetText_of_names hread hmixed hidentities,
          check_crowded?_exchangedAmong hread (hcallees module hread)]
        exact .named hread hmixed hnames

theorem retargetFailure_injective (identity : Identity) :
    Function.Injective (Processing.retargetFailure identity) := by
  intro reason other h
  unfold Processing.retargetFailure at h
  split at h <;> split at h <;> cases h <;> rfl

theorem retargetAs_eq_error_iff (naming : Naming) (identity : Identity) (directory text : String)
    (reason : RetargetFault) :
    retargetAs naming identity directory text = .error (Processing.retargetFailure identity reason)
      ↔ retargetText naming directory text = .error reason := by
  rw [retargetAs, mapError_eq_error_iff]
  constructor
  · rintro ⟨other, hother, heq⟩
    rwa [retargetFailure_injective identity heq]
  · intro h
    exact ⟨reason, h, rfl⟩

/-- A literal without a value is a failure of its own. -/
theorem retargetFailure_eq_load_iff {identity : Identity} {reason : RetargetFault} :
    .bundle (.load identity fault) = Processing.retargetFailure identity reason
      ↔ (∀ cause, fault ≠ .literal cause) ∧ reason = .load fault := by
  constructor
  · intro h
    unfold Processing.retargetFailure at h
    split at h
    · cases h
    · cases h
    · cases h
    next other hother =>
      cases h
      exact ⟨hother, rfl⟩
  · rintro ⟨hfault, rfl⟩
    cases fault with
    | literal cause => exact absurd rfl (hfault cause)
    | _ => rfl

section Callees

variable {text : String}
  (hcallees : ∀ module, read text.toList = some module →
    ∀ call ∈ loadCalls naming.load module, ∃ token, call.1 = .leaf token)
include hcallees

theorem retargetText_eq_notAModule_iff :
    retargetText naming directory text = .error .notAModule ↔ read text.toList = none := by
  constructor
  · intro h
    have hends : Ends naming directory text (retargetText naming directory text) :=
      ends_retargetText hcallees
    rw [h] at hends
    cases hends
    assumption
  · intro hread
    rw [retargetText, hread]

theorem retargetText_eq_load_iff :
    retargetText naming directory text = .error (.load fault) ↔ RefusedFirst naming directory text fault := by
  refine ⟨fun h => ?_, retargetText_of_refusedFirst⟩
  have hends : Ends naming directory text (retargetText naming directory text) :=
    ends_retargetText hcallees
  rw [h] at hends
  cases hends
  assumption

theorem retargetText_eq_shape_iff {shape : ShapeFault} :
    retargetText naming directory text = .error (.shape shape)
      ↔ shape = .mixedStrings ∧ ∃ module, read text.toList = some module ∧
        Shape.check Shape.mixed? module = .error .mixedStrings := by
  constructor
  · intro h
    have hends : Ends naming directory text (retargetText naming directory text) :=
      ends_retargetText hcallees
    rw [h] at hends
    cases hends with
    | mixed hread hmixed => exact ⟨rfl, _, hread, hmixed⟩
  · rintro ⟨rfl, module, hread, hmixed⟩
    exact retargetText_of_mixed hread hmixed

theorem exists_retargetText_iff :
    (∃ answer, retargetText naming directory text = .ok answer)
      ↔ ∃ module, read text.toList = some module ∧ Shape.check Shape.mixed? module = .ok () ∧
        ∀ call ∈ loadCalls naming.load module, ∃ identity, Names naming directory call identity := by
  constructor
  · rintro ⟨answer, h⟩
    have hends : Ends naming directory text (retargetText naming directory text) :=
      ends_retargetText hcallees
    rw [h] at hends
    cases hends with
    | named hread hmixed hnames => exact ⟨_, hread, hmixed, hnames⟩
  · rintro ⟨module, hread, hmixed, hnames⟩
    obtain ⟨identities, hidentities⟩ := exists_identities hnames
    rw [retargetText_of_names hread hmixed hidentities,
      check_crowded?_exchangedAmong hread (hcallees module hread)]
    exact ⟨_, rfl⟩

end Callees

/-- Where callees stand without parentheses, a text is refused as no module just when the grammar has none
for it. It is refused for a load call just when the first load call that names no module is refused for a
reason other than a literal that has no value; if that literal has none, the failure is the literal's own.
Text beside bytes anywhere is a failure of its own too. There is no other failure, and no failure just when
every load call names a module. All of this holds whatever character names and surrogates stand for. -/
theorem refusals_of_retargetText (characters : Text.Characters) (identity : Identity) (directory text : String)
    (hcallees : ∀ module, read text.toList = some module →
      ∀ call ∈ loadCalls "require" module, ∃ token, call.1 = .leaf token) :
    let naming : Naming := { characters }
    (retargetAs naming identity directory text = .error (.bundle (.notAModule identity))
      ↔ read text.toList = none) ∧
    (∀ fault, retargetAs naming identity directory text = .error (.bundle (.load identity fault))
      ↔ (∀ cause, fault ≠ .literal cause) ∧ RefusedFirst naming directory text fault) ∧
    (∀ cause, retargetAs naming identity directory text = .error (.literal cause)
      ↔ RefusedFirst naming directory text (.literal cause)) ∧
    (∀ fault, retargetAs naming identity directory text = .error (.shape fault)
      ↔ fault = .mixedStrings ∧ ∃ module, read text.toList = some module ∧
        Shape.check Shape.mixed? module = .error .mixedStrings) ∧
    ((∃ answer, retargetAs naming identity directory text = .ok answer)
      ↔ ∃ module, read text.toList = some module ∧ Shape.check Shape.mixed? module = .ok () ∧
        ∀ call ∈ loadCalls "require" module, ∃ other, Names naming directory call other) ∧
    (∀ failure, retargetAs naming identity directory text = .error failure →
      failure = .bundle (.notAModule identity) ∨ (∃ fault, failure = .bundle (.load identity fault)) ∨
        (∃ cause, failure = .literal cause) ∨ failure = .shape .mixedStrings) ∧
    ∀ fault, (Failure.bundle (.load identity fault)).message = identity ++ ": " ++ fault.message := by
  intro naming
  have hcallees' : ∀ module, read text.toList = some module →
      ∀ call ∈ loadCalls naming.load module, ∃ token, call.1 = .leaf token := hcallees
  refine ⟨?_, fun fault => ?_, fun cause => ?_, fun fault => ?_, ?_, fun failure h => ?_, fun fault => rfl⟩
  · exact (retargetAs_eq_error_iff naming identity directory text .notAModule).trans
      (retargetText_eq_notAModule_iff hcallees')
  · rw [retargetAs, mapError_eq_error_iff, ← retargetText_eq_load_iff hcallees']
    simp only [retargetFailure_eq_load_iff]
    constructor
    · rintro ⟨reason, hreason, hfault, rfl⟩
      exact ⟨hfault, hreason⟩
    · rintro ⟨hfault, hreason⟩
      exact ⟨_, hreason, hfault, rfl⟩
  · exact (retargetAs_eq_error_iff naming identity directory text (.load (.literal cause))).trans
      (retargetText_eq_load_iff hcallees')
  · exact (retargetAs_eq_error_iff naming identity directory text (.shape fault)).trans
      (retargetText_eq_shape_iff hcallees')
  · simp only [retargetAs, mapError_eq_ok_iff]
    exact exists_retargetText_iff hcallees'
  · obtain ⟨reason, hreason, rfl⟩ := mapError_eq_error_iff.1 h
    cases reason with
    | notAModule => exact .inl rfl
    | shape shape =>
      obtain ⟨rfl, -⟩ := (retargetText_eq_shape_iff hcallees').1 hreason
      exact .inr (.inr (.inr rfl))
    | load fault =>
      cases fault with
      | literal cause => exact .inr (.inr (.inl ⟨cause, rfl⟩))
      | _ => exact .inr (.inl ⟨_, rfl⟩)

/-- The callee of the call stands without parentheses. -/
def hasLeafCallee : Tree × List Tree → Bool
  | (.leaf _, _) => true
  | _ => false

theorem exists_leaf_of_hasLeafCallee {call : Tree × List Tree} (h : hasLeafCallee call = true) :
    ∃ token, call.1 = .leaf token := by
  unfold hasLeafCallee at h
  split at h
  next token rest => exact ⟨token, rfl⟩
  · cases h

theorem exists_leaf_of_all (text : String)
    (h : ((read text.toList).all fun module => (loadCalls "require" module).all hasLeafCallee) = true) :
    ∀ module, read text.toList = some module →
      ∀ call ∈ loadCalls "require" module, ∃ token, call.1 = .leaf token := by
  intro module hread call hcall
  rw [hread, Option.all_some, List.all_eq_true] at h
  exact exists_leaf_of_hasLeafCallee (h call hcall)

/-- The second load call names no module, since its target is no literal. -/
theorem refusals_of_retargetText_name :
    retargetAs {} "./main.py" "." "require('./a')\nrequire(name)\nrequire()\n"
        = .error (.bundle (.load "./main.py" (.notLiteral "require" "Name"))) ∧
      RefusedFirst {} "." "require('./a')\nrequire(name)\nrequire()\n" (.notLiteral "require" "Name") := by
  have hanswer : retargetText {} "." "require('./a')\nrequire(name)\nrequire()\n"
      = .error (.load (.notLiteral "require" "Name")) := by decide +kernel
  have hcallees := exists_leaf_of_all "require('./a')\nrequire(name)\nrequire()\n" (by decide +kernel)
  obtain ⟨-, hload, -⟩ := refusals_of_retargetText .standard "./main.py" "." _ hcallees
  have hfailure : retargetAs {} "./main.py" "." "require('./a')\nrequire(name)\nrequire()\n"
      = .error (.bundle (.load "./main.py" (.notLiteral "require" "Name"))) := by
    rw [retargetAs, hanswer]
    rfl
  exact ⟨hfailure, ((hload _).1 hfailure).2⟩

/-- The first load call names no module, since its literal has no value; the failure is not one of a load
call. -/
theorem retargetAs_badEscape :
    (∃ module, read "require(\"./\\xZ\")\nrequire(\"../x\")\n".toList = some module) ∧
      retargetAs {} "./order.py" "." "require(\"./\\xZ\")\nrequire(\"../x\")\n"
        = .error (.literal (.escape .shortHex 2 3 1)) ∧
      ∀ fault, retargetAs {} "./order.py" "." "require(\"./\\xZ\")\nrequire(\"../x\")\n"
        ≠ .error (.bundle fault) := by
  have hanswer : retargetText {} "." "require(\"./\\xZ\")\nrequire(\"../x\")\n"
      = .error (.load (.literal (.escape .shortHex 2 3 1))) := by decide +kernel
  have hfailure : retargetAs {} "./order.py" "." "require(\"./\\xZ\")\nrequire(\"../x\")\n"
      = .error (.literal (.escape .shortHex 2 3 1)) := by
    rw [retargetAs, hanswer]
    rfl
  refine ⟨Option.isSome_iff_exists.1 (by decide +kernel), hfailure, fun fault h => ?_⟩
  cases hfailure.symm.trans h

end Bundler.Load
