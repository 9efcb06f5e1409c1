import Bundler.Proofs.Artifact.Words
import Bundler.Proofs.Grammar.Plain
import Bundler.Proofs.Grammar.Tables
import Bundler.Proofs.Load.Shapes

/-!
# Bundles are modules

The text of a bundle is a module of the language, and one of its statements defines the load function
(`accepts_lines`). Every statement of it stands for itself: those that hold names or texts of the bundle are read with
samples for these, and so are read with any others.
-/

namespace Bundler.Artifact

open Source Grammar

variable {artifact : Artifact} {lines others : List Line} {levels : List Source.Level}

/-! ### Lines that are read alike -/

/-- The lines differ in nothing but names and strings that are read alike. -/
def Alike (line other : Line) : Prop :=
  other.indentation = line.indentation
    ∧ List.Forall₂ (fun word twin : Lexeme => Token.Like word.bare twin.bare) line.words other.words

theorem tokens_alike {line other : Line} (h : Alike line other) : List.Forall₂ Token.Like line.tokens other.tokens := by
  refine List.rel_append ?_ (.cons (.refl _) .nil)
  rw [List.forall₂_map_left_iff, List.forall₂_map_right_iff]
  exact h.2

theorem laid_alike (h : List.Forall₂ Alike lines others) {shown : List Token} {after : List Source.Level}
    (hlaid : laid levels lines = some (shown, after)) :
    ∃ twins, laid levels others = some (twins, after) ∧ List.Forall₂ Token.Like shown twins := by
  induction h generalizing levels shown with
  | nil =>
    cases hlaid
    exact ⟨[], rfl, .nil⟩
  | @cons line other lines others hline _ ih =>
    obtain ⟨marks, inner, more, hindent, hmore, rfl⟩ := laid_cons hlaid
    obtain ⟨twins, htwins, hlike⟩ := ih hmore
    refine ⟨marks ++ (other.tokens ++ twins), ?_, ?_⟩
    · simp [laid, hline.1, hindent, htwins, Except.toOption]
    · exact List.rel_append (List.forall₂_same.2 fun _ _ => .refl _) (List.rel_append (tokens_alike hline) hlike)

theorem groupTokens_alike (h : List.Forall₂ Alike lines others) {shown : List Token} {after : List Source.Level}
    (hlaid : laid [] lines = some (shown, after)) :
    List.Forall₂ Token.Like (groupTokens lines) (groupTokens others) := by
  obtain ⟨twins, htwins, hlike⟩ := laid_alike h hlaid
  rw [groupTokens, groupTokens, hlaid, htwins]
  exact List.rel_append hlike (List.forall₂_same.2 fun _ _ => .refl _)

/-! ### The statements -/

/-- The statement begins with two tokens that are no parts of a larger form. -/
def startsPlain : List Tree → Bool
  | .leaf _ :: .leaf _ :: _ => true
  | _ => false

theorem exists_leaves_of_startsPlain {trees : List Tree} (h : startsPlain trees = true) :
    ∃ first second more, trees = .leaf first :: .leaf second :: more := by
  rcases trees with _ | ⟨_ | _, _ | ⟨_ | _, more⟩⟩
  · cases h
  · cases h
  · exact ⟨_, _, more, rfl⟩
  · cases h
  · cases h
  · cases h
  · cases h

theorem startsPlain_hollowAll (trees : List Tree) : startsPlain (hollowAll trees) = startsPlain trees := by
  match trees with
  | [] => rfl
  | [.leaf _] | [.node _ _] => rfl
  | .leaf _ :: .leaf _ :: _ | .leaf _ :: .node _ _ :: _ | .node _ _ :: _ :: _ => rfl

/-- With whatever names and strings, a group of lines is a statement if it is one with some of each kind. -/
theorem stands_alike {form : List Tree → Bool} (hform : ∀ trees, form (hollowAll trees) = form trees)
    {shown : List Token} {after : List Source.Level} (hlaid : laid [] lines = some (shown, after))
    (hlast : isLast form (groupTokens lines) = true) (halike : List.Forall₂ Alike lines others) :
    ∃ children, form children = true ∧ Stands (groupTokens others) children := by
  obtain ⟨children, hchildren, hstands⟩ := stands_of_isLast hlast
  obtain ⟨more, hmore, hsame⟩ := hstands.alike (groupTokens_alike halike hlaid)
  refine ⟨more, ?_, hmore⟩
  rw [← hform, hsame, hform, hchildren]

theorem stands_importLine : ∃ children, Stands (groupTokens [importLine]) children := by
  have hlast : isLast (fun _ => true) (groupTokens [importLine]) = true := by decide +kernel
  obtain ⟨children, -, h⟩ := stands_of_isLast hlast
  exact ⟨children, h⟩

theorem stands_cacheLine : ∃ children, Stands (groupTokens [cacheLine]) children := by
  have hlast : isLast (fun _ => true) (groupTokens [cacheLine]) = true := by decide +kernel
  obtain ⟨children, -, h⟩ := stands_of_isLast hlast
  exact ⟨children, h⟩

section Statements

/-- No keyword starts with an underscore. -/
theorem isPlain_closureName (index : Nat) : IsPlain (closureName index) := by
  refine ⟨isIdentifier_closureName index, fun hmem => ?_⟩
  have hwords : ∀ word ∈ words, "__".toList.isPrefixOf word = false := by decide
  have hstarts : "__".toList.isPrefixOf (closureName index) = true := rfl
  rw [hwords _ hmem] at hstarts
  cases hstarts

theorem isName_closureName (index : Nat) : Token.IsName ⟨.name, [], [], closureName index⟩ :=
  IsPlainName.isName ⟨rfl, isPlain_closureName index⟩

theorem stands_tableGroup (modules : List ((Identity × String) × Nat)) :
    ∃ children, Stands (groupTokens [tableGroup modules]) children := by
  let pairs := modules.map fun module =>
    ((⟨.string, [], [], Text.quoted module.1.1.toList⟩, ⟨.name, [], [], closureName module.2⟩) : Token × Token)
  have hpairs : ∀ pair ∈ pairs, IsItem pair := by
    intro pair hpair
    obtain ⟨module, -, rfl⟩ := List.mem_map.1 hpair
    exact ⟨rfl, isName_closureName module.2⟩
  have htarget : IsPlainName ⟨.name, [], [], "__bundle_modules__".toList⟩ := ⟨rfl, by decide, by decide⟩
  have htokens : groupTokens [tableGroup modules]
      = assignmentTokens ⟨.name, [], [], "__bundle_modules__".toList⟩ pairs := by
    have hitems : (modules.flatMap itemWords).map Lexeme.bare = pairs.flatMap itemTokens := by
      rw [List.map_flatMap, List.flatMap_map]
      rfl
    have hflush : (tableGroup modules).indentation = [] := rfl
    rw [groupTokens_flush hflush, Line.tokens, tableGroup]
    simp only [List.map_append, hitems]
    rfl
  rw [htokens]
  exact ⟨_, stands_assignment htarget hpairs⟩

variable {runtime : List Char} (hruntime : IsFree runtime)

include hruntime

theorem stands_runtimeGroup :
    ∃ children, startsPlain children = true ∧ Stands (groupTokens (runtimeGroup runtime)) children := by
  have hsamples : ∀ name ∈ sampleNames, isLast startsPlain (groupTokens (runtimeGroup name)) = true := by
    decide +kernel
  obtain ⟨name, hname, hlike⟩ := hruntime.exists_sample
  refine stands_alike startsPlain_hollowAll rfl (hsamples name hname) ?_
  simp [runtimeGroup, Alike, Lexeme.bare, Lexeme.word, Lexeme.name, Lexeme.sign, Lexeme.behind, hlike, Token.Like.refl]

theorem stands_closureGroup (index : Nat) (code identity : List Char) :
    ∃ children, Stands (groupTokens (closureGroup (closureName index) runtime code identity)) children := by
  have hsamples : ∀ name ∈ sampleNames,
      isLast startsPlain (groupTokens (closureGroup (closureName 0) name [] [])) = true := by
    decide +kernel
  have hquoted : ∀ text other, Token.Like ⟨.string, [], [], Text.quoted text⟩ ⟨.string, [], [], Text.quoted other⟩ :=
    fun _ _ => .string rfl rfl
  have hclosure : Token.Like ⟨.name, [], [], closureName 0⟩ ⟨.name, [], [], closureName index⟩ :=
    .name ⟨rfl, isPlain_closureName 0⟩ ⟨rfl, isPlain_closureName index⟩
  obtain ⟨name, hname, hlike⟩ := hruntime.exists_sample
  have halike : List.Forall₂ Alike (closureGroup (closureName 0) name [] [])
      (closureGroup (closureName index) runtime code identity) := by
    simp [closureGroup, Alike, Lexeme.bare, Lexeme.word, Lexeme.name, Lexeme.sign, Lexeme.string, Lexeme.behind,
      hlike, hclosure, hquoted, Token.Like.refl]
  obtain ⟨children, -, h⟩ := stands_alike startsPlain_hollowAll rfl (hsamples name hname) halike
  exact ⟨children, h⟩

theorem stands_entryLine (identity name : List Char) :
    ∃ children, Stands (groupTokens [entryLine runtime identity name]) children := by
  have hsamples : ∀ sample ∈ sampleNames, isLast (fun _ => true) (groupTokens [entryLine sample [] []]) = true := by
    decide +kernel
  obtain ⟨sample, hsample, hlike⟩ := hruntime.exists_sample
  have hquoted : Token.Like ⟨.string, [], [], Text.quoted []⟩ ⟨.string, [], [], Text.quoted identity⟩ :=
    .string rfl rfl
  have halike : List.Forall₂ Alike [entryLine sample [] []] [entryLine runtime identity name] := by
    simp [entryLine, Alike, Lexeme.bare, Lexeme.name, Lexeme.sign, Lexeme.string, Lexeme.behind, hlike, hquoted,
      Token.Like.refl]
  obtain ⟨children, -, h⟩ := stands_alike (fun _ => rfl) rfl (hsamples sample hsample) halike
  exact ⟨children, h⟩

end Statements

/-! ### No bytes -/

section Text

open Load (IsText isText_of_isIdentifier isText_of_quoted)

theorem isText_laid {shown : List Token} {after : List Source.Level}
    (hwords : ∀ line ∈ lines, ∀ word ∈ line.words, IsText word.bare) (hlaid : laid levels lines = some (shown, after)) :
    ∀ token ∈ shown, IsText token := by
  induction lines generalizing levels shown with
  | nil =>
    cases hlaid
    exact nofun
  | cons line lines ih =>
    rw [List.forall_mem_cons] at hwords
    obtain ⟨marks, inner, more, hindent, hmore, rfl⟩ := laid_cons hlaid
    have hmarks : ∀ token ∈ marks, IsText token := by
      intro token htoken
      rcases marks_of_indent hindent token htoken with rfl | rfl <;> rfl
    have hline : ∀ token ∈ line.tokens, IsText token := by
      rw [Line.tokens, List.forall_mem_append, List.forall_mem_map, List.forall_mem_singleton]
      exact ⟨hwords.1, rfl⟩
    rw [List.forall_mem_append, List.forall_mem_append]
    exact ⟨hmarks, hline, ih hwords.2 hmore⟩

theorem isText_groupTokens (hwords : ∀ line ∈ lines, ∀ word ∈ line.words, IsText word.bare) :
    ∀ token ∈ groupTokens lines, IsText token := by
  intro token htoken
  rw [groupTokens] at htoken
  split at htoken
  next shown levels hlaid =>
    rcases List.mem_append.1 htoken with htoken | htoken
    · exact isText_laid hwords hlaid token htoken
    · obtain ⟨level, -, rfl⟩ := List.mem_map.1 htoken
      rfl
  · cases htoken

theorem isText_groups (hruntime : Text.isIdentifier artifact.runtime.toList = true) :
    ∀ group ∈ artifact.groups, ∀ token ∈ groupTokens group, IsText token := by
  have hname : ∀ name, Text.isIdentifier name = true → IsText ⟨.name, [], [], name⟩ :=
    fun name h => isText_of_isIdentifier h
  have hquoted : ∀ text, IsText ⟨.string, [], [], Text.quoted text⟩ := fun text => isText_of_quoted rfl
  have hclosure := fun index => hname _ (isIdentifier_closureName index)
  have hload := hname _ hruntime
  refine fun group hgroup => isText_groupTokens ?_
  simp only [groups, List.mem_cons, List.mem_append, List.mem_map] at hgroup
  rcases hgroup with rfl | ⟨module, -, rfl⟩ | rfl | rfl | rfl | ⟨entry, -, rfl⟩
  · decide
  · simp +decide [moduleGroup, closureGroup, Lexeme.bare, Lexeme.word, Lexeme.name, Lexeme.sign, Lexeme.string,
      Lexeme.behind, hclosure, hload, hquoted]
  · have hitems : ∀ word ∈ artifact.modules.zipIdx.flatMap itemWords, IsText word.bare := by
      rw [List.forall_mem_flatMap]
      rintro module -
      simp +decide [itemWords, Lexeme.bare, Lexeme.name, Lexeme.sign, Lexeme.string, Lexeme.behind, hclosure, hquoted]
    simp only [List.forall_mem_singleton, tableGroup, List.forall_mem_append]
    exact ⟨by decide, hitems, by decide⟩
  · decide
  · simp +decide [runtimeGroup, Lexeme.bare, Lexeme.word, Lexeme.name, Lexeme.sign, Lexeme.behind, hload]
  · simp +decide [bootstrapLine, entryLine, Lexeme.bare, Lexeme.name, Lexeme.sign, Lexeme.string, Lexeme.behind,
      hload, hquoted]

end Text

/-! ### The bundle -/

def Defines (name : List Char) (module : Module) : Prop :=
  ∃ keyword target parts, .node .statement (.leaf keyword :: .leaf target :: parts) ∈ module
    ∧ keyword.kind = .name ∧ keyword.text = "def".toList ∧ target.kind = .name ∧ target.text = name

theorem defines_of_plain {name : List Char} {module : Module} (h : Defines name (module.map Tree.plain)) :
    Defines name module := by
  obtain ⟨keyword, target, parts, hmem, hkeyword, hdef, htarget, hname⟩ := h
  obtain ⟨tree, htree, heq⟩ := List.mem_map.1 hmem
  match tree, heq with
  | .node _ (.leaf _ :: .leaf _ :: _), heq =>
    cases heq
    exact ⟨_, _, _, htree, hkeyword, hdef, htarget, hname⟩

variable (hruntime : IsFree artifact.runtime.toList)

include hruntime

theorem stands_groups : ∀ group ∈ artifact.groups, ∃ children, Stands (groupTokens group) children := by
  obtain ⟨children, -, hload⟩ := stands_runtimeGroup hruntime
  simp only [groups, List.forall_mem_cons, List.forall_mem_append, List.forall_mem_map]
  exact ⟨stands_importLine, fun module _ => stands_closureGroup hruntime module.2 _ _,
    stands_tableGroup _, stands_cacheLine, ⟨children, hload⟩, fun entry _ => stands_entryLine hruntime _ _⟩

/-- The text of a bundle is a module, and it defines the load function. -/
theorem accepts_lines (hnames : ∀ entry ∈ artifact.entries, ∀ c ∈ entry.1.toList, isLineBreak c = false) :
    ∃ module, Load.Accepts (unlines artifact.lines) module ∧ Defines artifact.runtime.toList module := by
  obtain ⟨toks, htokens, hshown⟩ := exists_tokens_lines hruntime.identifier hnames
  choose! parts hparts using stands_groups hruntime
  have hall : ∀ statement ∈ artifact.groups.map fun group => (groupTokens group, parts group),
      Stands statement.1 statement.2 := by
    simpa using hparts
  have hparse := parse_of_stands (by simp [groups]) hall
  rw [List.flatMap_map, ← hshown] at hparse
  obtain ⟨module, hmodule, hplain⟩ := exists_parse_of_bare hparse
  refine ⟨module, ⟨?_, ?_⟩, defines_of_plain ?_⟩
  · have hmark : withoutMark (unlines artifact.lines) = unlines artifact.lines := rfl
    rw [Grammar.read, hmark, htokens]
    exact hmodule
  · refine Load.check_mixed?_of_text fun token htoken => ?_
    have hbare : token.bare ∈ artifact.groups.flatMap groupTokens ++ [mark .finish] := by
      rw [← hshown]
      exact List.mem_map_of_mem (leavesOf_of_parse hmodule ▸ htoken)
    rcases List.mem_append.1 hbare with hgroup | hfinish
    · obtain ⟨group, hgroup, hmem⟩ := List.mem_flatMap.1 hgroup
      exact isText_groups hruntime.identifier group hgroup token.bare hmem
    · cases token
      cases List.mem_singleton.1 hfinish
      rfl
  · have hgroup : runtimeGroup artifact.runtime.toList ∈ artifact.groups := by simp [groups]
    obtain ⟨children, hform, hstands⟩ := stands_runtimeGroup hruntime
    have hleaves := hstands.leaves
    obtain rfl := hstands.unique (hparts _ hgroup)
    have hmem : .node .statement (parts (runtimeGroup artifact.runtime.toList)) ∈ module.map Tree.plain := by
      rw [hplain]
      exact List.mem_append_left _ (List.mem_map.2 ⟨_, List.mem_map_of_mem hgroup, rfl⟩)
    obtain ⟨keyword, target, more, hchildren⟩ := exists_leaves_of_startsPlain hform
    rw [hchildren] at hmem hleaves
    obtain ⟨rfl, htail⟩ := List.cons.inj hleaves
    obtain ⟨rfl, -⟩ := List.cons.inj htail
    exact ⟨_, _, _, hmem, rfl, rfl, rfl, rfl⟩

end Bundler.Artifact
