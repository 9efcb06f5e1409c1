import Bundler.Proofs.Config.Anchoring
import Bundler.Proofs.Config.Loading
import Bundler.Proofs.Files.Elsewhere
import Bundler.Proofs.Processing.Faults

/-!
# Where a configuration is searched from and what is given for it

A configuration is the same wherever below its table it is searched from, unless the place cannot be searched
from: it has a null character, or on the way up the path of a file of settings is over-long. What is given for
one field makes no difference to another one (`load_nearest`).
-/

namespace Bundler

open Data

variable {π ω : Type}

theorem FilePath.exists_selfAndParents (path : FilePath) : ∃ rest, path.selfAndParents = path :: rest := by
  refine ⟨(List.range path.parts.length).map fun up =>
    ⟨path.anchor, path.parts.take (path.parts.length - (up + 1))⟩, ?_⟩
  rw [selfAndParents, List.range_succ_eq_map, List.map_cons, List.map_map, Nat.sub_zero, List.take_length]
  rfl

theorem FilePath.of_mem_selfAndParents {path directory : FilePath} (h : directory ∈ path.selfAndParents) :
    directory.anchor = path.anchor ∧ directory.parts <+: path.parts := by
  obtain ⟨up, -, rfl⟩ := List.mem_map.1 h
  exact ⟨rfl, List.take_prefix _ _⟩

theorem FilePath.resolve_rooted {cwd : FilePath} {parts : List Component} (hdown : Component.parent ∉ parts) :
    cwd.resolve ⟨.root, parts⟩ = ⟨.root, parts⟩ := by
  rw [resolve, join_of_isAbsolute rfl, settle, foldl_walk_names hdown, List.append_nil, List.reverse_reverse]

/-- A directory above a resolved path is resolved already. -/
theorem FilePath.resolve_of_mem_selfAndParents {cwd path directory : FilePath}
    (h : directory ∈ (cwd.resolve path).selfAndParents) : cwd.resolve directory = directory := by
  obtain ⟨hanchor, hparts⟩ := of_mem_selfAndParents h
  obtain ⟨anchor, parts⟩ := directory
  obtain rfl : anchor = .root := hanchor
  exact resolve_rooted fun hup => parent_notMem_settle (cwd.join path).parts (hparts.subset hup)

namespace Settings

variable {tree : FileTree} {start directory : FilePath} {own : Setting π ω} {given other : Overrides}
  {config changed : Config π ω} {failure : Failure}

/-! ### The nearest table -/

/-- The file of settings in a directory can be read, if there is one, and it has no table of the bundler. -/
def Lacks (π ω : Type) (tree : FileTree) (directory : FilePath) : Prop :=
  tree.isFile (directory.join fileName) = .ok true → ∃ fields : List (String × Setting π ω),
    document tree (directory.join fileName) = .ok fields ∧ (fieldOf? "tool" fields = none ∨
      ∃ tools, fieldOf? "tool" fields = some (.table tools) ∧ fieldOf? "minipack" tools = none)

/-- The directory is the nearest one above a place, or the place itself, that has the table. -/
def Nearest (tree : FileTree) (place directory : FilePath) (own : Setting π ω) : Prop :=
  Holds tree directory own ∧ ∃ before after, place.selfAndParents = before ++ directory :: after ∧
    ∀ passed ∈ before, Lacks π ω tree passed

/-- The place cannot be searched from. -/
inductive Barred (π ω : Type) (tree : FileTree) (start : FilePath) : Failure → Prop
  | null (hnull : start.hasNull = true) : Barred π ω tree start (.path .null)
  | overlong {passed} (hnull : start.hasNull = false)
      (hmeets : Meets π ω tree (tree.current.resolve start).selfAndParents passed)
      (hlong : tree.Overlong (passed.join fileName)) :
      Barred π ω tree start (.path (.system .nameTooLong (passed.join fileName)))

theorem passes_of_lacks (hlacks : Lacks π ω tree directory)
    (hshort : ¬ tree.Overlong (directory.join fileName)) : Passes π ω tree directory := by
  cases hfile : tree.isFile (directory.join fileName) with
  | error fault => exact absurd (FileTree.isFile_eq_error_iff.1 hfile).2 hshort
  | ok answer =>
    cases answer with
    | false => exact .inl hfile
    | true =>
      obtain ⟨fields, hdocument, htool⟩ := hlacks hfile
      refine .inr ⟨hfile, fields, hdocument, ?_⟩
      obtain hnone | ⟨tools, hsome, hown⟩ := htool
      · rw [hnone]
        rfl
      · rw [hsome, Option.getD_some, ownTable?, hown]

theorem passes_of_not_barred (hnull : start.hasNull = false)
    (hbarred : ∀ failure, ¬ Barred π ω tree start failure) {before after : List FilePath}
    (hplaces : (tree.current.resolve start).selfAndParents = before ++ after)
    (hlacks : ∀ passed ∈ before, Lacks π ω tree passed) : ∀ passed ∈ before, Passes π ω tree passed := by
  induction before using List.reverseRecOn generalizing after with
  | nil => simp
  | append_singleton front last ih =>
    rw [List.forall_mem_append, List.forall_mem_singleton] at hlacks
    rw [List.append_assoc, List.singleton_append] at hplaces
    have hfront := ih hplaces hlacks.1
    refine List.forall_mem_append.2 ⟨hfront, List.forall_mem_singleton.2 ?_⟩
    exact passes_of_lacks hlacks.2 fun hlong => hbarred _ (.overlong hnull ⟨front, after, hplaces, hfront⟩ hlong)

theorem hasNull_of_holds (h : Holds tree directory own) : directory.hasNull = false := by
  have hnull := (FileTree.isFile_iff.1 h.1).1
  rw [FilePath.join, if_neg (by decide +kernel), FilePath.hasNull, List.any_append, Bool.or_eq_false_iff]
    at hnull
  exact hnull.1

theorem load_of_barred (h : Barred π ω tree start failure) :
    (Config.load tree (some start) given : Except Failure (Config π ω)) = .error failure := by
  cases h with
  | null hnull => exact load_of_null hnull
  | overlong hnull hmeets hlong =>
    exact load_of_trips (FilePath.resolve?_eq_ok_iff.2 ⟨hnull, rfl⟩) hmeets (.overlong hlong)

theorem load_of_nearest (hnearest : Nearest tree (tree.current.resolve start) directory own)
    (hbarred : ∀ failure, ¬ Barred π ω tree start failure) :
    Config.load tree (some start) given
      = merge tree.current directory given own >>= Config.ofSetting tree.current := by
  obtain ⟨hholds, before, after, hplaces, hlacks⟩ := hnearest
  have hnull : start.hasNull = false := by
    by_contra hnull
    exact hbarred _ (.null (Bool.not_eq_false _ ▸ hnull))
  exact load_of_found (FilePath.resolve?_eq_ok_iff.2 ⟨hnull, rfl⟩)
    (.inl ⟨⟨before, _, hplaces, passes_of_not_barred hnull hbarred hplaces hlacks⟩, hholds⟩)

theorem load_of_nearest_self (hnearest : Nearest tree (tree.current.resolve start) directory own) :
    Config.load tree (some directory) given
      = merge tree.current directory given own >>= Config.ofSetting tree.current := by
  obtain ⟨hholds, before, after, hplaces, -⟩ := hnearest
  have hmem : directory ∈ (tree.current.resolve start).selfAndParents := by simp [hplaces]
  have hresolve := FilePath.resolve_of_mem_selfAndParents hmem
  obtain ⟨rest, hself⟩ := directory.exists_selfAndParents
  exact load_of_found (FilePath.resolve?_eq_ok_iff.2 ⟨hasNull_of_holds hholds, hresolve.symm⟩)
    (.inl ⟨⟨[], rest, hself, by simp⟩, hholds⟩)

/-! ### The table -/

theorem isNative_of_document {path : FilePath} {fields : List (String × Setting π ω)}
    (h : document tree path = .ok fields) : NativeFields fields := by
  rw [document] at h
  obtain ⟨bytes, -, h⟩ := bind_eq_ok_iff.1 h
  obtain ⟨text, -, h⟩ := bind_eq_ok_iff.1 h
  split at h
  · next hparse =>
    cases h
    exact Toml.isNative_of_parse hparse
  all_goals cases h

theorem isNative_of_holds (h : Holds tree directory own) : own.IsNative := by
  obtain ⟨-, fields, hdocument, hown⟩ := h
  have htool : ((fieldOf? "tool" fields).getD (.table [])).IsNative := by
    cases hfield : fieldOf? "tool" fields with
    | none => exact .table nativeFields_nil
    | some tool => exact (isNative_of_document hdocument).of_fieldOf? hfield
  unfold ownTable? at hown
  split at hown
  · next tools htools =>
    rw [htools] at htool
    exact (nativeFields_of_table htool).of_fieldOf? (Except.ok.inj hown)
  · split at hown <;> cases hown
  · split at hown <;> cases hown
  · cases hown

theorem isNative_of_found (h : Found tree start own directory) : own.IsNative := by
  obtain ⟨-, hholds⟩ | ⟨-, rfl, rfl⟩ := h
  · exact isNative_of_holds hholds
  · exact .table nativeFields_nil

/-! ### What is given -/

/-- Two configurations differ only in fields for which different things are given. -/
structure Alike (given other : Overrides) (config changed : Config π ω) : Prop where
  entries : given.entries = other.entries → config.entries = changed.entries
  directory : given.directory = other.directory → config.output.directory = changed.output.directory
  fileName : given.fileName? = other.fileName? → config.output.fileName = changed.output.fileName
  root : given.root = other.root → config.root = changed.root
  rules : config.rules = changed.rules
  plugins : config.plugins = changed.plugins
  naming : config.naming = changed.naming

theorem alike_of_anchored {cwd base : FilePath} {fields output : List (String × Setting π ω)}
    (hgiven : Overridden cwd given config) (hother : Overridden cwd other changed)
    (hconfig : Anchored base given fields output config)
    (hchanged : Anchored base other fields output changed) : Alike given other config changed where
  entries hsame := by
    by_cases hnone : given.entries = []
    · obtain ⟨written, hwritten, heq⟩ := hconfig.entries hnone
      obtain ⟨written', hwritten', heq'⟩ := hchanged.entries (hsame ▸ hnone)
      rw [heq, heq', Except.ok.inj (hwritten.symm.trans hwritten')]
    · rw [hgiven.entries hnone, hother.entries (hsame ▸ hnone), hsame]
  directory hsame := by
    cases hdirectory : given.directory with
    | some directory =>
      rw [hgiven.directory directory hdirectory, hother.directory directory (hsame ▸ hdirectory)]
    | none =>
      rcases hconfig.directory hdirectory with ⟨hpath, heq⟩ | ⟨value, written, hpath, hwritten, heq⟩
      · rcases hchanged.directory (hsame ▸ hdirectory) with ⟨-, heq'⟩ | ⟨value', -, hpath', -⟩
        · rw [heq, heq']
        · cases hpath.symm.trans hpath'
      · rcases hchanged.directory (hsame ▸ hdirectory) with ⟨hpath', -⟩ | ⟨value', written', hpath', hwritten', heq'⟩
        · cases hpath.symm.trans hpath'
        · obtain rfl := Option.some.inj (hpath.symm.trans hpath')
          rw [heq, heq', Except.ok.inj (hwritten.symm.trans hwritten')]
  fileName hsame := by
    cases hname : given.fileName? with
    | some name => rw [hgiven.fileName name hname, hother.fileName name (hsame ▸ hname)]
    | none => exact Except.ok.inj ((hconfig.fileName hname).symm.trans (hchanged.fileName (hsame ▸ hname)))
  root hsame := by
    cases hroot : given.root with
    | some root => rw [hgiven.root root hroot, hother.root root (hsame ▸ hroot)]
    | none =>
      obtain ⟨written, hwritten, heq⟩ := hconfig.root hroot
      obtain ⟨written', hwritten', heq'⟩ := hchanged.root (hsame ▸ hroot)
      rw [heq, heq', Except.ok.inj (hwritten.symm.trans hwritten')]
  rules := Except.ok.inj (hconfig.rules.symm.trans hchanged.rules)
  plugins := Except.ok.inj (hconfig.plugins.symm.trans hchanged.plugins)
  naming := by
    have hload := Except.ok.inj (hconfig.load.symm.trans hchanged.load)
    have hruntime := Except.ok.inj (hconfig.runtime.symm.trans hchanged.runtime)
    have hextension := Except.ok.inj (hconfig.extension.symm.trans hchanged.extension)
    have hcharacters := hconfig.characters.trans hchanged.characters.symm
    change Naming.mk config.naming.load config.naming.runtime config.naming.extension config.naming.characters
      = Naming.mk changed.naming.load changed.naming.runtime changed.naming.extension changed.naming.characters
    rw [hload, hruntime, hextension, hcharacters]

theorem exists_found_of_load {searched : Option FilePath} (h : Config.load tree searched given = .ok config) :
    ∃ base own, ∀ given : Overrides, (Config.load tree searched given : Except Failure (Config π ω))
      = merge tree.current base given own >>= Config.ofSetting tree.current ∧ own.IsNative := by
  by_cases hnull : (searched.getD tree.current).hasNull = true
  · rw [load_of_null hnull] at h
    cases h
  have hstart : tree.current.resolve? (searched.getD tree.current)
      = .ok (tree.current.resolve (searched.getD tree.current)) := if_neg hnull
  rcases found_or π ω tree (tree.current.resolve (searched.getD tree.current)) with
    ⟨own, base, hfound⟩ | ⟨place, failure, hmeets, htrips⟩
  · exact ⟨base, own, fun given => ⟨load_of_found hstart hfound, isNative_of_found hfound⟩⟩
  · rw [load_of_trips hstart hmeets htrips] at h
    cases h

theorem alike_of_load {searched : Option FilePath} (hconfig : Config.load tree searched given = .ok config)
    (hchanged : Config.load tree searched other = .ok changed) :
    Overridden tree.current given config ∧ Alike given other config changed := by
  obtain ⟨base, own, hload⟩ := exists_found_of_load hconfig
  rw [(hload given).1] at hconfig
  rw [(hload other).1] at hchanged
  have hnative : own.IsNative := (hload given).2
  obtain ⟨hgiven, fields, output, hown, houtput, hanchored⟩ := anchored_of_merge hnative hconfig
  obtain ⟨hother, fields', output', hown', houtput', hanchored'⟩ := anchored_of_merge hnative hchanged
  obtain rfl := Except.ok.inj (hown.symm.trans hown')
  obtain rfl := Except.ok.inj (houtput.symm.trans houtput')
  exact ⟨hgiven, alike_of_anchored hgiven hother hanchored hanchored'⟩

/-- What is given for a field is in force there and makes no difference to other fields. Loading from a place
below the nearest table does what loading from the directory of the table does, unless the place cannot be
searched from; and the paths in the table are seen from its directory. -/
theorem load_nearest (π ω : Type) (tree : FileTree) :
    (∀ (searched : Option FilePath) (given other : Overrides) (config changed : Config π ω),
      Config.load tree searched given = .ok config → Config.load tree searched other = .ok changed →
      Overridden tree.current given config ∧ Alike given other config changed) ∧
    ∀ (start directory : FilePath) (own : Setting π ω),
      Nearest tree (tree.current.resolve start) directory own → ∀ given : Overrides,
      (∀ failure, Barred π ω tree start failure →
        (Config.load tree (some start) given : Except Failure (Config π ω)) = .error failure) ∧
      ((∀ failure, ¬ Barred π ω tree start failure) → (Config.load tree (some start) given :
        Except Failure (Config π ω)) = Config.load tree (some directory) given) ∧
      ∀ config, Config.load tree (some start) given = .ok config → ∃ fields output,
        asTable own = .ok fields ∧ asTable ((fieldOf? "output" fields).getD (.table [])) = .ok output ∧
        Anchored directory given fields output config := by
  refine ⟨fun searched given other config changed => alike_of_load, fun start directory own hnearest given =>
    ⟨fun failure => load_of_barred, fun hbarred => ?_, fun config hconfig => ?_⟩⟩
  · rw [load_of_nearest hnearest hbarred, load_of_nearest_self hnearest]
  · have hbarred : ∀ failure, ¬ Barred π ω tree start failure := by
      intro failure hbarred
      cases hconfig.symm.trans (load_of_barred hbarred)
    rw [load_of_nearest hnearest hbarred] at hconfig
    exact (anchored_of_merge (isNative_of_holds hnearest.1) hconfig).2

/-! ### Two places to search from -/

/-- A place can be searched from if for each directory it can be told whether it has a file of settings. -/
theorem not_barred_of_isFile (hnull : start.hasNull = false)
    (hfile : ((tree.current.resolve start).selfAndParents.all fun place =>
      (tree.isFile (place.join fileName)).isOk) = true) : ∀ failure, ¬ Barred π ω tree start failure := by
  rintro failure (hnull' | ⟨-, ⟨before, after, hplaces, -⟩, hlong⟩)
  · cases hnull.symm.trans hnull'
  · have hok := List.all_eq_true.1 hfile
    rw [hplaces, List.forall_mem_append, List.forall_mem_cons] at hok
    have hok := hok.2.1
    rw [FileTree.isFile_eq_error_iff.2 ⟨rfl, hlong⟩] at hok
    cases hok

/-- A search of one directory alone tells whether it has the table. -/
theorem exists_holds_of_search (h : ((search tree [directory] :
      Except Failure (Option (Setting π ω × FilePath))).toOption.join).isSome = true) :
    ∃ own : Setting π ω, Holds tree directory own := by
  rcases passes_or π ω tree directory with hpasses | hholds | ⟨failure, htrips⟩
  · rw [search_of_passes hpasses] at h
    cases h
  · exact hholds
  · rw [search_of_trips htrips] at h
    cases h

/-- An empty file of settings has no table. -/
theorem lacks_of_isEmpty (h : (document tree (directory.join fileName) :
      Except Failure (List (String × Setting π ω))).toOption.map List.isEmpty = some true) :
    Lacks π ω tree directory := by
  obtain ⟨fields, hfields, hempty⟩ := Option.map_eq_some_iff.1 h
  obtain rfl := List.isEmpty_iff.1 hempty
  exact fun _ => ⟨[], ok_of_toOption hfields, .inl rfl⟩

def projectName : Component := ⟨"p", by decide⟩

theorem isComponent_settings : isComponent "pyproject.toml" = true := by
  decide +kernel

/-- A project whose table names an entry above it, and a directory in it with an empty file of settings. -/
def nestedTree : FileTree where
  current := .root
  nodes := [([projectName], .directory),
    ([projectName, ⟨"pyproject.toml", isComponent_settings⟩],
      .file "[tool.minipack]\nentry = \"../a.py\"\n".toUTF8),
    ([projectName, ⟨"q", by decide⟩], .directory),
    ([projectName, ⟨"q", by decide⟩, ⟨"pyproject.toml", isComponent_settings⟩], .file .empty)]

theorem exists_holds_nested : ∃ own : Setting Unit Unit, Holds nestedTree (.ofString "/p") own :=
  exists_holds_of_search (by decide +kernel)

theorem load_nearest_nested : ∃ (own : Setting Unit Unit) (config plain : Config Unit Unit),
    Nearest nestedTree (.ofString "/p/q") (.ofString "/p") own ∧
      Config.load nestedTree (some (.ofString "/p/q")) { root := some (.ofString "r") } = .ok config ∧
      Config.load nestedTree (some (.ofString "/p")) { root := some (.ofString "r") } = .ok config ∧
      Config.load nestedTree (some (.ofString "/p/q")) {} = .ok plain ∧
      config.root = .ofString "/r" ∧ plain.root = .ofString "/p" ∧ config.entries = plain.entries ∧
      plain.entries = [("main", .ofString "/a.py")] := by
  obtain ⟨own, hholds⟩ := exists_holds_nested
  have hresolve : nestedTree.current.resolve (.ofString "/p/q") = .ofString "/p/q" := by decide +kernel
  have hresolveRoot : nestedTree.current.resolve (.ofString "r") = .ofString "/r" := by decide +kernel
  have hlacks : Lacks Unit Unit nestedTree (.ofString "/p/q") := lacks_of_isEmpty (by decide +kernel)
  have hplaces : FilePath.selfAndParents (.ofString "/p/q")
      = [.ofString "/p/q"] ++ .ofString "/p" :: [.root] := by decide +kernel
  have hnearest : Nearest nestedTree (.ofString "/p/q") (.ofString "/p") own :=
    ⟨hholds, _, _, hplaces, List.forall_mem_singleton.2 hlacks⟩
  have hbarred : ∀ failure, ¬ Barred Unit Unit nestedTree (.ofString "/p/q") failure :=
    not_barred_of_isFile (by decide +kernel) (by decide +kernel)
  have hplain : (Config.load nestedTree (some (.ofString "/p/q")) {} :
      Except Failure (Config Unit Unit)).toOption.map (fun config => (config.root, config.entries))
        = some (.ofString "/p", [("main", .ofString "/a.py")]) := by decide +kernel
  have hgiven : (Config.load nestedTree (some (.ofString "/p/q")) { root := some (.ofString "r") } :
      Except Failure (Config Unit Unit)).toOption.isSome = true := by decide +kernel
  obtain ⟨plain, hload, hplain⟩ := Option.map_eq_some_iff.1 hplain
  obtain ⟨config, hload'⟩ := Option.isSome_iff_exists.1 hgiven
  have hload := ok_of_toOption hload
  have hload' := ok_of_toOption hload'
  obtain ⟨hroot, hentries⟩ := Prod.mk.inj hplain
  obtain ⟨hgivenFor, hsearched⟩ := load_nearest Unit Unit nestedTree
  obtain ⟨hin, halike⟩ := hgivenFor _ _ _ _ _ hload' hload
  have hsame := (hsearched (.ofString "/p/q") (.ofString "/p") own (by rw [hresolve]; exact hnearest)
    { root := some (.ofString "r") }).2.1 hbarred
  exact ⟨own, config, plain, hnearest, hload', hsame.symm.trans hload', hload,
    (hin.root _ rfl).trans hresolveRoot, hroot, halike.entries rfl, hentries⟩
theorem notMem_lettersName (more : Nat) : '\x00' ∉ (Processing.lettersName more).text.toList := by
  simp [Processing.lettersName]

def overlongName : Component := Processing.lettersName 255

theorem nameLimit_lt_overlongName : FileTree.nameLimit < overlongName.text.utf8ByteSize := by decide +kernel

def overlongPlace : FilePath := ⟨.root, [projectName, overlongName]⟩

theorem hasNull_overlongPlace : overlongPlace.hasNull = false := by
  have hname : overlongName.text.toList.contains '\x00' = false := by
    simpa [overlongName] using notMem_lettersName 255
  simp only [FilePath.hasNull, overlongPlace, List.any_cons, List.any_nil, hname]
  decide

theorem overlong_overlongPlace : nestedTree.Overlong (overlongPlace.join fileName) := by
  have hproject : nestedTree.follow [] [projectName] = .ok (.taken [projectName] .directory) := rfl
  have hjoin : overlongPlace.join fileName = ⟨.root, [projectName, overlongName] ++ fileName.parts⟩ :=
    if_neg (by decide +kernel)
  rw [hjoin]
  refine ⟨?_, .inr ⟨[projectName], overlongName, fileName.parts, _, rfl, hproject, nameLimit_lt_overlongName⟩⟩
  rw [FilePath.hasNull, List.any_append, Bool.or_eq_false_iff]
  exact ⟨hasNull_overlongPlace, by decide +kernel⟩

/-- From a place with too long a name the table above it is not found. -/
theorem load_nearest_overlong : ∃ (own : Setting Unit Unit) (config : Config Unit Unit),
    Nearest nestedTree (nestedTree.current.resolve overlongPlace) (.ofString "/p") own ∧
      Config.load nestedTree (some (.ofString "/p")) {} = .ok config ∧
      (Config.load nestedTree (some overlongPlace) {} : Except Failure (Config Unit Unit))
        = .error (.path (.system .nameTooLong (overlongPlace.join fileName))) := by
  obtain ⟨own, hholds⟩ := exists_holds_nested
  have hproject : FilePath.ofString "/p" = ⟨.root, [projectName]⟩ := by decide +kernel
  have hname : Component.parent ≠ overlongName := fun h => absurd nameLimit_lt_overlongName (h ▸ by decide)
  have hdown : Component.parent ∉ [projectName, overlongName] := by
    rw [List.mem_cons, List.mem_singleton, not_or]
    exact ⟨by decide, hname⟩
  have hresolve : nestedTree.current.resolve overlongPlace = overlongPlace := FilePath.resolve_rooted hdown
  have hlacks : Lacks Unit Unit nestedTree overlongPlace := fun hfile =>
    (nomatch (FileTree.isFile_eq_error_iff.2 ⟨rfl, overlong_overlongPlace⟩).symm.trans hfile)
  have hplaces : overlongPlace.selfAndParents = [overlongPlace] ++ .ofString "/p" :: [.root] := by
    rw [hproject]
    rfl
  have hload : (Config.load nestedTree (some (.ofString "/p")) {} :
      Except Failure (Config Unit Unit)).toOption.isSome = true := by decide +kernel
  obtain ⟨config, hload⟩ := Option.isSome_iff_exists.1 hload
  have htrips : Trips Unit Unit nestedTree overlongPlace
      (.path (.system .nameTooLong (overlongPlace.join fileName))) := .overlong overlong_overlongPlace
  have hstart : nestedTree.current.resolve? overlongPlace = .ok overlongPlace :=
    FilePath.resolve?_eq_ok_iff.2 ⟨hasNull_overlongPlace, hresolve.symm⟩
  have hmeets : Meets Unit Unit nestedTree overlongPlace.selfAndParents overlongPlace :=
    ⟨[], _, hplaces, by simp⟩
  exact ⟨own, config, ⟨hholds, _, _, by rw [hresolve, hplaces], List.forall_mem_singleton.2 hlacks⟩,
    ok_of_toOption hload, load_of_trips hstart hmeets htrips⟩

end Settings
end Bundler
