import Bundler.Proofs.Config.Checking
import Bundler.Proofs.Config.Merging
import Bundler.Proofs.Data.Documents
import Bundler.Proofs.Files.Places

/-!
# Where the fields of a configuration come from

The settings of a table and what a caller gives make a configuration. Each of its fields is what is given for
it, if anything is (`Overridden`), or else what the table says, a path as it is seen from the directory of the
table (`Anchored`).
-/

namespace Bundler

open Data

variable {π ω : Type}

/-- The file name that is given. An empty one counts as none. -/
def Overrides.fileName? (given : Overrides) : Option String := given.fileName.filter (· ≠ "")

namespace Settings

def placed (base path : FilePath) : FilePath := if path.isAbsolute then path else base.resolve path

variable {cwd base path : FilePath} {place : List Step} {value result own : Setting π ω}
  {fields output : List (String × Setting π ω)} {config changed : Config π ω} {given other : Overrides}

/-! ### Paths that are seen from a directory -/

theorem eq_placed_of_anchored {seen : FilePath} (h : anchored base path = .ok seen) :
    seen = placed base path := by
  rw [anchored] at h
  rw [placed]
  split at h
  · next habsolute =>
    rw [if_pos habsolute]
    exact (Except.ok.inj h).symm
  · next habsolute =>
    rw [if_neg habsolute]
    exact (FilePath.resolve?_eq_ok_iff.1 (mapError_eq_ok_iff.1 h)).2

theorem asPath_of_anchor (hanchor : anchor base value = .ok result)
    (hpath : Config.asPath place result = .ok path) :
    ∃ written, Config.asPath [] value = .ok written ∧ path = placed base written := by
  unfold anchor at hanchor
  split at hanchor
  · next text =>
    obtain ⟨seen, hseen, rfl⟩ := map_eq_ok_iff.1 hanchor
    cases hpath
    exact ⟨_, rfl, eq_placed_of_anchored hseen⟩
  · next written =>
    obtain ⟨seen, hseen, rfl⟩ := map_eq_ok_iff.1 hanchor
    cases hpath
    exact ⟨_, rfl, eq_placed_of_anchored hseen⟩
  · next hstring hforeign =>
    cases hanchor
    obtain ⟨text, rfl, -⟩ | rfl := Config.asPath_eq_ok_iff.1 hpath
    · exact absurd rfl (hstring text)
    · exact absurd rfl (hforeign path)

def placedEntries (base : FilePath) (entries : List (String × FilePath)) : List (String × FilePath) :=
  entries.map fun entry => (entry.1, placed base entry.2)

theorem checkEntryNames_eq_ok_iff {entries found : List (String × FilePath)} :
    Config.checkEntryNames place entries = .ok found ↔
      (∀ entry ∈ entries, Config.isEntryName entry.1 = true) ∧ found = entries := by
  unfold Config.checkEntryNames
  split
  · next hfind =>
    have hbad := List.find?_some hfind
    simp only [Checked.fail, reduceCtorEq, false_iff, not_and]
    intro hnames
    exact absurd (hnames _ (List.mem_of_find?_eq_some hfind)) (by simpa using hbad)
  · next hfind =>
    rw [List.find?_eq_none] at hfind
    have hnames : ∀ entry ∈ entries, Config.isEntryName entry.1 = true := by simpa using hfind
    rw [and_iff_right hnames, Except.ok.injEq, eq_comm]

theorem asEntries_table_eq_ok_iff {entries : List (String × FilePath)} :
    Config.asEntries place (.table fields) = .ok entries ↔ fields ≠ [] ∧
      List.Forall₂ (fun field entry => entry.1 = field.1 ∧ Config.asPath [] field.2 = .ok entry.2)
        fields entries ∧ ∀ entry ∈ entries, Config.isEntryName entry.1 = true := by
  have hread : ∀ (field : String × Setting π ω) (entry : String × FilePath),
      (Config.asPath (place ++ [.field field.1]) field.2).map (field.1, ·) = .ok entry ↔
        entry.1 = field.1 ∧ Config.asPath [] field.2 = .ok entry.2 := by
    rintro field ⟨name, path⟩
    simp only [map_eq_ok_iff, Config.asPath_eq_ok_iff, Prod.mk.injEq]
    constructor
    · rintro ⟨path, hpath, rfl, rfl⟩
      exact ⟨rfl, hpath⟩
    · rintro ⟨rfl, hpath⟩
      exact ⟨path, hpath, rfl, rfl⟩
  cases fields with
  | nil => simp [Config.asEntries, Checked.fail]
  | cons first rest =>
    unfold Config.asEntries
    simp only [bind_eq_ok_iff, Checked.all_eq_ok_iff, checkEntryNames_eq_ok_iff,
      List.forall₂_map_left_iff, hread]
    simp only [ne_eq, reduceCtorEq, not_false_eq_true, true_and]
    constructor
    · rintro ⟨found, hfound, hnames, rfl⟩
      exact ⟨hfound, hnames⟩
    · rintro ⟨hentries, hnames⟩
      exact ⟨entries, hentries, hnames, rfl⟩

theorem exists_written_of_anchor {seen : List (String × Setting π ω)} {entries : List (String × FilePath)}
    (hseen : List.Forall₂ (fun (field seen : String × Setting π ω) =>
      (do return (field.1, ← anchor base field.2) : Except Failure _) = .ok seen) fields seen)
    (hread : List.Forall₂ (fun (seen : String × Setting π ω) (entry : String × FilePath) =>
      entry.1 = seen.1 ∧ Config.asPath [] seen.2 = .ok entry.2) seen entries) :
    ∃ written, List.Forall₂ (fun (field : String × Setting π ω) (entry : String × FilePath) =>
      entry.1 = field.1 ∧ Config.asPath [] field.2 = .ok entry.2) fields written ∧
      entries = placedEntries base written := by
  induction hseen generalizing entries with
  | nil =>
    cases hread
    exact ⟨[], .nil, rfl⟩
  | cons hfirst hrest ih =>
    obtain ⟨value, hvalue, hfirst⟩ := bind_eq_ok_iff.1 hfirst
    cases hfirst
    obtain ⟨⟨name, path⟩, more, ⟨rfl, hpath⟩, hmore, rfl⟩ := List.forall₂_cons_left_iff.1 hread
    obtain ⟨written, hwritten, rfl⟩ := asPath_of_anchor hvalue hpath
    obtain ⟨others, hothers, rfl⟩ := ih hmore
    exact ⟨(_, written) :: others, .cons ⟨rfl, hwritten⟩ hothers, rfl⟩

theorem asEntries_of_anchorEntries {entries : List (String × FilePath)} (hnative : value.IsNative)
    (hanchor : anchorEntries base value = .ok result)
    (hentries : Config.asEntries place result = .ok entries) :
    ∃ written, Config.asEntries place value = .ok written ∧ entries = placedEntries base written := by
  unfold anchorEntries at hanchor
  split at hanchor
  · next text =>
    obtain ⟨seen, hseen, hanchor⟩ := bind_eq_ok_iff.1 hanchor
    cases hanchor
    obtain ⟨-, hread, -⟩ := asEntries_table_eq_ok_iff.1 hentries
    obtain ⟨entry, more, ⟨hname, hpath⟩, hmore, rfl⟩ := List.forall₂_cons_left_iff.1 hread
    cases hmore
    obtain ⟨written, hwritten, hplaced⟩ := asPath_of_anchor hseen hpath
    cases hwritten
    exact ⟨_, rfl, by rw [placedEntries, List.map_singleton, ← hplaced, ← hname]⟩
  · next fields =>
    obtain ⟨seen, hseen, hanchor⟩ := bind_eq_ok_iff.1 hanchor
    cases hanchor
    obtain ⟨hne, hread, hnames⟩ := asEntries_table_eq_ok_iff.1 hentries
    have hseen := mapM_eq_ok_iff.1 hseen
    obtain ⟨written, hwritten, rfl⟩ := exists_written_of_anchor hseen hread
    refine ⟨written, asEntries_table_eq_ok_iff.2 ⟨?_, hwritten, fun entry hentry => ?_⟩, rfl⟩
    · rintro rfl
      cases hseen
      exact hne rfl
    · exact hnames (entry.1, placed base entry.2) (List.mem_map_of_mem hentry)
  · next hstring htable =>
    cases hanchor
    cases hnative with
    | string text => exact absurd rfl (hstring text)
    | table h => exact absurd rfl (htable _)
    | _ => cases hentries

/-! ### Settings in force -/

theorem fieldOf?_setOption {name key : String} {found : Option (Setting π ω)} :
    fieldOf? key (setOption name found fields)
      = if key = name then found.or (fieldOf? name fields) else fieldOf? key fields := by
  cases found with
  | none =>
    rw [setOption]
    split
    · next hkey => rw [hkey, Option.none_or]
    · rfl
  | some value => rw [setOption, fieldOf?_setField, Option.some_or]

/-- The settings in force are those of the table, with a root, with entries and with a place of the result. -/
theorem exists_of_merge {settings : Setting π ω} (h : merge cwd base given own = .ok settings) :
    ∃ fields root entries output, asTable own = .ok fields ∧ rootOf cwd base given.root fields = .ok root ∧
      entriesOf base given.entries fields = .ok entries ∧ outputOf base given fields = .ok output ∧
      settings = .table (setField "output" output (setOption "entry" entries (setField "root" root fields))) := by
  rw [merge] at h
  obtain ⟨fields, hown, h⟩ := bind_eq_ok_iff.1 h
  obtain ⟨root, hroot, h⟩ := bind_eq_ok_iff.1 h
  obtain ⟨entries, hentries, h⟩ := bind_eq_ok_iff.1 h
  obtain ⟨output, houtput, h⟩ := bind_eq_ok_iff.1 h
  exact ⟨fields, root, entries, output, mapError_eq_ok_iff.1 hown, hroot, hentries, houtput, (Except.ok.inj h).symm⟩

/-- What is given for a configuration is in it. -/
structure Overridden (cwd : FilePath) (given : Overrides) (config : Config π ω) : Prop where
  entries : given.entries ≠ [] → config.entries = given.entries
  directory : ∀ directory, given.directory = some directory → config.output.directory = directory
  fileName : ∀ name, given.fileName? = some name → config.output.fileName = name
  root : ∀ root, given.root = some root → config.root = cwd.resolve root

/-- What is not given for a configuration is as the table and its part for the result say. Paths are seen from
the directory of the table. -/
structure Anchored (base : FilePath) (given : Overrides) (fields output : List (String × Setting π ω))
    (config : Config π ω) : Prop where
  entries : given.entries = [] → ∃ written,
    Config.field [] "entry" Config.asEntries fields = .ok written ∧ config.entries = placedEntries base written
  directory : given.directory = none →
    fieldOf? "path" output = none ∧ config.output.directory = ({} : OutputOptions).directory ∨
      ∃ value written, fieldOf? "path" output = some value ∧ Config.asPath [] value = .ok written ∧
        config.output.directory = placed base written
  fileName : given.fileName? = none →
    Config.fieldOr ({} : OutputOptions).fileName [.field "output"] "filename" Config.asText output
      = .ok config.output.fileName
  root : given.root = none → ∃ written,
    Config.asPath [] ((fieldOf? "root" fields).getD (.string ".")) = .ok written ∧
      config.root = placed base written
  rules : Config.fieldOr [] [] "rules" Config.asRules fields = .ok config.rules
  plugins : Config.fieldOr [] [] "plugins" Config.asPlugins fields = .ok config.plugins
  load : Config.fieldOr ({} : Naming).load [] "load_function" Config.asIdentifier fields
    = .ok config.naming.load
  runtime : Config.fieldOr ({} : Naming).runtime [] "runtime_function" Config.asIdentifier fields
    = .ok config.naming.runtime
  extension : Config.fieldOr ({} : Naming).extension [] "default_extension" Config.asExtension fields
    = .ok config.naming.extension
  characters : config.naming.characters = .standard

/-! ### The overridden fields -/

theorem root_of_rootOf (hroot : rootOf cwd base given.root fields = .ok value)
    (hpath : Config.asPath place value = .ok path) :
    (∀ root, given.root = some root → path = cwd.resolve root) ∧ (given.root = none → ∃ written,
      Config.asPath [] ((fieldOf? "root" fields).getD (.string ".")) = .ok written ∧
        path = placed base written) := by
  unfold rootOf at hroot
  split at hroot
  · next root hgiven =>
    obtain ⟨seen, hseen, rfl⟩ := map_eq_ok_iff.1 (mapError_eq_ok_iff.1 hroot)
    obtain rfl := (FilePath.resolve?_eq_ok_iff.1 hseen).2
    cases hpath
    exact ⟨fun other hother => by rw [Option.some.inj (hgiven.symm.trans hother)],
      fun hnone => (nomatch hgiven.symm.trans hnone)⟩
  · next hgiven =>
    exact ⟨fun root hsome => (nomatch hgiven.symm.trans hsome), fun _ => asPath_of_anchor hroot hpath⟩

theorem asEntries_ofPath {entries found : List (String × FilePath)}
    (h : Config.asEntries place
      (.table (entries.map fun entry => (entry.1, @ofPath π ω entry.2))) = .ok found) : found = entries := by
  obtain ⟨-, hread, -⟩ := asEntries_table_eq_ok_iff.1 h
  rw [List.forall₂_map_left_iff] at hread
  have hsame : List.Forall₂ (· = ·) entries found := by
    refine hread.imp fun entry same hentry => Prod.ext hentry.1.symm ?_
    exact Except.ok.inj hentry.2
  rw [List.forall₂_eq_eq_eq] at hsame
  exact hsame.symm

theorem entries_of_entriesOf {found : Option (Setting π ω)} {merged : List (String × Setting π ω)}
    {entries : List (String × FilePath)} (hfields : NativeFields fields)
    (hfound : entriesOf base given.entries fields = .ok found)
    (hmerged : fieldOf? "entry" merged = found.or (fieldOf? "entry" fields))
    (hentries : Config.field [] "entry" Config.asEntries merged = .ok entries) :
    (given.entries ≠ [] → entries = given.entries) ∧ (given.entries = [] → ∃ written,
      Config.field [] "entry" Config.asEntries fields = .ok written ∧ entries = placedEntries base written) := by
  unfold entriesOf at hfound
  rw [Config.field, hmerged] at hentries
  split at hfound
  · next hnone =>
    refine ⟨fun hgiven => absurd hnone hgiven, fun _ => ?_⟩
    cases hfield : fieldOf? "entry" fields with
    | none =>
      rw [hfield] at hfound hentries
      cases hfound
      cases hentries
    | some value =>
      rw [hfield, Option.mapM_some] at hfound
      obtain ⟨seen, hseen, rfl⟩ : ∃ seen, anchorEntries base value = .ok seen ∧ found = some seen :=
        map_eq_ok_iff.1 hfound
      rw [Option.some_or] at hentries
      obtain ⟨written, hwritten, hplaced⟩ :=
        asEntries_of_anchorEntries (hfields.of_fieldOf? hfield) hseen hentries
      exact ⟨written, by rw [Config.field, hfield]; exact hwritten, hplaced⟩
  · next hgiven =>
    cases hfound
    exact ⟨fun _ => asEntries_ofPath hentries, fun hnone => absurd hnone hgiven⟩

theorem eq_of_fileName (h : (match given.fileName with
      | some name => pure (.table (if name = "" then output else setField "filename" (.string name) output))
      | none => pure (.table output) : Except Failure (Setting π ω)) = .ok value) :
    value = .table (setOption "filename" (given.fileName?.map .string) output) := by
  unfold Overrides.fileName?
  split at h
  · next name hname =>
    by_cases hempty : name = "" <;>
      simp_all [setOption, pure, Except.pure, Option.filter, eq_comm]
  · next hname => simp_all [setOption, pure, Except.pure, eq_comm]

/-- The fields of the place of the result: the directory that is given or that of the table, which may be none,
as it is seen, and the file name that is given or that of the table. -/
theorem exists_of_outputOf (h : outputOf base given fields = .ok value) : ∃ output placedOutput,
    asTable ((fieldOf? "output" fields).getD (.table [])) = .ok output ∧ value = .table placedOutput ∧
      (∀ directory, given.directory = some directory →
        fieldOf? "path" placedOutput = some (ofPath directory)) ∧
      (given.directory = none → fieldOf? "path" output = none ∧ fieldOf? "path" placedOutput = none ∨
        ∃ path seen, fieldOf? "path" output = some path ∧ anchor base path = .ok seen ∧
          fieldOf? "path" placedOutput = some seen) ∧
      fieldOf? "filename" placedOutput = (given.fileName?.map .string).or (fieldOf? "filename" output) := by
  have hother : "filename" ≠ "path" := by decide
  rw [outputOf] at h
  obtain ⟨output, houtput, h⟩ := bind_eq_ok_iff.1 h
  refine ⟨output, ?_⟩
  simp only at h
  split at h
  · next directory _ hgiven =>
    refine ⟨_, mapError_eq_ok_iff.1 houtput, eq_of_fileName h, fun other hsome => ?_,
      fun hnone => (nomatch hgiven.symm.trans hnone), ?_⟩
    · obtain rfl := Option.some.inj (hgiven.symm.trans hsome)
      rw [fieldOf?_setOption, if_neg hother.symm, fieldOf?_setField, if_pos rfl]
    · rw [fieldOf?_setOption, if_pos rfl, fieldOf?_setField, if_neg hother]
  · next path hgiven hpath =>
    obtain ⟨seen, hseen, h⟩ := bind_eq_ok_iff.1 h
    refine ⟨_, mapError_eq_ok_iff.1 houtput, eq_of_fileName h,
      fun other hsome => (nomatch hgiven.symm.trans hsome), fun _ => .inr ⟨path, seen, hpath, hseen, ?_⟩, ?_⟩
    · rw [fieldOf?_setOption, if_neg hother.symm, fieldOf?_setField, if_pos rfl]
    · rw [fieldOf?_setOption, if_pos rfl, fieldOf?_setField, if_neg hother]
  · next hgiven hpath =>
    refine ⟨_, mapError_eq_ok_iff.1 houtput, eq_of_fileName h,
      fun other hsome => (nomatch hgiven.symm.trans hsome), fun _ => .inl ⟨hpath, ?_⟩, ?_⟩
    · rw [fieldOf?_setOption, if_neg hother.symm, hpath]
    · rw [fieldOf?_setOption, if_pos rfl]

theorem output_of_outputOf (hvalue : outputOf base given fields = .ok value) {options : OutputOptions}
    (hoptions : Config.asOutput [.field "output"] value = .ok options) :
    (∀ directory, given.directory = some directory → options.directory = directory) ∧
      (∀ name, given.fileName? = some name → options.fileName = name) ∧ ∃ output,
      asTable ((fieldOf? "output" fields).getD (.table [])) = .ok output ∧
      (given.directory = none →
        fieldOf? "path" output = none ∧ options.directory = ({} : OutputOptions).directory ∨
          ∃ value written, fieldOf? "path" output = some value ∧ Config.asPath [] value = .ok written ∧
            options.directory = placed base written) ∧
      (given.fileName? = none → Config.fieldOr ({} : OutputOptions).fileName [.field "output"] "filename"
        Config.asText output = .ok options.fileName) := by
  obtain ⟨output, placedOutput, houtput, rfl, hgiven, hnone, hfileName⟩ := exists_of_outputOf hvalue
  obtain ⟨hdirectory, hname⟩ := Config.asOutput_table_eq_ok_iff.1 hoptions
  rw [Config.fieldOr] at hdirectory
  refine ⟨fun directory hsome => ?_, fun name hsome => ?_, output, houtput, fun hnot => ?_, fun hnot => ?_⟩
  · rw [hgiven directory hsome] at hdirectory
    exact (Except.ok.inj hdirectory).symm
  · rw [Config.fieldOr, hfileName, hsome] at hname
    exact (Except.ok.inj hname).symm
  · rcases hnone hnot with ⟨hpath, hplaced⟩ | ⟨path, seen, hpath, hseen, hplaced⟩
    · rw [hplaced] at hdirectory
      exact .inl ⟨hpath, (Except.ok.inj hdirectory).symm⟩
    · rw [hplaced] at hdirectory
      obtain ⟨written, hwritten, heq⟩ := asPath_of_anchor hseen hdirectory
      exact .inr ⟨path, written, hpath, hwritten, heq⟩
  · rw [Config.fieldOr, hfileName, hnot, Option.map_none, Option.none_or] at hname
    exact hname

/-! ### The configuration -/

theorem isNative_of_pairOf {index : Nat} {found : String × Setting π ω} (hvalue : value.IsNative)
    (h : pairOf index value = .ok (some found)) : found.2.IsNative := by
  -- the value is one of the parts, whatever the parts are
  have hparts : ∃ parts : List (Setting π ω), found.2 ∈ parts ∧ ∀ part ∈ parts, part.IsNative := by
    unfold pairOf at h
    simp only [bind, Except.bind] at h
    split at h
    · next items =>
      refine ⟨items, ?_, isNative_of_list hvalue⟩
      split at h <;> cases h
      simp
    · next text =>
      refine ⟨text.toList.map fun c => .string c.toString, ?_, List.forall_mem_map.2 fun _ _ => .string _⟩
      split at h <;> cases h
      next hparts =>
        rw [hparts]
        simp
    · next fields =>
      refine ⟨fields.map fun field => .string field.1, ?_, List.forall_mem_map.2 fun _ _ => .string _⟩
      split at h <;> cases h
      next hparts =>
        rw [hparts]
        simp
    · cases h
  obtain ⟨parts, hmem, hnative⟩ := hparts
  exact hnative _ hmem

theorem nativeFields_of_tableOfPairs {pairs : List (Setting π ω × Nat)} {known : List (String × Setting π ω)}
    (hpairs : ∀ pair ∈ pairs, pair.1.IsNative) (hknown : NativeFields known)
    (h : tableOfPairs pairs known = .ok fields) : NativeFields fields := by
  induction pairs generalizing known with
  | nil =>
    cases h
    exact hknown
  | cons pair rest ih =>
    rw [List.forall_mem_cons] at hpairs
    rw [tableOfPairs] at h
    obtain ⟨found, hfound, h⟩ := bind_eq_ok_iff.1 h
    cases found with
    | none => exact ih hpairs.2 hknown h
    | some found => exact ih hpairs.2 (hknown.setField (isNative_of_pairOf hpairs.1 hfound)) h

theorem nativeFields_of_asTable (hnative : own.IsNative) (h : asTable own = .ok fields) :
    NativeFields fields := by
  unfold asTable at h
  split at h
  · cases h
    exact nativeFields_of_table hnative
  · refine nativeFields_of_tableOfPairs (fun pair hpair => ?_) nativeFields_nil h
    exact isNative_of_list hnative pair.1 (List.fst_mem_of_mem_zipIdx hpair)
  · split at h
    · cases h
      exact nativeFields_nil
    · cases h
  · cases h

theorem fieldOf?_inForce {root output : Setting π ω} {entries : Option (Setting π ω)} {name : String} :
    fieldOf? name (setField "output" output (setOption "entry" entries (setField "root" root fields)))
      = if name = "output" then some output else if name = "entry" then entries.or (fieldOf? "entry" fields)
        else if name = "root" then some root else fieldOf? name fields := by
  rw [fieldOf?_setField, fieldOf?_setOption, fieldOf?_setField, fieldOf?_setField,
    if_neg (by decide : "entry" ≠ "root")]

/-- A configuration is what is given and otherwise what the table says. -/
theorem anchored_of_merge {root : FilePath} (hnative : own.IsNative)
    (h : (merge cwd base given own >>= Config.ofSetting root) = .ok config) :
    Overridden cwd given config ∧ ∃ fields output, asTable own = .ok fields ∧
      asTable ((fieldOf? "output" fields).getD (.table [])) = .ok output ∧
      Anchored base given fields output config := by
  obtain ⟨settings, hmerge, hcheck⟩ := bind_eq_ok_iff.1 h
  obtain ⟨fields, rootValue, found, outputValue, hown, hroot, hfound, houtput, rfl⟩ := exists_of_merge hmerge
  obtain ⟨hentries, hrules, hresult, hplugins, hrootPath, hload, hruntime, hextension, hcharacters⟩ :=
    Config.check_table_eq_ok_iff.1 (Config.ofSetting_eq_ok_iff.1 hcheck)
  obtain ⟨hgivenEntries, hownEntries⟩ := entries_of_entriesOf (nativeFields_of_asTable hnative hown) hfound
    (fieldOf?_inForce.trans (by simp)) hentries
  simp only [Config.fieldOr, fieldOf?_inForce] at hrules hresult hplugins hrootPath hload hruntime hextension
  obtain ⟨hgivenRoot, hownRoot⟩ := root_of_rootOf hroot hrootPath
  obtain ⟨hgivenDirectory, hgivenName, output, houtputOwn, hownDirectory, hownName⟩ :=
    output_of_outputOf houtput hresult
  exact ⟨⟨hgivenEntries, hgivenDirectory, hgivenName, hgivenRoot⟩, fields, output, hown, houtputOwn,
    ⟨hownEntries, hownDirectory, hownName, hownRoot, hrules, hplugins, hload, hruntime, hextension,
      hcharacters⟩⟩

end Settings
end Bundler
