import Bundler.Proofs.Config.Merging
import Bundler.Proofs.Config.Refusals
import Bundler.Proofs.Files.Places

/-!
# Failures of loading a configuration

Loading a configuration gives one, or it ends with a fault of the configuration, unless one of a few
things goes wrong that it does not look for (`failure_of_load`): the place of a file is over-long or
cannot be resolved, a file is no text or has too long an integer, a table is no table, or the pattern of
a rule repeats something too often.
-/

namespace Bundler

open Data

variable {π ω : Type}

/-- Loading a configuration is meant to end in such a failure. -/
def Failure.IsConfig (failure : Failure) : Prop := ∃ fault, failure = .config fault

namespace Settings

/-! ### Searching -/

/-- The search goes on behind a directory: it has no file of settings, or one without the table. -/
def Passes (π ω : Type) (tree : FileTree) (directory : FilePath) : Prop :=
  tree.isFile (directory.join fileName) = .ok false ∨
    tree.isFile (directory.join fileName) = .ok true ∧ ∃ fields : List (String × Setting π ω),
      document tree (directory.join fileName) = .ok fields ∧
      ownTable? ((fieldOf? "tool" fields).getD (.table [])) = .ok none

/-- The file of settings in a directory has the table. -/
def Holds (tree : FileTree) (directory : FilePath) (own : Setting π ω) : Prop :=
  tree.isFile (directory.join fileName) = .ok true ∧ ∃ fields,
    document tree (directory.join fileName) = .ok fields ∧
    ownTable? ((fieldOf? "tool" fields).getD (.table [])) = .ok (some own)

/-- The search ends in a directory with a failure. -/
inductive Trips (π ω : Type) (tree : FileTree) (directory : FilePath) : Failure → Prop
  | overlong (hpath : tree.Overlong (directory.join fileName)) :
      Trips π ω tree directory (.path (.system .nameTooLong (directory.join fileName)))
  | document {failure} (hfile : tree.isFile (directory.join fileName) = .ok true)
      (hdocument : (document tree (directory.join fileName) :
        Except Failure (List (String × Setting π ω))) = .error failure) :
      Trips π ω tree directory failure
  | tool {fields fault} (hfile : tree.isFile (directory.join fileName) = .ok true)
      (hdocument : (document tree (directory.join fileName) :
        Except Failure (List (String × Setting π ω))) = .ok fields)
      (htool : ownTable? ((fieldOf? "tool" fields).getD (.table [])) = .error fault) :
      Trips π ω tree directory (.table fault)

section Search

variable {tree : FileTree} {directory : FilePath} {rest directories : List FilePath}
  {own : Setting π ω} {failure : Failure}

theorem search_of_passes (h : Passes π ω tree directory) :
    (search tree (directory :: rest) : Except Failure (Option (Setting π ω × FilePath)))
      = search tree rest := by
  rw [search]
  rcases h with hfile | ⟨hfile, fields, hdocument, htool⟩
  · simp [hfile, Except.mapError, bind, Except.bind]
  · simp [hfile, hdocument, htool, Except.mapError, bind, Except.bind]

theorem search_of_holds (h : Holds tree directory own) :
    search tree (directory :: rest) = .ok (some (own, directory)) := by
  obtain ⟨hfile, fields, hdocument, htool⟩ := h
  rw [search]
  simp [hfile, hdocument, htool, Except.mapError, bind, Except.bind, pure, Except.pure]

theorem search_of_trips (h : Trips π ω tree directory failure) :
    (search tree (directory :: rest) : Except Failure (Option (Setting π ω × FilePath)))
      = .error failure := by
  rw [search]
  cases h with
  | overlong hpath =>
    simp [FileTree.isFile_eq_error_iff.2 ⟨rfl, hpath⟩, Except.mapError, bind, Except.bind]
  | document hfile hdocument => simp [hfile, hdocument, Except.mapError, bind, Except.bind]
  | tool hfile hdocument htool =>
    simp [hfile, hdocument, htool, Except.mapError, bind, Except.bind]

theorem passes_or (π ω : Type) (tree : FileTree) (directory : FilePath) :
    Passes π ω tree directory ∨ (∃ own : Setting π ω, Holds tree directory own) ∨
      ∃ failure, Trips π ω tree directory failure := by
  cases hfile : tree.isFile (directory.join fileName) with
  | error fault =>
    obtain ⟨rfl, hpath⟩ := FileTree.isFile_eq_error_iff.1 hfile
    exact .inr (.inr ⟨_, .overlong hpath⟩)
  | ok answer =>
    cases answer with
    | false => exact .inl (.inl hfile)
    | true =>
      cases hdocument : (document tree (directory.join fileName) :
          Except Failure (List (String × Setting π ω))) with
      | error failure => exact .inr (.inr ⟨failure, .document hfile hdocument⟩)
      | ok fields =>
        cases htool : ownTable? ((fieldOf? "tool" fields).getD (.table [])) with
        | error fault => exact .inr (.inr ⟨_, .tool hfile hdocument htool⟩)
        | ok own =>
          cases own with
          | none => exact .inl (.inr ⟨hfile, fields, hdocument, htool⟩)
          | some own => exact .inr (.inl ⟨own, hfile, fields, hdocument, htool⟩)

/-- The search comes to a directory behind others. -/
def Meets (π ω : Type) (tree : FileTree) (directories : List FilePath) (directory : FilePath) : Prop :=
  ∃ before after, directories = before ++ directory :: after ∧
    ∀ passed ∈ before, Passes π ω tree passed

theorem Meets.search_eq (h : Meets π ω tree directories directory) :
    ∃ rest, (search tree directories : Except Failure (Option (Setting π ω × FilePath)))
      = search tree (directory :: rest) := by
  obtain ⟨before, after, rfl, hpasses⟩ := h
  refine ⟨after, ?_⟩
  induction before with
  | nil => rfl
  | cons first before ih =>
    rw [List.forall_mem_cons] at hpasses
    rw [List.cons_append, search_of_passes hpasses.1, ih hpasses.2]

theorem search_of_all_passes (h : ∀ passed ∈ directories, Passes π ω tree passed) :
    (search tree directories : Except Failure (Option (Setting π ω × FilePath))) = .ok none := by
  induction directories with
  | nil => rfl
  | cons first rest ih =>
    rw [List.forall_mem_cons] at h
    rw [search_of_passes h.1, ih h.2]

theorem meets_or (π ω : Type) (tree : FileTree) (directories : List FilePath) :
    (∀ passed ∈ directories, Passes π ω tree passed) ∨ ∃ directory,
      Meets π ω tree directories directory ∧ ((∃ own : Setting π ω, Holds tree directory own) ∨
        ∃ failure, Trips π ω tree directory failure) := by
  induction directories with
  | nil => exact .inl (by simp)
  | cons first rest ih =>
    rcases passes_or π ω tree first with hpasses | hstops
    · rcases ih with hall | ⟨directory, ⟨before, after, rfl, hbefore⟩, hstops⟩
      · exact .inl (List.forall_mem_cons.2 ⟨hpasses, hall⟩)
      · exact .inr ⟨directory, ⟨first :: before, after, rfl, List.forall_mem_cons.2 ⟨hpasses, hbefore⟩⟩,
          hstops⟩
    · exact .inr ⟨first, ⟨[], rest, rfl, by simp⟩, hstops⟩

theorem document_of_notText {path : FilePath} {bytes : ByteArray} {fault : Text.Utf8.Fault}
    (hread : tree.read path = .ok bytes) (hdecode : Text.Utf8.decode bytes = .error fault) :
    (document tree path : Except Failure (List (String × Setting π ω)))
      = .error (.settingsNotText fault) := by
  simp [document, hread, hdecode, Except.mapError, bind, Except.bind]

/-- A document that cannot be read is a fault of the configuration, unless it is no text or has too long
an integer. -/
theorem document_eq_error {path : FilePath}
    (h : (document tree path : Except Failure (List (String × Setting π ω))) = .error failure)
    (hfailure : ¬ failure.IsConfig) : ∃ bytes, tree.read path = .ok bytes ∧
      ((∃ fault, Text.Utf8.decode bytes = .error fault ∧ failure = .settingsNotText fault) ∨
        ∃ text digits, Text.Utf8.decode bytes = .ok text ∧
          (Toml.parse text : Except _ (List (String × Setting π ω))) = .error (.integerTooLong digits) ∧
          failure = .settingsInteger (.integerTooLong digits)) := by
  rw [document] at h
  rcases bind_eq_error_iff.1 h with hread | ⟨bytes, hread, h⟩
  · obtain ⟨fault, -, rfl⟩ := mapError_eq_error_iff.1 hread
    exact absurd ⟨_, rfl⟩ hfailure
  refine ⟨bytes, mapError_eq_ok_iff.1 hread, ?_⟩
  rcases bind_eq_error_iff.1 h with hdecode | ⟨text, hdecode, h⟩
  · obtain ⟨fault, hfault, rfl⟩ := mapError_eq_error_iff.1 hdecode
    exact .inl ⟨fault, hfault, rfl⟩
  refine .inr ⟨text, ?_⟩
  split at h
  · cases h
  · next digits hparse =>
    cases h
    exact ⟨digits, mapError_eq_ok_iff.1 hdecode, hparse, rfl⟩
  · cases h
    exact absurd ⟨_, rfl⟩ hfailure

theorem read_of_document {path : FilePath} {fields : List (String × Setting π ω)}
    (h : document tree path = .ok fields) : tree.isFile path = .ok true := by
  rw [document] at h
  obtain ⟨bytes, hread, -⟩ := bind_eq_ok_iff.1 h
  exact FileTree.isFile_of_read (mapError_eq_ok_iff.1 hread)

end Search

/-! ### Loading -/

/-- The table of settings and the directory that its paths are seen from: what the search from a
directory upwards comes to first, or else nothing. -/
def Found (tree : FileTree) (start : FilePath) (own : Setting π ω) (base : FilePath) : Prop :=
  Meets π ω tree start.selfAndParents base ∧ Holds tree base own ∨
    (∀ passed ∈ start.selfAndParents, Passes π ω tree passed) ∧ own = .table [] ∧ base = start

/-- What goes wrong otherwise than by a fault of the configuration when one is loaded. -/
inductive Mishap (π ω : Type) (tree : FileTree) (directory : Option FilePath) (given : Overrides) :
    Failure → Prop
  | start (hnull : (directory.getD tree.current).hasNull = true) :
      Mishap π ω tree directory given (.path .null)
  | overlong {start searched} (hstart : tree.current.resolve? (directory.getD tree.current) = .ok start)
      (hmeets : Meets π ω tree start.selfAndParents searched)
      (hpath : tree.Overlong (searched.join fileName)) :
      Mishap π ω tree directory given (.path (.system .nameTooLong (searched.join fileName)))
  | notText {start searched bytes fault}
      (hstart : tree.current.resolve? (directory.getD tree.current) = .ok start)
      (hmeets : Meets π ω tree start.selfAndParents searched)
      (hread : tree.read (searched.join fileName) = .ok bytes)
      (hdecode : Text.Utf8.decode bytes = .error fault) :
      Mishap π ω tree directory given (.settingsNotText fault)
  | integer {start searched bytes text digits}
      (hstart : tree.current.resolve? (directory.getD tree.current) = .ok start)
      (hmeets : Meets π ω tree start.selfAndParents searched)
      (hread : tree.read (searched.join fileName) = .ok bytes)
      (hdecode : Text.Utf8.decode bytes = .ok text)
      (hparse : (Toml.parse text : Except _ (List (String × Setting π ω)))
        = .error (.integerTooLong digits)) :
      Mishap π ω tree directory given (.settingsInteger (.integerTooLong digits))
  | tool {start searched fault} {fields : List (String × Setting π ω)}
      (hstart : tree.current.resolve? (directory.getD tree.current) = .ok start)
      (hmeets : Meets π ω tree start.selfAndParents searched)
      (hdocument : document tree (searched.join fileName) = .ok fields)
      (htool : ownTable? ((fieldOf? "tool" fields).getD (.table [])) = .error fault) :
      Mishap π ω tree directory given (.table fault)
  | unmerged {start base failure} {own : Setting π ω}
      (hstart : tree.current.resolve? (directory.getD tree.current) = .ok start)
      (hfound : Found tree start own base) (hunmerged : Unmerged given own failure) :
      Mishap π ω tree directory given failure
  | pattern {start base rules} {own : Setting π ω} {fields : List (String × Setting π ω)}
      (hstart : tree.current.resolve? (directory.getD tree.current) = .ok start)
      (hfound : Found tree start own base) (hmerged : ∀ failure, ¬ Unmerged given own failure)
      (hown : asTable own = .ok fields) (hrules : fieldOf? "rules" fields = some rules)
      (hpattern : Config.HasHugePattern rules) : Mishap π ω tree directory given .hugeRepetition

section Load

variable {tree : FileTree} {directory : Option FilePath} {given : Overrides} {start : FilePath}
  {failure : Failure}

theorem not_isConfig_of_unmerged {own : Setting π ω} (h : Unmerged given own failure) :
    ¬ failure.IsConfig := by
  rintro ⟨fault, rfl⟩
  cases h

theorem Mishap.not_isConfig (h : Mishap π ω tree directory given failure) : ¬ failure.IsConfig := by
  cases h with
  | unmerged _ _ hunmerged => exact not_isConfig_of_unmerged hunmerged
  | _ =>
    rintro ⟨fault, hfault⟩
    cases hfault

theorem ofSetting_eq_error_iff {root : FilePath} {settings : Setting π ω} :
    Config.ofSetting root settings = .error failure ∧ ¬ failure.IsConfig ↔
      Config.check root settings = .error .hugeRepetition ∧ failure = .hugeRepetition := by
  rw [Config.ofSetting]
  split
  · next hcheck => simp [hcheck]
  · next list hcheck =>
    simp only [hcheck, Except.error.injEq, reduceCtorEq, false_and, iff_false, not_and, not_not]
    rintro rfl
    exact ⟨_, rfl⟩
  · next hcheck =>
    simp only [hcheck, Except.error.injEq, true_and]
    refine ⟨fun h => h.1.symm, fun h => ⟨h.symm, ?_⟩⟩
    rintro ⟨fault, rfl⟩
    cases h

theorem settled_iff {base : FilePath} {own : Setting π ω} :
    ((merge tree.current base given own >>= Config.ofSetting tree.current) = .error failure ∧
        ¬ failure.IsConfig) ↔
      Unmerged given own failure ∨ (∀ failure, ¬ Unmerged given own failure) ∧
        (∃ fields rules, asTable own = .ok fields ∧ fieldOf? "rules" fields = some rules ∧
          Config.HasHugePattern rules) ∧ failure = .hugeRepetition := by
  cases hmerge : merge tree.current base given own with
  | error fault =>
    have hunmerged := merge_eq_error_iff.1 hmerge
    have hiff : Unmerged given own failure ↔ fault = failure := by
      have hmergeIff : merge tree.current base given own = .error failure ↔ Unmerged given own failure :=
        merge_eq_error_iff
      rw [← hmergeIff, hmerge, Except.error.injEq]
    simp only [bind, Except.bind, Except.error.injEq, hiff]
    constructor
    · exact fun h => .inl h.1
    · rintro (rfl | ⟨hnone, -⟩)
      · exact ⟨rfl, not_isConfig_of_unmerged hunmerged⟩
      · exact absurd hunmerged (hnone fault)
  | ok settings =>
    have hnone : ∀ failure, ¬ Unmerged given own failure := by
      intro failure hunmerged
      rw [merge_eq_error_iff.2 hunmerged] at hmerge
      cases hmerge
    obtain ⟨fields, merged, hown, rfl, hrules⟩ := fieldOf?_merge hmerge
    simp only [bind, Except.bind, ofSetting_eq_error_iff, Config.check_eq_huge_iff, hrules, hnone,
      hown, not_false_eq_true, implies_true, true_and, false_or, Except.ok.injEq]
    simp

theorem load_of_null (hnull : (directory.getD tree.current).hasNull = true) :
    (Config.load tree directory given : Except Failure (Config π ω)) = .error (.path .null) := by
  rw [Config.load, FilePath.resolve?, if_pos hnull]
  rfl

theorem load_of_trips {searched : FilePath}
    (hstart : tree.current.resolve? (directory.getD tree.current) = .ok start)
    (hmeets : Meets π ω tree start.selfAndParents searched) (htrips : Trips π ω tree searched failure) :
    (Config.load tree directory given : Except Failure (Config π ω)) = .error failure := by
  obtain ⟨rest, hsearch⟩ := hmeets.search_eq
  rw [search_of_trips htrips] at hsearch
  simp [Config.load, hstart, hsearch, Except.mapError, bind, Except.bind]

theorem load_of_found {base : FilePath} {own : Setting π ω}
    (hstart : tree.current.resolve? (directory.getD tree.current) = .ok start)
    (hfound : Found tree start own base) :
    Config.load tree directory given
      = merge tree.current base given own >>= Config.ofSetting tree.current := by
  rcases hfound with ⟨hmeets, hholds⟩ | ⟨hpasses, rfl, rfl⟩
  · obtain ⟨rest, hsearch⟩ := hmeets.search_eq
    rw [search_of_holds hholds] at hsearch
    simp [Config.load, hstart, hsearch, Except.mapError, bind, Except.bind]
  · simp [Config.load, hstart, search_of_all_passes hpasses, Except.mapError, bind, Except.bind]

theorem found_or (π ω : Type) (tree : FileTree) (start : FilePath) :
    (∃ (own : Setting π ω) (base : FilePath), Found tree start own base) ∨
      ∃ searched failure, Meets π ω tree start.selfAndParents searched ∧
        Trips π ω tree searched failure := by
  rcases meets_or π ω tree start.selfAndParents with hpasses |
    ⟨searched, hmeets, ⟨own, hholds⟩ | ⟨failure, htrips⟩⟩
  · exact .inl ⟨_, _, .inr ⟨hpasses, rfl, rfl⟩⟩
  · exact .inl ⟨own, searched, .inl ⟨hmeets, hholds⟩⟩
  · exact .inr ⟨searched, failure, hmeets, htrips⟩

theorem mishap_of_trips {searched : FilePath}
    (hstart : tree.current.resolve? (directory.getD tree.current) = .ok start)
    (hmeets : Meets π ω tree start.selfAndParents searched) (htrips : Trips π ω tree searched failure)
    (hfailure : ¬ failure.IsConfig) : Mishap π ω tree directory given failure := by
  cases htrips with
  | overlong hpath => exact .overlong hstart hmeets hpath
  | document hfile hdocument =>
    obtain ⟨bytes, hread, ⟨fault, hdecode, rfl⟩ | ⟨text, digits, hdecode, hparse, rfl⟩⟩ :=
      document_eq_error hdocument hfailure
    · exact .notText hstart hmeets hread hdecode
    · exact .integer hstart hmeets hread hdecode hparse
  | tool hfile hdocument htool => exact .tool hstart hmeets hdocument htool

/-- Loading a configuration fails otherwise than by a fault of the configuration just when one of these
things goes wrong. -/
theorem failure_of_load (π ω : Type) (tree : FileTree) (directory : Option FilePath) (given : Overrides)
    (failure : Failure) :
    (Config.load tree directory given : Except Failure (Config π ω)) = .error failure ∧
        ¬ failure.IsConfig ↔ Mishap π ω tree directory given failure := by
  constructor
  · rintro ⟨hload, hfailure⟩
    by_cases hnull : (directory.getD tree.current).hasNull = true
    · rw [load_of_null hnull] at hload
      cases hload
      exact .start hnull
    have hstart : tree.current.resolve? (directory.getD tree.current)
        = .ok (tree.current.resolve (directory.getD tree.current)) := if_neg hnull
    rcases found_or π ω tree (tree.current.resolve (directory.getD tree.current)) with
      ⟨own, base, hfound⟩ | ⟨searched, other, hmeets, htrips⟩
    · rw [load_of_found hstart hfound] at hload
      rcases settled_iff.1 ⟨hload, hfailure⟩ with hunmerged |
        ⟨hmerged, ⟨fields, rules, hown, hrules, hpattern⟩, rfl⟩
      · exact .unmerged hstart hfound hunmerged
      · exact .pattern hstart hfound hmerged hown hrules hpattern
    · rw [load_of_trips hstart hmeets htrips] at hload
      cases hload
      exact mishap_of_trips hstart hmeets htrips hfailure
  · intro hmishap
    refine ⟨?_, hmishap.not_isConfig⟩
    cases hmishap with
    | start hnull => exact load_of_null hnull
    | overlong hstart hmeets hpath => exact load_of_trips hstart hmeets (.overlong hpath)
    | notText hstart hmeets hread hdecode =>
      exact load_of_trips hstart hmeets
        (.document (FileTree.isFile_of_read hread) (document_of_notText hread hdecode))
    | integer hstart hmeets hread hdecode hparse =>
      refine load_of_trips hstart hmeets (.document (FileTree.isFile_of_read hread) ?_)
      simp [document, hread, hdecode, hparse, Except.mapError, bind, Except.bind]
    | tool hstart hmeets hdocument htool =>
      exact load_of_trips hstart hmeets (.tool (read_of_document hdocument) hdocument htool)
    | unmerged hstart hfound hunmerged =>
      rw [load_of_found hstart hfound]
      exact (settled_iff.2 (.inl hunmerged)).1
    | pattern hstart hfound hmerged hown hrules hpattern =>
      rw [load_of_found hstart hfound]
      exact (settled_iff.2 (.inr ⟨hmerged, ⟨_, _, hown, hrules, hpattern⟩, rfl⟩)).1

/-- A tree whose file of settings is a single byte that no text begins with. -/
def garbledTree : FileTree := ⟨.root, [([⟨"pyproject.toml", by decide +kernel⟩], .file ⟨#[0xff]⟩)]⟩

/-- A file of settings that is no text makes loading fail otherwise than by a fault of the configuration. -/
theorem failure_of_load_garbled :
    ∃ failure, (Config.load garbledTree none {} : Except Failure (Config Unit Unit)) = .error failure ∧
      ¬ failure.IsConfig ∧ failure = .settingsNotText ⟨.start, 0, 1, 0xff⟩ := by
  have hmeets : Meets Unit Unit garbledTree FilePath.root.selfAndParents .root :=
    ⟨[], [], rfl, by simp⟩
  have hread : garbledTree.read (FilePath.root.join fileName) = .ok ⟨#[0xff]⟩ := by decide +kernel
  have hdecode : Text.Utf8.decode ⟨#[0xff]⟩ = .error ⟨.start, 0, 1, 0xff⟩ := by decide +kernel
  have hmishap : Mishap Unit Unit garbledTree none {} (.settingsNotText ⟨.start, 0, 1, 0xff⟩) :=
    .notText rfl hmeets hread hdecode
  refine ⟨_, ?_, hmishap.not_isConfig, rfl⟩
  exact load_of_trips rfl hmeets
    (.document (FileTree.isFile_of_read hread) (document_of_notText hread hdecode))

end Load

end Settings
end Bundler
