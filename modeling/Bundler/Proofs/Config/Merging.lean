import Bundler.Config.Settings
import Bundler.Proofs.Graph.Registry

/-!
# Putting settings together

The table of a file and what a caller gives are put together without looking at the values closely. This
fails where something is no table, or where a relative path cannot be resolved (`merge_eq_error_iff`).
-/

namespace Bundler

open Data

variable {π ω : Type}

namespace Settings

/-- The value is a relative path with a null character, written or not. -/
def Unanchored (value : Setting π ω) : Prop :=
  ∃ path, Config.asPath [] value = .ok path ∧ path.isAbsolute = false ∧ path.hasNull = true

/-- The root that is given, or else the one of the table, cannot be resolved. -/
def UnanchoredRoot (given : Overrides) (fields : List (String × Setting π ω)) : Prop :=
  (∃ root, given.root = some root ∧ root.hasNull = true) ∨
    given.root = none ∧ ∃ value, fieldOf? "root" fields = some value ∧ Unanchored value

/-- No entries are given, and one of the table cannot be resolved. -/
def UnanchoredEntry (given : Overrides) (fields : List (String × Setting π ω)) : Prop :=
  given.entries = [] ∧ ∃ value, fieldOf? "entry" fields = some value ∧
    ((∃ text, value = .string text ∧ Unanchored value) ∨
      ∃ entries, value = .table entries ∧ ∃ entry ∈ entries, Unanchored entry.2)

/-- No directory for the result is given, and the one of the table cannot be resolved. -/
def UnanchoredOutput (given : Overrides) (output : List (String × Setting π ω)) : Prop :=
  given.directory = none ∧ ∃ value, fieldOf? "path" output = some value ∧ Unanchored value

/-- What goes wrong when settings are put together. -/
inductive Unmerged (given : Overrides) (own : Setting π ω) : Failure → Prop
  | own {fault} (hown : asTable own = .error fault) : Unmerged given own (.table fault)
  | root {fields} (hown : asTable own = .ok fields) (hroot : UnanchoredRoot given fields) :
      Unmerged given own (.path .null)
  | entry {fields} (hown : asTable own = .ok fields) (hentry : UnanchoredEntry given fields) :
      Unmerged given own (.path .null)
  | output {fields fault} (hown : asTable own = .ok fields) (hroot : ¬ UnanchoredRoot given fields)
      (hentry : ¬ UnanchoredEntry given fields)
      (houtput : asTable ((fieldOf? "output" fields).getD (.table [])) = .error fault) :
      Unmerged given own (.table fault)
  | outputPath {fields output} (hown : asTable own = .ok fields)
      (houtput : asTable ((fieldOf? "output" fields).getD (.table [])) = .ok output)
      (hpath : UnanchoredOutput given output) : Unmerged given own (.path .null)

section Merge

variable {cwd base : FilePath} {given : Overrides} {own value : Setting π ω}
  {fields output : List (String × Setting π ω)} {failure : Failure}

theorem resolve?_eq_error_iff {path : FilePath} :
    (cwd.resolve? path).mapError Failure.path = .error failure
      ↔ failure = .path .null ∧ path.hasNull = true := by
  cases hnull : path.hasNull with
  | true => simp [FilePath.resolve?, hnull, Except.mapError, eq_comm]
  | false => simp [FilePath.resolve?, hnull, Except.mapError]

theorem map_ofPath_eq_error_iff {result : Except Failure FilePath} :
    result.map (@ofPath π ω) = .error failure ↔ result = .error failure := by
  cases result <;> simp [Except.map]

theorem anchored_eq_error_iff {path : FilePath} :
    anchored base path = .error failure
      ↔ failure = .path .null ∧ path.isAbsolute = false ∧ path.hasNull = true := by
  rw [anchored]
  cases habsolute : path.isAbsolute with
  | true => simp
  | false => simp [resolve?_eq_error_iff]

theorem anchor_eq_error_iff :
    anchor base value = .error failure ↔ failure = .path .null ∧ Unanchored value := by
  unfold anchor
  split
  · rw [map_ofPath_eq_error_iff, anchored_eq_error_iff]
    simp [Unanchored, Config.asPath]
  · rw [map_ofPath_eq_error_iff, anchored_eq_error_iff]
    simp [Unanchored, Config.asPath]
  · next hstring hpath =>
    simp only [reduceCtorEq, false_iff, not_and]
    rintro - ⟨path, hvalue, -⟩
    unfold Config.asPath at hvalue
    split at hvalue
    · exact hstring _ rfl
    · exact hpath _ rfl
    · cases hvalue

theorem rootOf_eq_error_iff : rootOf cwd base given.root fields = .error failure ↔
    failure = .path .null ∧ UnanchoredRoot given fields := by
  unfold rootOf UnanchoredRoot
  split
  · next root hroot =>
    have hmap : ((cwd.resolve? root).map (@ofPath π ω)).mapError Failure.path
        = ((cwd.resolve? root).mapError Failure.path).map ofPath := by
      cases cwd.resolve? root <;> rfl
    rw [hmap, map_ofPath_eq_error_iff, resolve?_eq_error_iff]
    simp [hroot]
  · next hroot =>
    rw [anchor_eq_error_iff]
    cases hfield : fieldOf? "root" fields with
    | none => simp [hroot, Unanchored, Config.asPath, show (FilePath.ofString ".").hasNull = false by decide +kernel]
    | some value => simp [hroot]

theorem anchorEntries_eq_error_iff : anchorEntries base value = .error failure ↔
    failure = .path .null ∧ ((∃ text, value = .string text ∧ Unanchored value) ∨
      ∃ entries, value = .table entries ∧ ∃ entry ∈ entries, Unanchored entry.2) := by
  unfold anchorEntries
  split
  · rw [bind_eq_error_iff, anchor_eq_error_iff]
    simp [pure, Except.pure]
  · next entries =>
    have hentry : ∀ (entry : String × Setting π ω) other,
        (do return (entry.1, ← anchor base entry.2) : Except Failure _) = .error other ↔
          other = .path .null ∧ Unanchored entry.2 := by
      intro entry other
      rw [bind_eq_error_iff, anchor_eq_error_iff]
      simp [pure, Except.pure]
    rw [bind_eq_error_iff, mapM_eq_error_iff fun entry other h => ((hentry entry other).1 h).1,
      exists_congr fun entry => and_congr_right fun _ => hentry entry (.path .null)]
    simp [pure, Except.pure]
  · next hstring htable =>
    simp only [reduceCtorEq, false_iff, not_and, not_or]
    refine fun _ => ⟨fun ⟨text, h, _⟩ => hstring text h, fun ⟨entries, h, _⟩ => htable entries h⟩

theorem entriesOf_eq_error_iff : entriesOf base given.entries fields = .error failure ↔
    failure = .path .null ∧ UnanchoredEntry given fields := by
  unfold entriesOf UnanchoredEntry
  split
  · next hentries =>
    cases hfield : fieldOf? "entry" fields with
    | none => simp [pure, Except.pure]
    | some value =>
      have hmap : some <$> anchorEntries base value = .error failure
          ↔ anchorEntries base value = .error failure := by
        rcases anchorEntries base value with fault | anchored
        · simp [Functor.map, Except.map]
        · simp [Functor.map, Except.map]
      rw [Option.mapM_some, hmap, anchorEntries_eq_error_iff]
      simp [hentries]
  · next hentries => simp [hentries]

theorem outputOf_eq_error_iff : outputOf base given fields = .error failure ↔
    (∃ fault, asTable ((fieldOf? "output" fields).getD (.table [])) = .error fault ∧
        failure = .table fault) ∨
      ∃ output, asTable ((fieldOf? "output" fields).getD (.table [])) = .ok output ∧
        failure = .path .null ∧ UnanchoredOutput given output := by
  unfold outputOf UnanchoredOutput
  rw [bind_eq_error_iff, mapError_eq_error_iff]
  simp only [mapError_eq_ok_iff]
  refine or_congr_right (exists_congr fun output => and_congr_right fun _ => ?_)
  -- naming the file of the result cannot fail
  split
  · next directory _ hdirectory =>
    rw [bind_eq_error_iff_of_ok fun output => by cases given.fileName <;> exact ⟨_, rfl⟩]
    simp [pure, Except.pure, hdirectory]
  · next value hdirectory hpath =>
    rw [bind_eq_error_iff_of_ok fun path => by cases given.fileName <;> exact ⟨_, rfl⟩,
      anchor_eq_error_iff]
    simp [hdirectory, hpath]
  · next hdirectory hpath =>
    rw [bind_eq_error_iff_of_ok fun output => by cases given.fileName <;> exact ⟨_, rfl⟩]
    simp [pure, Except.pure, hpath]

theorem merge_eq_error_iff : merge cwd base given own = .error failure ↔ Unmerged given own failure := by
  have hroot : ∀ fields : List (String × Setting π ω), (∃ root, rootOf cwd base given.root fields = .ok root)
      ↔ ¬ UnanchoredRoot given fields := by
    intro fields
    rcases hrootOf : rootOf cwd base given.root fields with fault | root
    · simp [(rootOf_eq_error_iff.1 hrootOf).2]
    · simp only [Except.ok.injEq, exists_eq', true_iff]
      intro hnot
      rw [rootOf_eq_error_iff.2 ⟨rfl, hnot⟩] at hrootOf
      cases hrootOf
  have hentry : ∀ fields : List (String × Setting π ω),
      (∃ entries, entriesOf base given.entries fields = .ok entries) ↔ ¬ UnanchoredEntry given fields := by
    intro fields
    rcases hentries : entriesOf base given.entries fields with fault | entries
    · simp [(entriesOf_eq_error_iff.1 hentries).2]
    · simp only [Except.ok.injEq, exists_eq', true_iff]
      intro hnot
      rw [entriesOf_eq_error_iff.2 ⟨rfl, hnot⟩] at hentries
      cases hentries
  rw [merge]
  simp only [bind_eq_error_iff, mapError_eq_error_iff, mapError_eq_ok_iff, rootOf_eq_error_iff,
    entriesOf_eq_error_iff, outputOf_eq_error_iff]
  constructor
  · rintro (⟨fault, hown, rfl⟩ | ⟨fields, hown, ⟨rfl, hnull⟩ | ⟨root, hrootOf, ⟨rfl, hnull⟩ |
      ⟨entries, hentries, (⟨fault, houtput, rfl⟩ | ⟨output, houtput, rfl, hpath⟩) | ⟨_, _, hlast⟩⟩⟩⟩)
    · exact .own hown
    · exact .root hown hnull
    · exact .entry hown hnull
    · exact .output hown ((hroot fields).1 ⟨root, hrootOf⟩) ((hentry fields).1 ⟨entries, hentries⟩) houtput
    · exact .outputPath hown houtput hpath
    · cases hlast
  · intro h
    cases h with
    | own hown => exact .inl ⟨_, hown, rfl⟩
    | root hown hnull => exact .inr ⟨_, hown, .inl ⟨rfl, hnull⟩⟩
    | @entry fields hown hnull =>
      refine .inr ⟨fields, hown, ?_⟩
      by_cases hrootOf : UnanchoredRoot given fields
      · exact .inl ⟨rfl, hrootOf⟩
      · obtain ⟨root, hrootOf⟩ := (hroot fields).2 hrootOf
        exact .inr ⟨root, hrootOf, .inl ⟨rfl, hnull⟩⟩
    | output hown hnotRoot hnotEntry houtput =>
      obtain ⟨root, hrootOf⟩ := (hroot _).2 hnotRoot
      obtain ⟨entries, hentries⟩ := (hentry _).2 hnotEntry
      exact .inr ⟨_, hown, .inr ⟨root, hrootOf, .inr ⟨entries, hentries, .inl (.inl ⟨_, houtput, rfl⟩)⟩⟩⟩
    | @outputPath fields output hown houtput hpath =>
      refine .inr ⟨fields, hown, ?_⟩
      by_cases hrootOf : UnanchoredRoot given fields
      · exact .inl ⟨rfl, hrootOf⟩
      · obtain ⟨root, hrootOf⟩ := (hroot fields).2 hrootOf
        refine .inr ⟨root, hrootOf, ?_⟩
        by_cases hentries : UnanchoredEntry given fields
        · exact .inl ⟨rfl, hentries⟩
        · obtain ⟨entries, hentries⟩ := (hentry fields).2 hentries
          exact .inr ⟨entries, hentries, .inl (.inr ⟨output, houtput, rfl, hpath⟩)⟩

theorem fieldOf?_merge {settings : Setting π ω} (h : merge cwd base given own = .ok settings) :
    ∃ fields merged, asTable own = .ok fields ∧ settings = .table merged ∧
      fieldOf? "rules" merged = fieldOf? "rules" fields := by
  rw [merge] at h
  obtain ⟨fields, hown, h⟩ := bind_eq_ok_iff.1 h
  obtain ⟨root, -, h⟩ := bind_eq_ok_iff.1 h
  obtain ⟨entries, -, h⟩ := bind_eq_ok_iff.1 h
  obtain ⟨output, -, h⟩ := bind_eq_ok_iff.1 h
  cases h
  refine ⟨fields, _, mapError_eq_ok_iff.1 hown, rfl, ?_⟩
  rw [fieldOf?_setField, if_neg (by decide)]
  cases entries <;> simp [setOption, fieldOf?_setField]

end Merge

end Settings
end Bundler
