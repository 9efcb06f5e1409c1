import Bundler.Config.Validate
import Bundler.Proofs.Attempt

/-!
# Accepted values

A table is accepted as a configuration just when each of the configuration's fields can be read from its own
field of the table (`check_eq_ok_iff`).
-/

namespace Bundler

open Data

variable {π ω ε α β : Type}

theorem map_eq_ok_iff {f : α → β} {a : Except ε α} {result : β} :
    a.map f = .ok result ↔ ∃ value, a = .ok value ∧ result = f value := by
  cases a <;> simp [Except.map, eq_comm]

namespace Checked

theorem both_eq_ok_iff {f : Checked (α → β)} {a : Checked α} {result : β} :
    both f a = .ok result ↔ ∃ g value, f = .ok g ∧ a = .ok value ∧ result = g value := by
  unfold both
  split <;> simp_all [eq_comm]

theorem all_eq_ok_iff {checks : List (Checked α)} {values : List α} :
    all checks = .ok values ↔ List.Forall₂ (fun check value => check = .ok value) checks values := by
  induction checks generalizing values with
  | nil => simp [all, eq_comm]
  | cons first rest ih =>
    rw [all, both_eq_ok_iff, List.forall₂_cons_left_iff]
    constructor
    · rintro ⟨g, more, hfirst, hrest, rfl⟩
      obtain ⟨value, hvalue, rfl⟩ := map_eq_ok_iff.1 hfirst
      exact ⟨value, more, hvalue, ih.1 hrest, rfl⟩
    · rintro ⟨value, more, hvalue, hrest, rfl⟩
      exact ⟨_, more, map_eq_ok_iff.2 ⟨value, hvalue, rfl⟩, ih.2 hrest, rfl⟩

end Checked

namespace Config

open Checked

variable {place : List Step} {value : Setting π ω} {fields : List (String × Setting π ω)}
  {root path : FilePath} {config : Config π ω}

/-- Each field of the configuration is read from its own field of the table. -/
structure Reads (root : FilePath) (fields : List (String × Setting π ω)) (config : Config π ω) : Prop where
  entries : field [] "entry" asEntries fields = .ok config.entries
  rules : fieldOr [] [] "rules" asRules fields = .ok config.rules
  output : fieldOr {} [] "output" asOutput fields = .ok config.output
  plugins : fieldOr [] [] "plugins" asPlugins fields = .ok config.plugins
  root : fieldOr root [] "root" asPath fields = .ok config.root
  load : fieldOr ({} : Naming).load [] "load_function" asIdentifier fields = .ok config.naming.load
  runtime : fieldOr ({} : Naming).runtime [] "runtime_function" asIdentifier fields = .ok config.naming.runtime
  extension : fieldOr ({} : Naming).extension [] "default_extension" asExtension fields
    = .ok config.naming.extension
  characters : config.naming.characters = .standard

theorem check_table_eq_ok_iff : check root (.table fields) = .ok config ↔ Reads root fields config := by
  unfold check
  simp only [asRecord, bind, Except.bind, both_eq_ok_iff, map_eq_ok_iff]
  constructor
  · rintro ⟨_, extension, ⟨_, runtime, ⟨_, load, ⟨_, root, ⟨_, plugins, ⟨_, output, ⟨_, rules,
      ⟨entries, hentries, rfl⟩, hrules, rfl⟩, houtput, rfl⟩, hplugins, rfl⟩, hroot, rfl⟩,
      hload, rfl⟩, hruntime, rfl⟩, hextension, rfl⟩
    exact ⟨hentries, hrules, houtput, hplugins, hroot, hload, hruntime, hextension, rfl⟩
  · obtain ⟨_, _, _, _, _, ⟨_, _, _, characters⟩⟩ := config
    rintro ⟨hentries, hrules, houtput, hplugins, hroot, hload, hruntime, hextension, rfl⟩
    exact ⟨_, _, ⟨_, _, ⟨_, _, ⟨_, _, ⟨_, _, ⟨_, _, ⟨_, _, ⟨_, hentries, rfl⟩, hrules, rfl⟩, houtput, rfl⟩,
      hplugins, rfl⟩, hroot, rfl⟩, hload, rfl⟩, hruntime, rfl⟩, hextension, rfl⟩

/-- A value is accepted just when it is a table that the configuration's fields can be read from. -/
theorem check_eq_ok_iff : check root value = .ok config ↔
    ∃ fields, value = .table fields ∧ Reads root fields config := by
  constructor
  · intro h
    obtain ⟨fields, hfields, -⟩ := bind_eq_ok_iff.1 h
    obtain rfl : value = .table fields := by
      unfold asRecord at hfields
      split at hfields
      · cases hfields
        rfl
      · cases hfields
    exact ⟨fields, rfl, check_table_eq_ok_iff.1 h⟩
  · rintro ⟨fields, rfl, h⟩
    exact check_table_eq_ok_iff.2 h

theorem ofSetting_eq_ok_iff : ofSetting root value = .ok config ↔ check root value = .ok config := by
  unfold ofSetting
  split <;> simp_all

theorem asPath_eq_ok_iff : asPath place value = .ok path ↔
    (∃ text, value = .string text ∧ path = .ofString text) ∨ value = .foreign (.path path) := by
  unfold asPath
  split <;> simp_all [Checked.fail, eq_comm]

theorem asOutput_table_eq_ok_iff {options : OutputOptions} : asOutput place (.table fields) = .ok options ↔
    fieldOr ({} : OutputOptions).directory place "path" asPath fields = .ok options.directory ∧
      fieldOr ({} : OutputOptions).fileName place "filename" asText fields = .ok options.fileName := by
  unfold asOutput
  simp only [asRecord, bind, Except.bind, both_eq_ok_iff, map_eq_ok_iff]
  constructor
  · rintro ⟨_, fileName, ⟨directory, hdirectory, rfl⟩, hfileName, rfl⟩
    exact ⟨hdirectory, hfileName⟩
  · rintro ⟨hdirectory, hfileName⟩
    exact ⟨_, _, ⟨_, hdirectory, rfl⟩, hfileName, rfl⟩

end Config
end Bundler
