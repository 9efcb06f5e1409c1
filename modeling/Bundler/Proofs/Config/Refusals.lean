import Bundler.Config.Validate
import Bundler.Proofs.Attempt

/-!
# Refused patterns

Checking a value ends without a configuration and without a list of mistakes just when one of its rules
has a pattern that repeats something too often (`check_eq_huge_iff`).
-/

namespace Bundler

open Data

variable {π ω α β : Type}

namespace Checked

theorem both_eq_huge_iff {f : Checked (α → β)} {a : Checked α} :
    both f a = .error .hugeRepetition ↔ f = .error .hugeRepetition ∨ a = .error .hugeRepetition := by
  unfold both
  split <;> simp_all

theorem map_eq_huge_iff {f : α → β} {a : Checked α} :
    a.map f = .error .hugeRepetition ↔ a = .error .hugeRepetition := by
  cases a <;> simp [Except.map]

theorem all_eq_huge_iff {checks : List (Checked α)} :
    all checks = .error .hugeRepetition ↔ .error .hugeRepetition ∈ checks := by
  induction checks with
  | nil => simp [all]
  | cons first rest ih => rw [all, both_eq_huge_iff, map_eq_huge_iff, ih, List.mem_cons, eq_comm]

end Checked

namespace Config

open Checked

variable {place : List Step} {value : Setting π ω} {fields : List (String × Setting π ω)}

theorem field_eq_huge_iff {name : String} {check : List Step → Setting π ω → Checked α} :
    field place name check fields = .error .hugeRepetition ↔
      ∃ value, fieldOf? name fields = some value ∧
        check (place ++ [.field name]) value = .error .hugeRepetition := by
  unfold field
  split <;> simp_all [Checked.fail]

theorem fieldOr_eq_huge_iff {default : α} {name : String}
    {check : List Step → Setting π ω → Checked α} :
    fieldOr default place name check fields = .error .hugeRepetition ↔
      ∃ value, fieldOf? name fields = some value ∧
        check (place ++ [.field name]) value = .error .hugeRepetition := by
  unfold fieldOr
  split <;> simp_all

theorem asText_ne_huge : asText place value ≠ .error .hugeRepetition := by
  unfold asText
  split <;> simp [Checked.fail]

theorem asPath_ne_huge : asPath place value ≠ .error .hugeRepetition := by
  unfold asPath
  split <;> simp [Checked.fail]

theorem asIdentifier_ne_huge : asIdentifier place value ≠ .error .hugeRepetition := by
  unfold asIdentifier
  rw [ne_eq, bind_eq_error_iff, not_or]
  refine ⟨asText_ne_huge, ?_⟩
  rintro ⟨text, -, h⟩
  split at h <;> cases h

theorem asExtension_ne_huge : asExtension place value ≠ .error .hugeRepetition := by
  unfold asExtension
  rw [ne_eq, bind_eq_error_iff, not_or]
  refine ⟨asText_ne_huge, ?_⟩
  rintro ⟨text, -, h⟩
  split at h <;> cases h

theorem asPlugins_ne_huge : asPlugins place value ≠ .error .hugeRepetition := by
  unfold asPlugins asList
  split <;> simp [Checked.fail, bind, Except.bind, pure, Except.pure]

theorem asTransform_ne_huge : asTransform place value ≠ .error .hugeRepetition := by
  unfold asTransform asTransform.noTransform
  split <;> try simp
  split <;> simp

theorem asChain_ne_huge : asChain place value ≠ .error .hugeRepetition := by
  unfold asChain
  split
  · rw [ne_eq, bind_eq_error_iff, not_or]
    refine ⟨by simp [asList], ?_⟩
    rintro ⟨items, -, h⟩
    obtain ⟨item, -, hcheck⟩ := List.mem_map.1 (all_eq_huge_iff.1 h)
    exact asTransform_ne_huge hcheck
  · simp
  · split <;> simp [Checked.fail]
  · simp [Checked.fail]

theorem checkEntryNames_ne_huge {entries : List (String × FilePath)} :
    checkEntryNames place entries ≠ .error .hugeRepetition := by
  unfold checkEntryNames
  split <;> simp [Checked.fail]

theorem asEntries_ne_huge : asEntries place value ≠ .error .hugeRepetition := by
  unfold asEntries
  split
  · simp [Checked.fail]
  · rw [ne_eq, bind_eq_error_iff, not_or]
    refine ⟨fun h => ?_, fun ⟨_, _, h⟩ => checkEntryNames_ne_huge h⟩
    obtain ⟨item, -, hcheck⟩ := List.mem_map.1 (all_eq_huge_iff.1 h)
    exact asPath_ne_huge (map_eq_huge_iff.1 hcheck)
  · simp
  · simp
  · simp [Checked.fail]

theorem asOutput_ne_huge : asOutput place value ≠ .error .hugeRepetition := by
  unfold asOutput
  rw [ne_eq, bind_eq_error_iff, not_or]
  refine ⟨?_, ?_⟩
  · unfold asRecord
    split <;> simp [Checked.fail]
  · rintro ⟨fields, -, h⟩
    rcases both_eq_huge_iff.1 h with h | h
    · obtain ⟨value, -, hcheck⟩ := fieldOr_eq_huge_iff.1 (map_eq_huge_iff.1 h)
      exact asPath_ne_huge hcheck
    · obtain ⟨value, -, hcheck⟩ := fieldOr_eq_huge_iff.1 h
      exact asText_ne_huge hcheck

/-- A rule among these values has a pattern that repeats something too often. -/
def HasHugePattern (value : Setting π ω) : Prop :=
  ∃ rules, value = .list rules ∧ ∃ rule ∈ rules, ∃ fields text, rule = .table fields ∧
    fieldOf? "test" fields = some (.string text) ∧ Regex.parse text = .error .hugeRepetition

theorem asPattern_eq_huge_iff : asPattern place value = .error .hugeRepetition ↔
    ∃ text, value = .string text ∧ Regex.parse text = .error .hugeRepetition := by
  unfold asPattern
  rw [bind_eq_error_iff, or_iff_right asText_ne_huge]
  refine exists_congr fun text => and_congr ?_ ?_
  · cases value <;> simp [asText, Checked.fail, eq_comm]
  · split <;> simp_all [Checked.fail]

theorem asRule_eq_huge_iff : asRule place value = .error .hugeRepetition ↔
    ∃ fields text, value = .table fields ∧ fieldOf? "test" fields = some (.string text) ∧
      Regex.parse text = .error .hugeRepetition := by
  have hrecord : asRecord "Rule" place value ≠ .error .hugeRepetition := by
    unfold asRecord
    split <;> simp [Checked.fail]
  have hfields : ∀ fields, asRecord "Rule" place value = .ok fields ↔ value = .table fields := by
    intro fields
    cases value <;> simp [asRecord, Checked.fail]
  unfold asRule
  rw [bind_eq_error_iff, or_iff_right hrecord]
  simp only [hfields, both_eq_huge_iff, map_eq_huge_iff, field_eq_huge_iff, fieldOr_eq_huge_iff,
    asPattern_eq_huge_iff, asChain_ne_huge, and_false, exists_false, or_false]
  constructor
  · rintro ⟨fields, hvalue, test, htest, text, rfl, hparse⟩
    exact ⟨fields, text, hvalue, htest, hparse⟩
  · rintro ⟨fields, text, hvalue, htest, hparse⟩
    exact ⟨fields, hvalue, _, htest, text, rfl, hparse⟩

theorem asRules_eq_huge_iff : asRules place value = .error .hugeRepetition ↔ HasHugePattern value := by
  constructor
  · intro h
    unfold asRules asList at h
    split at h
    · next rules =>
      obtain ⟨checked, hchecked, hrule⟩ := List.mem_map.1 (all_eq_huge_iff.1 h)
      obtain ⟨⟨rule, index⟩, hmem, rfl⟩ := List.mem_map.1 hchecked
      exact ⟨rules, rfl, rule, List.fst_mem_of_mem_zipIdx hmem, asRule_eq_huge_iff.1 hrule⟩
    · cases h
  · rintro ⟨rules, rfl, rule, hmem, hrule⟩
    obtain ⟨index, hindex, rfl⟩ := List.mem_iff_getElem.1 hmem
    refine all_eq_huge_iff.2 (List.mem_map.2 ⟨(place ++ [.item index], rules[index]), ?_,
      asRule_eq_huge_iff.2 hrule⟩)
    refine List.mem_map.2 ⟨(rules[index], index), ?_, rfl⟩
    rw [List.mk_mem_zipIdx_iff_getElem?, List.getElem?_eq_getElem hindex]

theorem check_eq_huge_iff {root : FilePath} : check root (.table fields) = .error .hugeRepetition ↔
    ∃ rules, fieldOf? "rules" fields = some rules ∧ HasHugePattern rules := by
  unfold check
  simp only [asRecord, bind, Except.bind, both_eq_huge_iff, map_eq_huge_iff, field_eq_huge_iff,
    fieldOr_eq_huge_iff, asEntries_ne_huge, asOutput_ne_huge, asPlugins_ne_huge, asPath_ne_huge,
    asIdentifier_ne_huge, asExtension_ne_huge, asRules_eq_huge_iff, and_false, exists_false, or_false,
    false_or]

end Config

end Bundler
