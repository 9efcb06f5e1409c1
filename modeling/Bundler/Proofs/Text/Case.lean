import Bundler.Text.Case
import Mathlib

/-!
# What is written in small letters of ASCII

Beyond ASCII only the Kelvin sign and the dotted I become texts with a letter of ASCII, and those are `k` and
an `i` with a dot over it. A text whose lower case has underscores and small letters other than `k` alone is
therefore one of ASCII, and it differs from its lower case at letters from A to Z only (`lowerCase_eq_iff`).
-/

namespace Bundler.Text

variable {c d : Char} {text out : List Char}

/-- An underscore or a small letter that nothing beyond ASCII becomes in lower case. -/
def IsUnshared (c : Char) : Prop := c = '_' ∨ c.isLower = true ∧ c ≠ 'k'

instance : DecidablePred IsUnshared := fun c =>
  inferInstanceAs (Decidable (c = '_' ∨ c.isLower = true ∧ c ≠ 'k'))

theorem IsUnshared.bounds (h : IsUnshared c) : 95 ≤ c.toNat ∧ c.toNat < 128 := by
  rcases h with rfl | ⟨hlower, _⟩
  · decide
  · simp only [Char.isLower, Bool.and_eq_true, decide_eq_true_eq, UInt32.le_iff_toNat_le] at hlower
    have hfirst : 97 ≤ c.toNat := hlower.1
    have hlast : c.toNat ≤ 122 := hlower.2
    omega

/-! ### One character -/

/-- A run from U+0080 on leads to characters from there on, apart from two runs of one character. -/
theorem bounds_of_mem_lowerMap : ∀ run ∈ lowerMap,
    run.last < 128 ∨ run = ⟨304, 304, 1, -199⟩ ∨ run = ⟨8490, 8490, 1, -8383⟩ ∨
      128 ≤ (run.first : Int) + run.distance := by
  decide +kernel

theorem apply_lowerMap {code : Nat} (hcode : 128 ≤ code) (hdotted : code ≠ 304) :
    lowerMap.apply code = 107 ∨ 128 ≤ lowerMap.apply code := by
  rw [CaseMap.apply]
  split
  next run hfind =>
    have hmoves : (run.first ≤ code ∧ code ≤ run.last) ∧ (code - run.first) % run.step = 0 := by
      simpa [CaseRun.moves] using List.find?_some hfind
    obtain ⟨⟨hfirst, hlast⟩, -⟩ := hmoves
    rcases bounds_of_mem_lowerMap run (List.mem_of_find?_eq_some hfind) with h | rfl | rfl | h
    · omega
    · exact absurd (Nat.le_antisymm hlast hfirst) hdotted
    · have hkelvin : code = 8490 := Nat.le_antisymm hlast hfirst
      subst hkelvin
      exact .inl (by decide)
    · right
      omega
  next => exact .inr hcode

theorem not_isUnshared_ofNat {code : Nat} (h : code = 107 ∨ 128 ≤ code) :
    ¬ IsUnshared (Char.ofNat code) := by
  intro hplain
  rcases h with rfl | hcode
  · exact absurd hplain (by decide)
  · have hbounds := hplain.bounds
    rw [Char.toNat_ofNat] at hbounds
    split at hbounds <;> omega

theorem loweredAt_of_ascii {ending : Bool} (h : c.toNat < 128) : loweredAt ending c = [c.toLower] := if_pos h

theorem exists_not_isUnshared_loweredAt (ending : Bool) (h : 128 ≤ c.toNat) :
    ∃ d ∈ loweredAt ending c, ¬ IsUnshared d := by
  rw [loweredAt, if_neg (by omega)]
  split
  next => exact ⟨'\u0307', by simp, fun h => absurd h.bounds (by decide)⟩
  next hdotted =>
    split
    next => exact ⟨_, List.mem_singleton_self _, fun h => absurd h.bounds (by cases ending <;> decide)⟩
    next =>
      have hcode : c.toNat ≠ 304 := fun h => hdotted (by rw [← Char.ofNat_toNat c, h])
      exact ⟨_, List.mem_singleton_self _, not_isUnshared_ofNat (apply_lowerMap h hcode)⟩

theorem IsUnshared.not_isUpper (h : IsUnshared c) : ¬ c.isUpper := by
  rcases h with rfl | ⟨hlower, _⟩
  · decide
  · exact Char.not_isUpper_of_isLower hlower

theorem IsUnshared.toLower_eq (h : IsUnshared c) : c.toLower = c := Char.toLower_eq_of_not_isUpper h.not_isUpper

theorem IsUnshared.toLower_toUpper (h : IsUnshared c) : c.toUpper.toLower = c := by
  rw [Char.toLower_toUpper_eq_toLower, h.toLower_eq]

theorem toLower_eq_iff (h : IsUnshared d) : c.toLower = d ↔ c = d ∨ c = d.toUpper := by
  constructor
  · rintro rfl
    by_cases hc : c.isUpper
    · right
      rw [Char.toUpper_toLower_eq_toUpper, Char.toUpper_eq_of_not_isLower (Char.not_isLower_of_isUpper hc)]
    · exact .inl (Char.toLower_eq_of_not_isUpper hc).symm
  · rintro (rfl | rfl)
    · exact h.toLower_eq
    · exact h.toLower_toUpper

theorem toNat_lt_of_toLower (h : IsUnshared c.toLower) : c.toNat < 128 := by
  by_cases hc : c.isUpper
  · simp only [Char.isUpper, decide_eq_true_eq, UInt32.le_iff_toNat_le] at hc
    have hlast : c.toNat ≤ 90 := hc.2
    omega
  · rw [Char.toLower_eq_of_not_isUpper hc] at h
    exact h.bounds.2

/-! ### A text -/

theorem lowerCaseFrom_of_ascii (inWord : Bool) (h : ∀ c ∈ text, c.toNat < 128) :
    lowerCaseFrom inWord text = text.map Char.toLower := by
  induction text generalizing inWord with
  | nil => rfl
  | cons c rest ih =>
    rw [lowerCaseFrom, loweredAt_of_ascii (h c List.mem_cons_self), ih _ fun d hd => h d (.tail _ hd)]
    rfl

theorem ascii_of_lowerCaseFrom (inWord : Bool) (h : ∀ d ∈ lowerCaseFrom inWord text, IsUnshared d) :
    ∀ c ∈ text, c.toNat < 128 := by
  induction text generalizing inWord with
  | nil => exact fun _ hc => absurd hc List.not_mem_nil
  | cons c rest ih =>
    rw [lowerCaseFrom, List.forall_mem_append] at h
    rw [List.forall_mem_cons]
    refine ⟨?_, ih _ h.2⟩
    by_contra hc
    obtain ⟨d, hd, hnot⟩ := exists_not_isUnshared_loweredAt _ (Nat.le_of_not_lt hc)
    exact hnot (h.1 d hd)

theorem lowerCase_eq_iff (hout : ∀ d ∈ out, IsUnshared d) :
    lowerCase text = out ↔ text.map Char.toLower = out := by
  constructor
  · rintro rfl
    exact (lowerCaseFrom_of_ascii false (ascii_of_lowerCaseFrom false hout)).symm
  · rintro rfl
    exact lowerCaseFrom_of_ascii false fun c hc => toNat_lt_of_toLower (hout _ (List.mem_map_of_mem hc))

end Bundler.Text
