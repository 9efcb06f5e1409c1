import Bundler.Config.Validate
import Bundler.Proofs.Artifact.Lines
import Bundler.Proofs.Text.Quoted

/-!
# Nothing breaks a line of a bundle

Code and identities are written as literals, the load function is an identifier, and the names of
entries are printable, so each character of a line can be shown or stands in a name (`legible_lines`).
No convention takes such a character for the end of a line (`oneLine_lines`), and all of them can be
encoded (`encode_unlines`). How many lines a bundle has depends on how many modules and entries it has
(`length_lines`).
-/

namespace Bundler

open Text

namespace Artifact

/-- The characters that some convention takes for the end of a line. -/
def lineEnds : List Char :=
  ['\n', '\r', '\x0b', '\x0c', '\x1c', '\x1d', '\x1e', '\u0085', '\u2028', '\u2029']

/-- The text lies on one line, under every convention. -/
def OneLine (text : List Char) : Prop := ∀ c ∈ text, c ∉ lineEnds

/-- Each character of the text can be shown as it is or stands in a name. -/
def Legible (text : List Char) : Prop := ∀ c ∈ text, isPrintable c = true ∨ isIdentifierPart c = true

theorem Legible.append {left right : List Char} (hleft : Legible left) (hright : Legible right) :
    Legible (left ++ right) :=
  List.forall_mem_append.2 ⟨hleft, hright⟩

theorem Legible.oneLine {text : List Char} (h : Legible text) : OneLine text := by
  have hends : (lineEnds.all fun c => !isPrintable c && !isIdentifierPart c) = true := by decide +kernel
  intro c hc hend
  have hillegible := List.all_eq_true.1 hends c hend
  rcases h c hc with hprintable | hpart
  · simp [hprintable] at hillegible
  · simp [hpart] at hillegible

theorem Legible.surrogateOf?_eq_none {text : List Char} (h : Legible text) {c : Char} (hc : c ∈ text) :
    surrogateOf? c = none := by
  by_contra hstand
  rw [surrogateOf?, ite_eq_right_iff, Classical.not_imp] at hstand
  obtain ⟨hplace, -⟩ := hstand
  have hbeyond : ¬ c.toNat < 127 ∧ ¬ c.toNat < 128 := by
    simp only [firstStandIn] at hplace
    omega
  have hparts : ((startsBeyondAscii ++ onlyContinuesBeyondAscii).all fun range =>
      decide (range.2 < firstStandIn) || decide (firstStandIn + surrogateCount ≤ range.1)) = true := by
    decide +kernel
  rcases h c hc with hprintable | hpart
  · have hrange : (918000, 1114111) ∈ unprintableBeyondAscii := by decide +kernel
    have hhas : unprintableBeyondAscii.has c = true :=
      Ranges.has_iff.2 ⟨_, hrange, by simp only [firstStandIn, surrogateCount] at hplace ⊢; omega⟩
    rw [isPrintable, if_neg hbeyond.1, hhas] at hprintable
    cases hprintable
  · rw [isIdentifierPart, if_neg hbeyond.2, Bool.or_eq_true, Ranges.has_iff, Ranges.has_iff] at hpart
    have hmem : ∃ range ∈ startsBeyondAscii ++ onlyContinuesBeyondAscii,
        range.1 ≤ c.toNat ∧ c.toNat ≤ range.2 := by
      simpa only [List.mem_append, or_and_right, exists_or] using hpart
    obtain ⟨range, hrange, hfirst, hlast⟩ := hmem
    have hapart := List.all_eq_true.1 hparts range hrange
    rw [Bool.or_eq_true, decide_eq_true_eq, decide_eq_true_eq] at hapart
    omega

theorem legible_of_isPrintable {text : List Char} (h : ∀ c ∈ text, isPrintable c = true) : Legible text :=
  fun c hc => .inl (h c hc)

theorem legible_plain (chars : List Char)
    (h : (chars.all fun c => decide (32 ≤ c.toNat) && decide (c.toNat < 127)) = true) :
    Legible chars := by
  refine legible_of_isPrintable fun c hc => ?_
  have hplain := List.all_eq_true.1 h c hc
  rw [Bool.and_eq_true, decide_eq_true_eq, decide_eq_true_eq] at hplain
  rw [isPrintable, if_pos hplain.2, decide_eq_true_eq]
  exact hplain.1

/-- Plain characters are legible. For a literal `rfl` decides the condition. -/
theorem legible_literal (chars : List Char)
    (h : (chars.all fun c => decide (32 ≤ c.toNat) && decide (c.toNat < 127)) = true) :
    Legible (String.ofList chars).toList := by
  rw [String.toList_ofList]
  exact legible_plain chars h

theorem legible_quoted (text : List Char) : Legible (quoted text) :=
  legible_of_isPrintable fun _ => isPrintable_of_mem_quoted

theorem all_isIdentifierPart {text : List Char} (h : isIdentifier text = true) :
    ∀ c ∈ text, isIdentifierPart c = true := by
  cases text with
  | nil => cases h
  | cons first rest =>
    rw [isIdentifier, Bool.and_eq_true, List.all_eq_true] at h
    rw [List.forall_mem_cons]
    refine ⟨?_, h.2⟩
    have hfirst := h.1
    rw [isIdentifierStart] at hfirst
    rw [isIdentifierPart]
    split
    · next hascii =>
      rw [if_pos hascii, Bool.or_eq_true] at hfirst
      rw [Char.isAlphanum, Bool.or_eq_true, Bool.or_eq_true]
      exact hfirst.imp_left .inl
    · next hascii =>
      rw [if_neg hascii] at hfirst
      rw [hfirst, Bool.true_or]

theorem legible_of_isIdentifier {text : List Char} (h : isIdentifier text = true) : Legible text :=
  fun c hc => .inr (all_isIdentifierPart h c hc)

theorem legible_closureName (index : Nat) : Legible (closureName index) := by
  refine .append (legible_literal _ rfl) fun c hc => .inr ?_
  rw [Nat.toString_eq_ofList_toDigits, String.toList_ofList] at hc
  have hdigit := Nat.isDigit_of_mem_toDigits (by decide) (by decide) hc
  have hascii : c.toNat < 128 := by
    simp only [Char.isDigit, Bool.and_eq_true, decide_eq_true_eq] at hdigit
    exact Nat.lt_of_le_of_lt (UInt32.le_iff_toNat_le.1 hdigit.2) (by decide)
  rw [isIdentifierPart, if_pos hascii, Char.isAlphanum, hdigit, Bool.or_true, Bool.true_or]

theorem legible_joinWith {sep : String} {texts : List String} (hsep : Legible sep.toList)
    (htexts : ∀ text ∈ texts, Legible text.toList) : Legible (joinWith sep texts).toList := by
  induction texts with
  | nil => exact fun _ hc => absurd hc List.not_mem_nil
  | cons text rest ih =>
    rw [List.forall_mem_cons] at htexts
    cases rest with
    | nil => exact htexts.1
    | cons next others =>
      rw [joinWith, String.toList_append, String.toList_append]
      exact (htexts.1.append hsep).append (ih htexts.2)

section Lines

variable {artifact : Artifact}

theorem legible_of_isEntryName {name : String} (h : Config.isEntryName name = true) :
    Legible name.toList := by
  rw [Config.isEntryName, Bool.and_eq_true, List.all_eq_true] at h
  exact legible_of_isPrintable h.2

theorem legible_headerLines
    (hnames : ∀ entry ∈ artifact.entries, Config.isEntryName entry.1 = true) :
    ∀ line ∈ artifact.headerLines, Legible line := by
  have hjoined : Legible (joinWith ", " (artifact.entries.map (·.1))).toList := by
    refine legible_joinWith (legible_literal _ rfl) fun name hname => ?_
    obtain ⟨entry, hentry, rfl⟩ := List.mem_map.1 hname
    exact legible_of_isEntryName (hnames entry hentry)
  have hversion : Legible version.toList := by
    rw [version]
    exact legible_literal _ rfl
  unfold headerLines
  simp only [List.forall_mem_cons, List.not_mem_nil, false_imp_iff, implies_true, and_true]
  refine ⟨legible_literal _ rfl, legible_literal _ rfl, ?_, ?_, legible_literal _ rfl, legible_plain _ rfl⟩
  · exact .append (.append (legible_literal _ rfl) hversion) (legible_literal _ rfl)
  · exact .append (legible_literal _ rfl) hjoined

theorem legible_closureLines (hruntime : Legible artifact.runtime.toList)
    (module : (Identity × String) × Nat) : ∀ line ∈ artifact.closureLines module, Legible line := by
  have hname := legible_closureName module.2
  have hruntimeQuoted := legible_quoted artifact.runtime.toList
  have hcode := legible_quoted module.1.2.toList
  have hidentity := legible_quoted module.1.1.toList
  unfold closureLines
  simp only [List.forall_mem_cons, List.not_mem_nil, false_imp_iff, implies_true, and_true]
  refine ⟨legible_plain _ rfl, ?_, ?_, ?_, legible_plain _ rfl⟩
  · exact .append (.append (.append (.append (legible_literal _ rfl) hname) (legible_literal _ rfl))
      hruntime) (legible_literal _ rfl)
  · exact .append (.append (.append (legible_literal _ rfl) hruntimeQuoted) (legible_literal _ rfl)) hruntime
  · exact .append (.append (.append (.append (legible_literal _ rfl) hcode) (legible_literal _ rfl))
      hidentity) (legible_literal _ rfl)

theorem legible_tableLine (module : (Identity × String) × Nat) : Legible (tableLine module) := by
  unfold tableLine
  exact .append (.append (.append (.append (legible_literal _ rfl) (legible_quoted _)) (legible_literal _ rfl))
    (legible_closureName _)) (legible_plain _ rfl)

theorem legible_runtimeLines (hruntime : Legible artifact.runtime.toList) :
    ∀ line ∈ artifact.runtimeLines, Legible line := by
  unfold runtimeLines
  simp only [List.forall_mem_cons, List.not_mem_nil, false_imp_iff, implies_true, and_true]
  refine ⟨legible_plain _ rfl, legible_literal _ rfl, legible_plain _ rfl, legible_plain _ rfl, ?_, legible_literal _ rfl,
    legible_literal _ rfl, legible_literal _ rfl, legible_literal _ rfl, legible_literal _ rfl, ?_, legible_literal _ rfl,
    legible_plain _ rfl⟩
  · exact .append (.append (legible_literal _ rfl) hruntime) (legible_literal _ rfl)
  · exact .append (.append (legible_literal _ rfl) hruntime) (legible_plain _ rfl)

theorem legible_bootstrapLines (hruntime : Legible artifact.runtime.toList)
    {entry : String × Identity} (hname : Legible entry.1.toList) :
    ∀ line ∈ artifact.bootstrapLines entry, Legible line := by
  unfold bootstrapLines
  simp only [List.forall_mem_cons, List.not_mem_nil, false_imp_iff, implies_true, and_true]
  refine ⟨legible_plain _ rfl, ?_⟩
  have hcall : Legible ('(' :: quoted entry.2.toList) :=
    .append (legible_plain ['('] rfl) (legible_quoted _)
  exact .append (.append (.append hruntime hcall) (legible_literal _ rfl)) hname

theorem legible_lines (hruntime : isIdentifier artifact.runtime.toList = true)
    (hnames : ∀ entry ∈ artifact.entries, Config.isEntryName entry.1 = true) :
    ∀ line ∈ artifact.lines, Legible line := by
  have hruntime := legible_of_isIdentifier hruntime
  intro line hline
  simp only [lines, List.mem_append, List.mem_flatMap, List.mem_map] at hline
  rcases hline with hline | ⟨module, -, hline⟩ | hline | ⟨module, -, rfl⟩ | hline |
    ⟨entry, hentry, hline⟩
  · exact legible_headerLines hnames line hline
  · exact legible_closureLines hruntime module line hline
  · revert line
    rw [List.forall_mem_cons, List.forall_mem_singleton]
    exact ⟨legible_plain _ rfl, legible_literal _ rfl⟩
  · exact legible_tableLine module
  · exact legible_runtimeLines hruntime line hline
  · exact legible_bootstrapLines hruntime (legible_of_isEntryName (hnames entry hentry)) line hline

theorem oneLine_lines (hruntime : isIdentifier artifact.runtime.toList = true)
    (hnames : ∀ entry ∈ artifact.entries, Config.isEntryName entry.1 = true) :
    ∀ line ∈ artifact.lines, OneLine line :=
  fun line hline => (legible_lines hruntime hnames line hline).oneLine

/-- Whatever texts the modules have, their bundle can be encoded. -/
theorem encode_unlines (hruntime : isIdentifier artifact.runtime.toList = true)
    (hnames : ∀ entry ∈ artifact.entries, Config.isEntryName entry.1 = true) :
    Utf8.encode (String.ofList (unlines artifact.lines))
      = .ok (String.ofList (unlines artifact.lines)).toUTF8 := by
  have hnone : ∀ c ∈ unlines artifact.lines, surrogateOf? c = none := by
    intro c hc
    obtain ⟨line, hline, hc⟩ := List.mem_flatMap.1 hc
    rcases List.mem_append.1 hc with hc | hc
    · exact (legible_lines hruntime hnames line hline).surrogateOf?_eq_none hc
    · rw [List.mem_singleton.1 hc]
      rfl
  rw [Utf8.encode, String.toList_ofList, Utf8.firstStandIn?_eq_none_iff.2 hnone]

theorem length_flatMap_of_length {α : Type} {values : List α} {lines : α → List (List Char)}
    {count : Nat} (h : ∀ value, (lines value).length = count) :
    (values.flatMap lines).length = values.length * count := by
  rw [List.length_flatMap, funext h, List.map_const', List.sum_replicate_nat]

theorem length_lines :
    artifact.lines.length = 21 + 6 * artifact.modules.length + 2 * artifact.entries.length := by
  have hclosures : (artifact.modules.zipIdx.flatMap artifact.closureLines).length
      = artifact.modules.zipIdx.length * 5 := length_flatMap_of_length fun _ => rfl
  have hbootstraps : (artifact.entries.flatMap artifact.bootstrapLines).length
      = artifact.entries.length * 2 := length_flatMap_of_length fun _ => rfl
  rw [List.length_zipIdx] at hclosures
  simp only [lines, headerLines, runtimeLines, List.length_append, List.length_map,
    List.length_zipIdx, List.length_cons, List.length_nil, hclosures, hbootstraps]
  omega

end Lines

end Artifact
end Bundler
