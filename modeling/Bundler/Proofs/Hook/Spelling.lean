import Bundler.Hook.Basic
import Bundler.Proofs.Text.Case
import Bundler.Proofs.Text.Pieces

/-!
# How a phase can be spelled

A text is looked up as a name in lower case with underscores between its words. It comes to the name of a
phase exactly if it has the words of the phase in their order, the first one as it is or with a capital
letter and each other one behind an underscore or with a capital letter (`snakeCase_eq_snakeName_iff`). Such
a text gives the hook of the phase, whatever callbacks have been added, and every other text is a fault
(`hook_of_spelling`).
-/

namespace Bundler

namespace Phase

/-- The word with a capital first letter. -/
def capitalised : List Char → List Char
  | [] => []
  | first :: rest => first.toUpper :: rest

/-- Words behind another one: each stands behind an underscore or has a capital first letter. -/
inductive Continues : List (List Char) → List Char → Prop
  | nil : Continues [] []
  | apart {word words text} (h : Continues words text) : Continues (word :: words) ('_' :: word ++ text)
  | capital {word words text} (h : Continues words text) :
      Continues (word :: words) (capitalised word ++ text)

/-- Words from the first one on, which stands as it is or has a capital first letter. -/
inductive Spelled : List (List Char) → List Char → Prop
  | small {word words text} (h : Continues words text) : Spelled (word :: words) (word ++ text)
  | capital {word words text} (h : Continues words text) :
      Spelled (word :: words) (capitalised word ++ text)

def words : Phase → List String
  | .run => ["run"]
  | .beforeEntryOptions => ["before", "entry", "options"]
  | .afterEntryOptions => ["after", "entry", "options"]
  | .beforeCompile => ["before", "compile"]
  | .afterCompile => ["after", "compile"]
  | .beforeEmitFile => ["before", "emit", "file"]
  | .afterEmitFile => ["after", "emit", "file"]
  | .done => ["done"]

/-- The text has the words of the phase in their order and nothing else. -/
def Spells (phase : Phase) (text : String) : Prop :=
  Spelled (phase.words.map String.toList) text.toList

/-- A word that can be told from what stands around it in a name: it is made of small letters that nothing
beyond ASCII becomes. -/
def IsWord (word : List Char) : Prop := word ≠ [] ∧ ∀ c ∈ word, c ≠ '_' ∧ Text.IsUnshared c

/-! ### From the words to the name -/

variable {word first : List Char} {words : List (List Char)} {text out : List Char} {c : Char}

/-- What the characters behind the first one are looked up as if they are ASCII. -/
def snakeRest (text : List Char) : List Char := (text.flatMap underscored).map Char.toLower

/-- What a text is looked up as if it is ASCII. -/
def snakeAscii (text : List Char) : List Char := (wordsApart text).map Char.toLower

theorem snakeAscii_cons (c : Char) (text : List Char) : snakeAscii (c :: text) = c.toLower :: snakeRest text :=
  rfl

theorem snakeRest_cons_of_isUpper (h : c.isUpper) :
    snakeRest (c :: text) = '_' :: c.toLower :: snakeRest text := by
  simp [snakeRest, underscored, h]

theorem snakeRest_cons_of_not_isUpper (h : ¬ c.isUpper) : snakeRest (c :: text) = c :: snakeRest text := by
  simp [snakeRest, underscored, h, Char.toLower_eq_of_not_isUpper h]

theorem snakeRest_append (hword : ∀ c ∈ word, c ≠ '_' ∧ Text.IsUnshared c) :
    snakeRest (word ++ text) = word ++ snakeRest text := by
  induction word with
  | nil => rfl
  | cons c word ih =>
    rw [List.forall_mem_cons] at hword
    have hc : ¬ c.isUpper := hword.1.2.not_isUpper
    rw [List.cons_append, snakeRest_cons_of_not_isUpper hc, ih hword.2, List.cons_append]

theorem IsWord.exists_eq (h : IsWord word) : ∃ c rest, word = c :: rest ∧ c.toUpper.isUpper ∧
    Text.IsUnshared c ∧ ∀ d ∈ rest, d ≠ '_' ∧ Text.IsUnshared d := by
  obtain ⟨c, rest, rfl⟩ := List.exists_cons_of_ne_nil h.1
  obtain ⟨⟨hc, hplain⟩, hrest⟩ := List.forall_mem_cons.1 h.2
  have hlower : c.isLower := (hplain.resolve_left hc).1
  exact ⟨c, rest, rfl, by simp [Char.isAlpha, hlower], hplain, hrest⟩

theorem snakeRest_capitalised_append (h : IsWord word) :
    snakeRest (capitalised word ++ text) = '_' :: word ++ snakeRest text := by
  obtain ⟨c, rest, rfl, hupper, hplain, hrest⟩ := h.exists_eq
  rw [capitalised, List.cons_append, snakeRest_cons_of_isUpper hupper, hplain.toLower_toUpper,
    snakeRest_append hrest]
  rfl

theorem snakeRest_apart_append (h : IsWord word) :
    snakeRest ('_' :: word ++ text) = '_' :: word ++ snakeRest text := by
  rw [List.cons_append, snakeRest_cons_of_not_isUpper (by decide), snakeRest_append h.2]
  rfl

theorem Continues.snakeRest_eq (h : Continues words text) (hwords : ∀ word ∈ words, IsWord word) :
    snakeRest text = words.flatMap ('_' :: ·) := by
  induction h with
  | nil => rfl
  | apart _ ih =>
    obtain ⟨hword, hothers⟩ := List.forall_mem_cons.1 hwords
    rw [snakeRest_apart_append hword, ih hothers, List.flatMap_cons]
  | capital _ ih =>
    obtain ⟨hword, hothers⟩ := List.forall_mem_cons.1 hwords
    rw [snakeRest_capitalised_append hword, ih hothers, List.flatMap_cons]

theorem Spelled.snakeAscii_eq (h : Spelled (first :: words) text)
    (hwords : ∀ word ∈ first :: words, IsWord word) :
    snakeAscii text = first ++ words.flatMap ('_' :: ·) := by
  obtain ⟨hfirst, hothers⟩ := List.forall_mem_cons.1 hwords
  obtain ⟨c, rest, rfl, -, hplain, hrest⟩ := hfirst.exists_eq
  cases h with
  | small h =>
    rw [List.cons_append, snakeAscii_cons, hplain.toLower_eq, snakeRest_append hrest, h.snakeRest_eq hothers]
    rfl
  | capital h =>
    rw [capitalised, List.cons_append, snakeAscii_cons, hplain.toLower_toUpper, snakeRest_append hrest,
      h.snakeRest_eq hothers]
    rfl

/-! ### From the name to the words -/

/-- A word of the name stands in the text as it is: a capital letter would bring an underscore with it. -/
theorem exists_of_snakeRest_eq_append (hword : ∀ c ∈ word, c ≠ '_' ∧ Text.IsUnshared c)
    (h : snakeRest text = word ++ out) : ∃ rest, text = word ++ rest ∧ snakeRest rest = out := by
  induction word generalizing text with
  | nil => exact ⟨text, rfl, h⟩
  | cons c word ih =>
    rw [List.forall_mem_cons] at hword
    cases text with
    | nil => exact absurd h (by simp [snakeRest])
    | cons d text =>
      by_cases hd : d.isUpper
      · rw [snakeRest_cons_of_isUpper hd] at h
        exact absurd (List.cons.inj h).1.symm hword.1.1
      · rw [snakeRest_cons_of_not_isUpper hd] at h
        obtain ⟨rfl, htail⟩ := List.cons.inj h
        obtain ⟨rest, rfl, hrest⟩ := ih hword.2 htail
        exact ⟨rest, rfl, hrest⟩

/-- An underscore before a word of the name comes from a capital letter, or stands in the text. -/
theorem exists_of_snakeRest_eq_apart (h : IsWord word) (heq : snakeRest text = '_' :: word ++ out) :
    ∃ rest, (text = '_' :: word ++ rest ∨ text = capitalised word ++ rest) ∧ snakeRest rest = out := by
  obtain ⟨c, more, rfl, -, hplain, hmore⟩ := h.exists_eq
  cases text with
  | nil => exact absurd heq (by simp [snakeRest])
  | cons d text =>
    by_cases hd : d.isUpper
    · rw [snakeRest_cons_of_isUpper hd] at heq
      obtain ⟨hfirst, htail⟩ := List.cons.inj (List.cons.inj heq).2
      obtain ⟨rest, rfl, hrest⟩ := exists_of_snakeRest_eq_append hmore htail
      rcases (Text.toLower_eq_iff hplain).1 hfirst with rfl | rfl
      · exact absurd hd hplain.not_isUpper
      · exact ⟨rest, .inr rfl, hrest⟩
    · rw [snakeRest_cons_of_not_isUpper hd] at heq
      obtain ⟨rfl, htail⟩ := List.cons.inj heq
      obtain ⟨rest, rfl, hrest⟩ := exists_of_snakeRest_eq_append h.2 htail
      exact ⟨rest, .inl rfl, hrest⟩

theorem continues_of_snakeRest_eq (hwords : ∀ word ∈ words, IsWord word)
    (h : snakeRest text = words.flatMap ('_' :: ·)) : Continues words text := by
  induction words generalizing text with
  | nil =>
    cases text with
    | nil => exact .nil
    | cons d text =>
      by_cases hd : d.isUpper
      · exact absurd h (by simp [snakeRest_cons_of_isUpper hd])
      · exact absurd h (by simp [snakeRest_cons_of_not_isUpper hd])
  | cons word words ih =>
    obtain ⟨hword, hothers⟩ := List.forall_mem_cons.1 hwords
    rw [List.flatMap_cons] at h
    obtain ⟨rest, rfl | rfl, hrest⟩ := exists_of_snakeRest_eq_apart hword h
    · exact .apart (ih hothers hrest)
    · exact .capital (ih hothers hrest)

theorem spelled_of_snakeAscii_eq (hwords : ∀ word ∈ first :: words, IsWord word)
    (h : snakeAscii text = first ++ words.flatMap ('_' :: ·)) : Spelled (first :: words) text := by
  obtain ⟨hfirst, hothers⟩ := List.forall_mem_cons.1 hwords
  obtain ⟨c, more, rfl, -, hplain, hmore⟩ := hfirst.exists_eq
  cases text with
  | nil => exact absurd h (by simp [snakeAscii, wordsApart])
  | cons d text =>
    rw [snakeAscii_cons] at h
    obtain ⟨hletter, htail⟩ := List.cons.inj h
    obtain ⟨rest, rfl, hrest⟩ := exists_of_snakeRest_eq_append hmore htail
    have hcontinues : Continues words rest := continues_of_snakeRest_eq hothers hrest
    rcases (Text.toLower_eq_iff hplain).1 hletter with rfl | rfl
    · exact .small hcontinues
    · exact .capital hcontinues

/-! ### The name that a text is looked up as -/

theorem isUnshared_glue (hwords : ∀ word ∈ words, IsWord word) :
    ∀ c ∈ Text.glue '_' words, Text.IsUnshared c := by
  intro c hc
  by_contra hnot
  have hsep : c ≠ '_' := fun h => hnot (.inl h)
  exact Text.notMem_glue hsep (fun word hword hmem => hnot ((hwords word hword).2 c hmem).2) hc

theorem lowerCase_wordsApart_eq_iff (hwords : ∀ word ∈ first :: words, IsWord word) :
    Text.lowerCase (wordsApart text) = Text.glue '_' (first :: words) ↔ Spelled (first :: words) text := by
  rw [Text.lowerCase_eq_iff (isUnshared_glue hwords), Text.glue_cons]
  exact ⟨spelled_of_snakeAscii_eq hwords, fun h => h.snakeAscii_eq hwords⟩

theorem snakeName_eq (phase : Phase) :
    phase.snakeName = String.ofList (Text.glue '_' (phase.words.map String.toList)) := by
  cases phase <;> rfl

theorem isWord_of_mem_words (phase : Phase) : ∀ word ∈ phase.words.map String.toList, IsWord word := by
  cases phase <;> simp [words, IsWord, Text.IsUnshared, Char.isLower]

theorem words_ne_nil (phase : Phase) : phase.words.map String.toList ≠ [] := by
  cases phase <;> exact List.cons_ne_nil _ _

variable {phase other : Phase} {text : String}

theorem snakeCase_eq_snakeName_iff : snakeCase text = phase.snakeName ↔ phase.Spells text := by
  have hwords := isWord_of_mem_words phase
  obtain ⟨first, others, heq⟩ := List.exists_cons_of_ne_nil (words_ne_nil phase)
  rw [snakeCase, snakeName_eq, String.ofList_inj, Spells, heq]
  exact lowerCase_wordsApart_eq_iff (heq ▸ hwords)

instance : Decidable (phase.Spells text) := decidable_of_iff _ snakeCase_eq_snakeName_iff

example : beforeCompile.Spells "Before_compile" ∧ ¬ beforeCompile.Spells "before_Compile" := by decide +kernel

theorem spells_name (phase : Phase) : phase.Spells phase.name :=
  snakeCase_eq_snakeName_iff.1 (by cases phase <;> rfl)

theorem spells_snakeName (phase : Phase) : phase.Spells phase.snakeName :=
  snakeCase_eq_snakeName_iff.1 (by cases phase <;> rfl)

theorem subset_wordsApart (text : List Char) : text ⊆ wordsApart text := by
  cases text with
  | nil => exact List.Subset.refl _
  | cons first rest =>
    refine List.cons_subset_cons _ fun c hc => List.mem_flatMap.2 ⟨c, hc, ?_⟩
    rw [underscored]
    split <;> simp

/-- A letter beyond ASCII keeps a text from spelling a phase, whatever it is in lower case. -/
theorem ascii_of_spells (h : phase.Spells text) : ∀ c ∈ text.toList, c.toNat < 128 := by
  have hname := snakeCase_eq_snakeName_iff.2 h
  rw [snakeCase, snakeName_eq, String.ofList_inj] at hname
  have hplain : ∀ c ∈ Text.lowerCase (wordsApart text.toList), Text.IsUnshared c :=
    hname ▸ isUnshared_glue (isWord_of_mem_words phase)
  exact fun c hc => Text.ascii_of_lowerCaseFrom false hplain c (subset_wordsApart text.toList hc)

/-! ### The phase that a text spells -/

theorem Member.ofName?_eq_hook_iff {name : String} :
    Member.ofName? name = some (.hook phase) ↔ phase.snakeName = name := by
  constructor
  · intro h
    rw [Member.ofName?] at h
    split at h
    next found hfind =>
      obtain rfl : found = phase := Member.hook.inj (Option.some.inj h)
      have hname := List.find?_some hfind
      exact eq_of_beq hname
    next =>
      obtain ⟨other, -, hother⟩ := Option.map_eq_some_iff.1 h
      exact absurd hother nofun
  · rintro rfl
    cases phase <;> rfl

theorem ofSpelling?_eq_some_iff : ofSpelling? text = some phase ↔ phase.Spells text := by
  rw [← snakeCase_eq_snakeName_iff, eq_comm (a := snakeCase text), ← Member.ofName?_eq_hook_iff, ofSpelling?]
  split
  next found hname => rw [hname]; simp
  next hname => simpa using hname phase

theorem ofSpelling?_eq_none_iff : ofSpelling? text = none ↔ ∀ phase, ¬ Spells phase text := by
  simp only [Option.eq_none_iff_forall_ne_some, ne_eq, ofSpelling?_eq_some_iff]

theorem ofSpelling_eq_ok_iff : ofSpelling text = .ok phase ↔ phase.Spells text := by
  rw [← ofSpelling?_eq_some_iff, ofSpelling]
  cases ofSpelling? text <;> simp

theorem ofSpelling_eq_error_iff {fault : UnknownPhase} :
    ofSpelling text = .error fault ↔ (∀ phase, ¬ Spells phase text) ∧ fault = ⟨text⟩ := by
  rw [← ofSpelling?_eq_none_iff, ofSpelling]
  cases ofSpelling? text <;> simp [eq_comm]

theorem Spells.unique (h : phase.Spells text) (hother : other.Spells text) : phase = other :=
  Except.ok.inj ((ofSpelling_eq_ok_iff.2 h).symm.trans (ofSpelling_eq_ok_iff.2 hother))

theorem not_spells_of_mem_otherNames (h : snakeCase text ∈ otherNames) (phase : Phase) :
    ¬ phase.Spells text := by
  intro hspells
  rw [snakeCase_eq_snakeName_iff.2 hspells] at h
  cases phase <;> exact absurd h (by decide)

theorem name_injective : Function.Injective name := by
  intro phase other
  cases phase <;> cases other <;> decide

end Phase

/-! ### The hook that a text gives -/

namespace Hooks

variable {κ : Type} {hooks : Hooks κ} {text : String}

/-- The hooks once callbacks have been added one after the other. -/
def after (taps : List (Phase × Tap κ)) : Hooks κ :=
  taps.foldl (fun hooks (phase, tap) => hooks.tap phase tap.label tap.callback) empty

theorem name_tap (hooks : Hooks κ) (phase other : Phase) (label : String) (callback : κ) :
    (hooks.tap phase label callback other).name = (hooks other).name := by
  rw [tap]
  split <;> rfl

theorem name_after (taps : List (Phase × Tap κ)) (phase : Phase) : (after taps phase).name = phase.name := by
  induction taps using List.reverseRecOn with
  | nil => rfl
  | append_singleton before last ih =>
    rw [after, List.foldl_append]
    exact (name_tap _ _ _ _ _).trans ih

theorem after_injective (taps : List (Phase × Tap κ)) : Function.Injective (after taps) := by
  intro phase other h
  rw [← Phase.name_injective.eq_iff, ← name_after taps, ← name_after taps, h]

theorem get_eq_ok_iff {hook : Hook κ} :
    hooks.get text = .ok hook ↔ ∃ phase, Phase.Spells phase text ∧ hooks phase = hook := by
  simp only [← Phase.ofSpelling_eq_ok_iff, get]
  cases Phase.ofSpelling text <;> simp [Except.map]

theorem get_eq_error_iff {fault : UnknownPhase} :
    hooks.get text = .error fault ↔ (∀ phase, ¬ Phase.Spells phase text) ∧ fault = ⟨text⟩ := by
  rw [← Phase.ofSpelling_eq_error_iff, get]
  cases Phase.ofSpelling text <;> simp [Except.map]

/-- A text gives the hook of a phase exactly if it spells the phase, and it is a fault if it spells none. The
name of a phase spells it in both forms, and no text spells two phases. A text with a character beyond ASCII
is a fault, whatever it is in lower case, and so is one that is looked up as the name of something else. -/
theorem hook_of_spelling (taps : List (Phase × Tap κ)) (text : String) :
    (∀ phase, (after taps).get text = .ok (after taps phase) ↔ phase.Spells text) ∧
    ((after taps).get text = .error ⟨text⟩ ↔ ∀ phase, ¬ Phase.Spells phase text) ∧
    (∀ phase : Phase, phase.Spells phase.name ∧ phase.Spells phase.snakeName) ∧
    (∀ phase other : Phase, phase.Spells text → other.Spells text → phase = other) ∧
    ((∃ c ∈ text.toList, 128 ≤ c.toNat) ∨ Phase.snakeCase text ∈ Phase.otherNames →
      (after taps).get text = .error ⟨text⟩) := by
  have herror : (after taps).get text = .error ⟨text⟩ ↔ ∀ phase, ¬ Phase.Spells phase text := by
    simp [get_eq_error_iff]
  refine ⟨fun phase => ?_, herror, fun phase => ⟨phase.spells_name, phase.spells_snakeName⟩,
    fun _ _ => Phase.Spells.unique, ?_⟩
  · simp [get_eq_ok_iff, (after_injective taps).eq_iff]
  · rw [herror]
    rintro (⟨c, hc, hcode⟩ | hname) phase hspells
    · exact absurd (Phase.ascii_of_spells hspells c hc) (Nat.not_lt.2 hcode)
    · exact Phase.not_spells_of_mem_otherNames hname phase hspells

theorem hook_of_spelling_capital :
    Phase.Spells .run "Run" ∧
    (after [(.run, ⟨"log", ()⟩)]).get "Run" = .ok ⟨"run", ["status"], [⟨"log", ()⟩]⟩ ∧
    (∀ other : Phase, other.Spells "Run" → Phase.run = other) ∧
    Phase.snakeCase "Get" ∈ Phase.otherNames ∧
    (after [(.run, ⟨"log", ()⟩)]).get "Get" = .error ⟨"Get"⟩ := by
  have hrun : Phase.Spells .run "Run" := .capital .nil
  have hget : Phase.snakeCase "Get" ∈ Phase.otherNames := by
    have hname : Phase.snakeCase "Get" = "get" := rfl
    rw [hname]
    decide
  have hfound := hook_of_spelling [(.run, ⟨"log", ()⟩)] "Run"
  have hrefused := hook_of_spelling [(.run, ⟨"log", ()⟩)] "Get"
  exact ⟨hrun, (hfound.1 .run).2 hrun, fun other => hfound.2.2.2.1 .run other hrun, hget,
    hrefused.2.2.2.2 (.inr hget)⟩

/-- A capital first letter and words that are set apart in different ways are no fault. -/
theorem hook_of_other_spellings :
    (after ([] : List (Phase × Tap Unit))).get "Run" = .ok (after [] .run) ∧
    "Run" ≠ Phase.name .run ∧ "Run" ≠ Phase.snakeName .run ∧
    (after ([] : List (Phase × Tap Unit))).get "before_entryOptions" = .ok (after [] .beforeEntryOptions) ∧
    "before_entryOptions" ≠ Phase.name .beforeEntryOptions ∧
    "before_entryOptions" ≠ Phase.snakeName .beforeEntryOptions := by
  refine ⟨rfl, by decide, by decide, rfl, by decide, by decide⟩

end Hooks
end Bundler
