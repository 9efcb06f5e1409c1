import Bundler.Proofs.Path.Written
import Mathlib.Data.List.DropRight

/-!
# What load targets lead to

A load target gives an identity that is written from the steps to a file below the root, none of which
leads upwards (`ofTarget_eq_ok`). The directory in which the target is read has to be a relative one;
every identity has such a directory.
-/

namespace Bundler

namespace Lexical

variable {place : List (List Char)} {name : List Char}

/-- A name that a walk may keep: a step up or a component of a path. -/
def Kept (name : List Char) : Prop := name ≠ [] ∧ name ≠ ['.'] ∧ '/' ∉ name

/-- The place a walk has reached: names below some steps up, the last name first. -/
def Settled (place : List (List Char)) : Prop :=
  ∃ names ups, place = names ++ List.replicate ups ['.', '.'] ∧ ['.', '.'] ∉ names

theorem kept_walk (hplace : ∀ n ∈ place, Kept n) (hslash : '/' ∉ name) :
    ∀ n ∈ walk false place name, Kept n := by
  intro n hn
  unfold walk at hn
  split at hn
  · exact hplace n hn
  · next hblank =>
    rw [not_or] at hblank
    have hname : Kept name := ⟨hblank.1, hblank.2, hslash⟩
    split at hn
    · rcases List.mem_cons.1 hn with rfl | hn
      · exact hname
      · exact hplace n hn
    · cases place with
      | nil =>
        simp only [Bool.false_eq_true, if_false, List.mem_singleton] at hn
        exact hn ▸ hname
      | cons last above =>
        simp only at hn
        split at hn
        · rcases List.mem_cons.1 hn with rfl | hn
          · exact hname
          · exact hplace n hn
        · exact hplace n (List.mem_cons_of_mem _ hn)

theorem settled_walk (hplace : Settled place) : Settled (walk false place name) := by
  obtain ⟨names, ups, rfl, hnot⟩ := hplace
  unfold walk
  split
  · exact ⟨names, ups, rfl, hnot⟩
  split
  · next hname => exact ⟨name :: names, ups, rfl, by simp [Ne.symm hname, hnot]⟩
  · next hname =>
    have hup : name = ['.', '.'] := not_not.1 hname
    subst hup
    cases names with
    | nil =>
      -- only steps up so far, so this one is kept as well
      refine ⟨[], ups + 1, ?_, by simp⟩
      cases ups with
      | zero => rfl
      | succ ups => simp [List.replicate_succ]
    | cons last above =>
      have hlast : last ≠ ['.', '.'] := fun h => hnot (h ▸ List.mem_cons_self)
      refine ⟨above, ups, ?_, fun h => hnot (List.mem_cons_of_mem _ h)⟩
      simp [hlast]

theorem foldl_walk {texts : List (List Char)} (htexts : ∀ t ∈ texts, '/' ∉ t)
    (hkept : ∀ n ∈ place, Kept n) (hsettled : Settled place) :
    (∀ n ∈ texts.foldl (walk false) place, Kept n) ∧ Settled (texts.foldl (walk false) place) := by
  induction texts generalizing place with
  | nil => exact ⟨hkept, hsettled⟩
  | cons text rest ih =>
    exact ih (fun t ht => htexts t (List.mem_cons_of_mem _ ht))
      (kept_walk hkept (htexts text List.mem_cons_self)) (settled_walk hsettled)

/-- The names of a relative normal form: steps up, and below them components. -/
theorem normalNames_relative {text : List Char} (hrel : text.head? ≠ some '/') :
    ∃ ups names, normalNames text = List.replicate ups ['.', '.'] ++ names ∧ ['.', '.'] ∉ names
      ∧ ∀ n ∈ names, Kept n := by
  have hfalse : (text.head? == some '/') = false := by simpa using hrel
  have hstart : Settled [] := ⟨[], 0, rfl, by simp⟩
  have hpieces : ∀ t ∈ Text.pieces '/' text, '/' ∉ t := Text.notMem_of_mem_pieces
  obtain ⟨hkept, names, ups, hplace, hnot⟩ := foldl_walk hpieces (by simp) hstart
  refine ⟨ups, names.reverse, ?_, by simpa using hnot, ?_⟩
  · rw [normalNames, hfalse, hplace, List.reverse_append, List.reverse_replicate]
  · intro n hn
    exact hkept n (by rw [hplace]; exact List.mem_append_left _ (List.mem_reverse.1 hn))

theorem leadingSlashes_relative {text : List Char} (hrel : text.head? ≠ some '/') :
    leadingSlashes text = [] := by
  unfold leadingSlashes
  split <;> simp_all

theorem normalise_relative {text : List Char} (hrel : text.head? ≠ some '/') :
    normalise text
      = if Text.glue '/' (normalNames text) = [] then ['.'] else Text.glue '/' (normalNames text) := by
  rw [normalise, leadingSlashes_relative hrel, List.nil_append]
  cases Text.glue '/' (normalNames text) with
  | nil => rw [if_pos rfl]
  | cons c rest => rw [if_neg (List.cons_ne_nil c rest)]

theorem join_relative {directory text : List Char} (hdirectory : directory.head? ≠ some '/')
    (htext : text.head? ≠ some '/') (hne : directory ≠ []) :
    (join directory text).head? ≠ some '/' := by
  rw [join, if_neg htext]
  obtain ⟨first, rest, rfl⟩ := List.exists_cons_of_ne_nil hne
  split <;> simpa using hdirectory

/-- What is left of a text when its end is dropped is empty or starts as the text does. -/
theorem rdropWhile_cons (p : Char → Bool) (c : Char) (rest : List Char)
    (h : ∃ x ∈ c :: rest, p x = false) : ∃ more, (c :: rest).rdropWhile p = c :: more := by
  have hne : (c :: rest).rdropWhile p ≠ [] := by
    intro hnil
    obtain ⟨x, hx, hp⟩ := h
    rw [List.rdropWhile_eq_nil_iff] at hnil
    simp [hnil x hx] at hp
  obtain ⟨first, more, hmore⟩ := List.exists_cons_of_ne_nil hne
  have hprefix := List.rdropWhile_prefix p (c :: rest)
  rw [hmore, List.cons_prefix_cons] at hprefix
  exact ⟨more, hprefix.1 ▸ hmore⟩

theorem directory_of_dot (rest : List Char) :
    ∃ more, directory ('.' :: '/' :: rest) = '.' :: more := by
  obtain ⟨before, hbefore⟩ := rdropWhile_cons (· != '/') '.' ('/' :: rest) ⟨'/', by simp, by simp⟩
  obtain ⟨more, hmore⟩ := rdropWhile_cons (· == '/') '.' before ⟨'.', by simp, by decide⟩
  refine ⟨more, ?_⟩
  rw [List.rdropWhile] at hbefore hmore
  simp only [directory, hbefore]
  rw [if_neg (by simp)]
  exact hmore

end Lexical

namespace Identity

theorem exists_directory (parts : List Component) :
    ∃ more, (directory (ofParts parts)).toList = '.' :: more := by
  obtain ⟨more, hmore⟩ :=
    Lexical.directory_of_dot (FilePath.toString ⟨.relative, parts⟩).toList
  exact ⟨more, by rw [directory, toList_ofParts, hmore, String.toList_ofList]⟩

/-- Names that are components, as components. -/
theorem exists_parts_of_kept {names : List (List Char)} (hkept : ∀ n ∈ names, Lexical.Kept n) :
    ∃ parts : List Component, parts.map (·.text.toList) = names := by
  induction names with
  | nil => exact ⟨[], rfl⟩
  | cons name rest ih =>
    obtain ⟨parts, hparts⟩ := ih fun n hn => hkept n (List.mem_cons_of_mem _ hn)
    obtain ⟨hne, hdot, hslash⟩ := hkept name List.mem_cons_self
    have hcomponent : isComponent (String.ofList name) = true := by
      have hempty : String.ofList name ≠ "" := fun h => hne (String.ofList_eq_empty_iff.1 h)
      have hnot : String.ofList name ≠ "." := fun h => hdot (by
        rw [← String.toList_ofList (l := name), h]; rfl)
      simp [isComponent, hempty, hnot, hslash]
    exact ⟨⟨String.ofList name, hcomponent⟩ :: parts, by simp [hparts]⟩

/-- The names of a normal form that does not lead out are components, none of which leads upwards. -/
theorem exists_parts_of_inside {text : List Char} (hrel : text.head? ≠ some '/')
    (hinside : leadsOut (Lexical.normalise text) = false) :
    ∃ parts : List Component, parts.map (·.text.toList) = Lexical.normalNames text
      ∧ Component.parent ∉ parts := by
  obtain ⟨ups, names, hnames, hnot, hkept⟩ := Lexical.normalNames_relative hrel
  have hups : ups = 0 := by
    cases ups with
    | zero => rfl
    | succ ups =>
      rw [Lexical.normalise_relative hrel, hnames, List.replicate_succ, List.cons_append] at hinside
      cases hrest : List.replicate ups ['.', '.'] ++ names <;>
        simp [hrest, Text.glue, leadsOut] at hinside
  obtain ⟨parts, hparts⟩ := exists_parts_of_kept hkept
  refine ⟨parts, by rw [hparts, hnames, hups, List.replicate_zero, List.nil_append], fun hmem => ?_⟩
  refine hnot ?_
  rw [← hparts]
  exact List.mem_map.2 ⟨_, hmem, by decide⟩

theorem ofList_normalise_of_parts {text : List Char} (hrel : text.head? ≠ some '/')
    {parts : List Component} (hparts : parts.map (·.text.toList) = Lexical.normalNames text) :
    String.ofList (Lexical.normalise text) = FilePath.toString ⟨.relative, parts⟩ := by
  rw [Lexical.normalise_relative hrel, ← hparts]
  by_cases hnil : parts = []
  · subst hnil
    decide
  · rw [← FilePath.toList_toString_relative parts hnil]
    have hne : (FilePath.toString ⟨.relative, parts⟩).toList ≠ [] := by
      obtain ⟨first, rest, rfl⟩ := List.exists_cons_of_ne_nil hnil
      rw [FilePath.toList_toString_relative _ hnil]
      have hfirst := first.text_ne_empty
      cases rest <;> simp [Text.glue, hfirst]
    split
    · next h => exact absurd h hne
    · exact String.ofList_toList

/-- A target that can be used does not start with a slash, with or without the default extension. -/
theorem head?_complete {extension : String} {target : List Char} (hne : target ≠ [])
    (hrelative : target.head? ≠ some '/') : (complete extension target).head? ≠ some '/' := by
  obtain ⟨first, rest, rfl⟩ := List.exists_cons_of_ne_nil hne
  rw [complete]
  split <;> simpa using hrelative

/-- A load target read in a relative directory names a file by the steps of its normal form, none of
which leads upwards. -/
theorem ofTarget_eq_ok {extension directory target : String} {identity : Identity}
    (hdirectory : ∃ more, directory.toList = '.' :: more)
    (h : ofTarget extension directory target = .ok identity) :
    (complete extension target.toList).head? ≠ some '/' ∧
      ∃ parts, identity = ofParts parts ∧ Component.parent ∉ parts ∧
        parts.map (·.text.toList)
          = Lexical.normalNames (Lexical.join directory.toList (complete extension target.toList)) := by
  obtain ⟨more, hmore⟩ := hdirectory
  simp only [ofTarget] at h
  split at h
  · cases h
  next hne =>
  split at h
  · cases h
  next hrelative =>
  rw [not_or] at hrelative
  split at h
  · cases h
  next hinside =>
  have hfull : (complete extension target.toList).head? ≠ some '/' :=
    head?_complete hne hrelative.1
  have hjoin : (Lexical.join directory.toList (complete extension target.toList)).head? ≠ some '/' :=
    Lexical.join_relative (by simp [hmore]) hfull (by simp [hmore])
  obtain ⟨parts, hparts, hnot⟩ := exists_parts_of_inside hjoin (by simpa using hinside)
  refine ⟨hfull, parts, ?_, hnot, hparts⟩
  rw [ofParts, ← ofList_normalise_of_parts hjoin hparts]
  exact (Except.ok.inj h).symm

end Identity
end Bundler
