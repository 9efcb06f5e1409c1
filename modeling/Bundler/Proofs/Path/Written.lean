import Bundler.Identity
import Bundler.Proofs.Text.Pieces
import Mathlib.Data.List.Basic

/-!
# The written form of a path

A relative path is read back from its written form (`partsOf_toString_relative`), and so is an identity, which
is `./` and the written form of the path below the root (`ofString_ofParts`). A file below a root and
its identity therefore determine each other.
-/

namespace Bundler

namespace Text

theorem toList_joinWith (texts : List String) :
    (joinWith "/" texts).toList = glue '/' (texts.map String.toList) := by
  induction texts with
  | nil => rfl
  | cons text rest ih =>
    cases rest with
    | nil => rfl
    | cons next others =>
      have hslash : ("/" : String).toList = ['/'] := rfl
      simp only [joinWith, String.toList_append, ih, hslash, List.map_cons, glue, List.append_assoc,
        List.singleton_append]

end Text

namespace Component

theorem text_ne_empty (c : Component) : c.text.toList ≠ [] := by
  have h := c.isComponent
  simp only [Bundler.isComponent, Bool.and_eq_true, bne_iff_ne, ne_eq] at h
  intro he
  exact h.1.1 (String.ext he)

theorem slash_notMem (c : Component) : '/' ∉ c.text.toList := by
  have h := c.isComponent
  simp only [Bundler.isComponent, Bool.and_eq_true, Bool.not_eq_true'] at h
  simpa using h.2

@[simp] theorem ofText?_text (c : Component) : ofText? c.text.toList = some c := by
  have h : Bundler.isComponent (String.ofList c.text.toList) = true := by
    rw [String.ofList_toList]
    exact c.isComponent
  rw [ofText?, dif_pos h]
  simp only [Option.some.injEq]
  cases c
  simp only [String.ofList_toList]

end Component

namespace FilePath

theorem partsOf_glue (parts : List Component) (hne : parts ≠ []) :
    partsOf (Text.glue '/' (parts.map (·.text.toList))) = parts := by
  have hpieces : Text.pieces '/' (Text.glue '/' (parts.map (·.text.toList)))
      = parts.map (·.text.toList) := by
    apply Text.pieces_glue
    · simpa using hne
    · intro text htext
      obtain ⟨c, _, rfl⟩ := List.mem_map.1 htext
      exact c.slash_notMem
  rw [partsOf, hpieces, List.filterMap_map]
  have hread : (Component.ofText? ∘ fun c : Component => c.text.toList) = some :=
    funext fun c => c.ofText?_text
  rw [hread, List.filterMap_some]

theorem toList_toString_relative (parts : List Component) (hne : parts ≠ []) :
    (toString ⟨.relative, parts⟩).toList = Text.glue '/' (parts.map (·.text.toList)) := by
  obtain ⟨first, rest, rfl⟩ := List.exists_cons_of_ne_nil hne
  have hnone : ("" : String).toList = [] := rfl
  simp only [toString, Anchor.text, String.toList_append, hnone, List.nil_append,
    Text.toList_joinWith, List.map_map]
  rfl

theorem partsOf_toString_relative (parts : List Component) :
    partsOf (toString ⟨.relative, parts⟩).toList = parts := by
  by_cases hne : parts = []
  · subst hne
    decide
  · rw [toList_toString_relative parts hne, partsOf_glue parts hne]

end FilePath

namespace Identity

/-- The identity of the file that these steps lead to from the root. -/
def ofParts (parts : List Component) : Identity := "./" ++ FilePath.toString ⟨.relative, parts⟩

theorem toList_ofParts (parts : List Component) :
    (ofParts parts).toList = '.' :: '/' :: (FilePath.toString ⟨.relative, parts⟩).toList := by
  have h : ("./" : String).toList = ['.', '/'] := rfl
  simp [ofParts, String.toList_append, h]

theorem ofString_ofParts (parts : List Component) :
    FilePath.ofString (ofParts parts) = ⟨.relative, parts⟩ := by
  have hstep : ∀ text, FilePath.partsOf ('.' :: '/' :: text) = FilePath.partsOf text := by
    intro text
    have hdot : Component.ofText? ['.'] = none := by decide
    have hcut : Text.pieces '/' ('.' :: '/' :: text) = ['.'] :: Text.pieces '/' text := by
      simp [Text.pieces]
    rw [FilePath.partsOf, hcut, List.filterMap_cons, hdot, FilePath.partsOf]
  rw [FilePath.ofString, toList_ofParts, hstep, FilePath.partsOf_toString_relative]
  rfl

theorem ofPath?_eq_some_iff {root path : FilePath} {identity : Identity} :
    ofPath? root path = some identity
      ↔ ∃ parts, path = ⟨root.anchor, root.parts ++ parts⟩ ∧ identity = ofParts parts := by
  simp only [ofPath?, FilePath.relativeTo?]
  constructor
  · intro h
    split at h
    · next hbelow =>
      obtain ⟨hanchor, rest, hrest⟩ := hbelow
      refine ⟨rest, ?_, ?_⟩
      · cases path
        simp_all
      · rw [← hrest, List.drop_left] at h
        exact (Option.some.inj h).symm
    · simp at h
  · rintro ⟨parts, rfl, rfl⟩
    simp [ofParts]

def path (root : FilePath) (identity : Identity) : FilePath := root.join (.ofString identity)

@[simp] theorem path_ofParts (root : FilePath) (parts : List Component) :
    path root (ofParts parts) = ⟨root.anchor, root.parts ++ parts⟩ := by
  simp [path, ofString_ofParts, FilePath.join, FilePath.isAbsolute]

theorem path_of_ofPath? {root path : FilePath} {identity : Identity}
    (h : ofPath? root path = some identity) : Identity.path root identity = path := by
  obtain ⟨parts, rfl, rfl⟩ := ofPath?_eq_some_iff.1 h
  exact path_ofParts root parts

@[simp] theorem ofPath?_path_ofParts (root : FilePath) (parts : List Component) :
    ofPath? root (path root (ofParts parts)) = some (ofParts parts) :=
  ofPath?_eq_some_iff.2 ⟨parts, path_ofParts root parts, rfl⟩

end Identity
end Bundler
