import Bundler.Files.Links
import Mathlib.Data.List.Infix

/-!
# Paths that meet no link

Resolving a path takes its steps one after the other, and a step at which no link stands leads where it would
lead in a tree without links. So a path along which no link stands is resolved as it is read
(`FileTree.resolveThrough_of_clear`), and resolving fails for a circle of links alone
(`FileTree.resolveThrough_eq_error_iff`).
-/

namespace Bundler

namespace FilePath

variable {cwd path other : FilePath} {step : Component}

theorem parts_join_child (cwd path : FilePath) (step : Component) :
    (cwd.join (path.child step)).parts = (cwd.join path).parts ++ [step] := by
  unfold join child isAbsolute
  split <;> simp

theorem parts_resolve_child (cwd path : FilePath) (step : Component) :
    (cwd.resolve (path.child step)).parts = (walk (cwd.resolve path).parts.reverse step).reverse := by
  simp [resolve, settle, parts_join_child]

theorem resolve_child (h : cwd.resolve path = cwd.resolve other) (step : Component) :
    cwd.resolve (path.child step) = cwd.resolve (other.child step) := by
  have hparts := parts_resolve_child cwd path step
  rw [h, ← parts_resolve_child] at hparts
  exact congrArg (FilePath.mk .root) hparts

/-- A step upwards that is left out of a path, unless it leads out of the current directory. -/
theorem resolve_up (hdown : path.anchor ≠ .relative → Component.parent ∉ path.parts) :
    cwd.resolve path.up = cwd.resolve (path.child .parent) := by
  unfold up
  split
  · rfl
  next hkept =>
  have hparts : (cwd.resolve path.parent).parts = (cwd.resolve (path.child .parent)).parts := by
    obtain ⟨anchor, parts⟩ := path
    rw [parts_resolve_child, walk, if_pos rfl]
    rcases List.eq_nil_or_concat parts with rfl | ⟨before, last, rfl⟩
    · have habsolute : anchor ≠ .relative := fun h => hkept ⟨h, .inl rfl⟩
      have hroot : cwd.join ⟨anchor, []⟩ = ⟨anchor, []⟩ := join_of_isAbsolute (by simpa [isAbsolute] using habsolute)
      simp [parent, resolve, hroot, settle]
    · have hlast : last ≠ .parent := by
        rintro rfl
        by_cases hanchor : anchor = .relative
        · exact hkept ⟨hanchor, .inr (by simp)⟩
        · exact hdown hanchor (by simp)
      have hchild : (⟨anchor, before ++ [last]⟩ : FilePath) = child ⟨anchor, before⟩ last := rfl
      rw [List.concat_eq_append, hchild, parts_resolve_child, walk, if_neg hlast]
      simp [parent, child]
  exact congrArg (FilePath.mk .root) hparts

theorem parent_notMem_up (hdown : path.anchor ≠ .relative → Component.parent ∉ path.parts)
    (habsolute : path.up.anchor ≠ .relative) : Component.parent ∉ path.up.parts := by
  unfold up at habsolute ⊢
  split at habsolute
  · next hkept => exact absurd hkept.1 habsolute
  next hkept =>
  rw [if_neg hkept]
  exact fun hmem => hdown habsolute (List.dropLast_subset _ hmem)

end FilePath

namespace Links

/-- No link stands on the way along a path, seen from a current directory. -/
def Clear (links : Links) (cwd path : FilePath) : Prop :=
  ∀ steps ∈ path.parts.inits, steps ≠ [] → links.lookup (cwd.resolve ⟨path.anchor, steps⟩).parts = none

instance (links : Links) (cwd path : FilePath) : Decidable (links.Clear cwd path) :=
  inferInstanceAs (Decidable (∀ steps ∈ path.parts.inits, _ → _))

theorem enter_eq_none {links : Links} {cwd path : FilePath} (h : links.target? cwd path = none) (left : Nat)
    (entered : List FilePath) : links.enter cwd left entered path = none := by
  cases left <;> simp [enter, h]

theorem walk_of_none {links : Links} {cwd path spelt : FilePath} {steps : List Component}
    {enter : FilePath → Option (Except FilePath FilePath)}
    (henter : ∀ path, links.target? cwd path = none → enter path = none)
    (hdown : path.anchor ≠ .relative → Component.parent ∉ path.parts)
    (hspelt : cwd.resolve path = cwd.resolve spelt)
    (hclear : ∀ taken ∈ steps.inits, taken ≠ [] →
      links.lookup (cwd.resolve ⟨spelt.anchor, spelt.parts ++ taken⟩).parts = none) :
    ∃ reached, walk enter path steps = .ok reached ∧
      cwd.resolve reached = cwd.resolve ⟨spelt.anchor, spelt.parts ++ steps⟩ := by
  induction steps generalizing path spelt with
  | nil => exact ⟨path, by rw [walk], by rw [hspelt, List.append_nil]⟩
  | cons step rest ih =>
    have hrest : ∀ taken ∈ rest.inits, taken ≠ [] →
        links.lookup (cwd.resolve ⟨(spelt.child step).anchor, (spelt.child step).parts ++ taken⟩).parts = none := by
      intro taken htaken hne
      have htaken : taken <+: rest := (List.mem_inits _ _).1 htaken
      have h := hclear (step :: taken) ((List.mem_inits _ _).2 (List.cons_prefix_cons.2 ⟨rfl, htaken⟩))
        (List.cons_ne_nil _ _)
      rwa [List.append_cons] at h
    rw [walk, List.append_cons]
    split
    · next hup =>
      subst hup
      exact ih (FilePath.parent_notMem_up hdown)
        ((FilePath.resolve_up hdown).trans (FilePath.resolve_child hspelt _)) hrest
    · next hstep =>
      have hnone : links.target? cwd (path.child step) = none := by
        rw [target?, FilePath.resolve_child hspelt]
        exact hclear [step] ((List.mem_inits _ _).2 ⟨rest, rfl⟩) (List.cons_ne_nil _ _)
      rw [henter _ hnone]
      refine ih (fun habsolute hmem => ?_) (FilePath.resolve_child hspelt _) hrest
      rcases List.mem_append.1 hmem with hmem | hmem
      · exact hdown habsolute hmem
      · exact hstep (List.mem_singleton.1 hmem).symm

/-- A path that leads round in a circle of links, with what is raised for it. -/
def Loops (links : Links) (tree : FileTree) (path : FilePath) (failure : Failure) : Prop :=
  ∃ left, links.reach tree.current path = .error left ∧
    (tree.current.resolve left).toString.utf8ByteSize ≤ FileTree.pathLimit ∧
    tiresAfter tree links (followLimit + 1) [] (tree.current.resolve left).parts = true ∧
    failure = .raised (loopRaised (tree.current.resolve left))

end Links

namespace FileTree

variable {tree : FileTree} {links : Links} {path : FilePath} {failure : Failure}

theorem resolveThrough_of_clear (hnull : path.hasNull = false) (hclear : links.Clear tree.current path) :
    tree.resolveThrough links path = .ok (tree.current.resolve path) := by
  have hstart : tree.current.resolve ⟨path.anchor, []⟩ = tree.current.resolve ⟨path.anchor, []⟩ := rfl
  obtain ⟨reached, hreach, hreached⟩ := Links.walk_of_none
    (fun path h => Links.enter_eq_none h (2 * links.length) []) (fun _ => List.not_mem_nil) hstart hclear
  have hreach : links.reach tree.current path = .ok reached := hreach
  rw [resolveThrough, hnull, hreach]
  exact congrArg Except.ok hreached

/-- Resolving a path fails just when it leads round in a circle. -/
theorem resolveThrough_eq_error_iff (hnull : path.hasNull = false) :
    tree.resolveThrough links path = .error failure ↔ links.Loops tree path failure := by
  rw [resolveThrough, hnull, if_neg Bool.false_ne_true]
  constructor
  · intro h
    split at h
    · cases h
    next left hreach =>
    dsimp only at h
    split at h
    · cases h
    next hshort =>
    split at h
    · next htires =>
      cases h
      exact ⟨left, hreach, Nat.le_of_not_lt hshort, htires, rfl⟩
    · cases h
  · rintro ⟨left, hreach, hshort, htires, rfl⟩
    rw [hreach]
    exact (if_neg (Nat.not_lt.2 hshort)).trans (if_pos htires)

end FileTree

end Bundler
