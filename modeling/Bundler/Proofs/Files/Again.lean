import Bundler.Proofs.Files.Writing

/-!
# Writing a second time

A file is what it was after another one was written, wherever this was (`Written.read_eq`). Making the
directories of a file and writing it changes nothing where that was done before with the same content
(`again_of_write`).
-/

namespace Bundler.FileTree

variable {tree later last : FileTree} {path other directory : FilePath} {place : Place}
  {node : FileNode} {content bytes : ByteArray}

/-- Two paths lead to one thing. -/
def SameFile (tree : FileTree) (path other : FilePath) : Prop :=
  ∃ place node, tree.locate path = .ok (.taken place node) ∧
    tree.locate other = .ok (.taken place node)

theorem not_sameFile {parts parts' : List Component} (hdown : Component.parent ∉ parts)
    (hdown' : Component.parent ∉ parts') (hne : parts ≠ parts') :
    ¬ tree.SameFile ⟨.root, parts⟩ ⟨.root, parts'⟩ := by
  rintro ⟨place, node, hlocate, hlocate'⟩
  exact hne ((eq_of_locate hdown hlocate).symm.trans (eq_of_locate hdown' hlocate'))

theorem Written.kept (h : Written path content tree later) : Kept tree later where
  current := h.current
  isSome place hplace := by
    obtain ⟨goal, hgoal, -, hothers⟩ := h.node
    by_cases heq : place = goal
    · rw [heq, node?_of_locate hgoal]
      rfl
    · rcases hothers place heq with hsame | ⟨-, hnew, -⟩
      · rwa [hsame]
      · rw [hnew]
        rfl
  directory place hplace := by
    obtain ⟨goal, -, hold, hothers⟩ := h.node
    have hne : place ≠ goal := fun heq => hold (heq ▸ hplace)
    rcases hothers place hne with hsame | ⟨hnone, -, -⟩
    · rwa [hsame]
    · rw [hnone] at hplace
      cases hplace

/-- A file is as it was, unless it is the one that was written. -/
theorem Written.read_eq (h : Written path content tree later) (hother : ¬ later.SameFile other path)
    (hread : tree.read other = .ok bytes) : later.read other = .ok bytes := by
  obtain ⟨hnull, place, hlocate⟩ := read_eq_ok_iff.1 hread
  obtain ⟨goal, hgoal, -, hothers⟩ := h.node
  have hne : place ≠ goal := by
    rintro rfl
    exact hother ⟨place, _, h.kept.locate hlocate (node?_of_locate hgoal), hgoal⟩
  have hnode : later.node? place = some (.file bytes) := by
    rcases hothers place hne with hsame | ⟨hnone, -, -⟩
    · rw [hsame, node?_of_locate hlocate]
    · rw [node?_of_locate hlocate] at hnone
      cases hnone
  exact read_eq_ok_iff.2 ⟨hnull, place, h.kept.locate hlocate hnode⟩

/-! ### The number of nodes -/

theorem length_put (tree : FileTree) (place : Place) (node : FileNode) :
    tree.nodes.length ≤ (tree.put place node).nodes.length := by
  rw [put]
  split <;> simp

theorem length_makeDirectory (tree : FileTree) (path : FilePath) :
    tree.nodes.length ≤ (tree.settledOr path (tree.makeDirectory path)).1.nodes.length := by
  rw [settledOr_fst]
  cases hmade : tree.makeDirectory path with
  | error fault => exact Nat.le_refl _
  | ok made =>
    obtain ⟨goal, -, rfl⟩ := locate_of_makeDirectory hmade
    exact length_put tree goal .directory

theorem length_makeDirectories (tree : FileTree) (path : FilePath) (above : Nat) :
    tree.nodes.length ≤ (tree.makeDirectories path above).1.nodes.length := by
  induction above generalizing path with
  | zero => exact length_makeDirectory tree path
  | succ above ih =>
    rw [makeDirectories]
    split
    · have habove := ih path.parent
      split
      · next made hmade =>
        rw [hmade] at habove
        exact Nat.le_trans habove (length_makeDirectory made path)
      · next faulty _ => exact habove
    · exact length_makeDirectory tree path

/-! ### Directories that are there -/

theorem isDirectory_of_settledOr
    (h : tree.settledOr path (tree.makeDirectory path) = (later, none)) :
    later.isDirectory path = .ok true := by
  cases hmade : tree.makeDirectory path with
  | ok made =>
    rw [hmade] at h
    cases h
    have hnull : path.hasNull = false := by
      by_contra hnull
      rw [makeDirectory, if_pos (by simpa using hnull)] at hmade
      cases hmade
    obtain ⟨goal, hlocate, rfl⟩ := locate_of_makeDirectory hmade
    obtain ⟨hgoal, hnone⟩ := free_of_locate hlocate
    have hkept : Kept tree (tree.put goal .directory) := kept_put hgoal (by simp [hnone])
    exact isDirectory_iff.2 ⟨hnull, goal,
      hkept.locate hlocate (by rw [Spot.place_free, node?_put hgoal, if_pos rfl])⟩
  | error fault =>
    rw [hmade] at h
    cases fault with
    | null => cases h
    | system reason faulty =>
      simp only [settledOr, settled] at h
      split at h
      · next hdirectory =>
        cases h
        exact hdirectory
      · cases h
      · cases h

theorem isDirectory_of_makeDirectories {above : Nat}
    (h : tree.makeDirectories path above = (later, none)) : later.isDirectory path = .ok true := by
  cases above with
  | zero => exact isDirectory_of_settledOr h
  | succ above =>
    rw [makeDirectories] at h
    split at h
    · split at h
      · exact isDirectory_of_settledOr h
      · next hfaulty => exact absurd h (hfaulty later)
    · exact isDirectory_of_settledOr h

theorem makeDirectories_of_isDirectory (h : tree.isDirectory path = .ok true) (above : Nat) :
    tree.makeDirectories path above = (tree, none) := by
  obtain ⟨hnull, place, hlocate⟩ := isDirectory_iff.1 h
  have hmade : tree.makeDirectory path = .error (.system .exists path) := by
    simp only [makeDirectory, hnull, hlocate]
    rfl
  have hsettled : tree.settledOr path (tree.makeDirectory path) = (tree, none) := by
    simp only [hmade, settledOr, settled, h]
  cases above with
  | zero => exact hsettled
  | succ above =>
    rw [makeDirectories, ← hsettled, hmade]

theorem Kept.isDirectory (h : Kept tree later) (hdirectory : tree.isDirectory path = .ok true) :
    later.isDirectory path = .ok true := by
  obtain ⟨hnull, place, hlocate⟩ := isDirectory_iff.1 hdirectory
  exact isDirectory_iff.2
    ⟨hnull, place, h.locate hlocate (h.directory place (node?_of_locate hlocate))⟩

/-! ### The same once more -/

theorem put_put (tree : FileTree) (place : Place) (node : FileNode) :
    (tree.put place node).put place node = tree.put place node := by
  -- wherever the first one put the node, the second one finds it
  have hsame : ∀ entry ∈ (tree.put place node).nodes, entry.1 = place → entry = (place, node) := by
    intro entry hmem hentry
    rw [put] at hmem
    split at hmem
    · obtain ⟨old, -, rfl⟩ := List.mem_map.1 hmem
      split at hentry
      · next hold => rw [if_pos hold]
      · next hold => exact absurd hentry hold
    · next hnone =>
      rcases List.mem_append.1 hmem with hold | hnew
      · exact absurd (List.any_eq_true.2 ⟨entry, hold, by simpa using hentry⟩) hnone
      · simpa using hnew
  have hany : ((tree.put place node).nodes.any fun entry => entry.1 = place) = true := by
    have hnode : (place, node) ∈ (tree.put place node).nodes := by
      rw [put]
      split
      · next hany =>
        obtain ⟨entry, hmem, hentry⟩ := List.any_eq_true.1 hany
        exact List.mem_map.2 ⟨entry, hmem, if_pos (by simpa using hentry)⟩
      · exact List.mem_append_right _ (List.mem_singleton.2 rfl)
    exact List.any_eq_true.2 ⟨_, hnode, by simp⟩
  have hmap : (tree.put place node).nodes.map
      (fun entry => if entry.1 = place then (place, node) else entry) = (tree.put place node).nodes := by
    refine (List.map_congr_left fun entry hmem => ?_).trans (List.map_id _)
    split
    · next hentry => exact (hsame entry hmem hentry).symm
    · rfl
  rw [put, if_pos hany, hmap]

/-- Writing to the directory of a file what was written there before changes nothing. -/
theorem again_of_write {above : Nat} (hmade : tree.makeDirectories directory above = (later, none))
    (hwrite : later.write path content = .ok last) :
    last.makeDirectories directory above = (last, none) ∧ last.write path content = .ok last ∧
      tree.nodes.length ≤ last.nodes.length := by
  have hlength := length_makeDirectories tree directory above
  rw [hmade] at hlength
  obtain ⟨hnull, spot, hlocate, hold, hroot, rfl⟩ := locate_of_write hwrite
  have hkept : Kept later (later.put spot.place (.file content)) := kept_put hroot hold
  have hafter : (later.put spot.place (.file content)).locate path
      = .ok (.taken spot.place (.file content)) :=
    hkept.locate hlocate (by rw [node?_put hroot, if_pos rfl])
  refine ⟨makeDirectories_of_isDirectory (hkept.isDirectory (isDirectory_of_makeDirectories hmade)) _,
    ?_, Nat.le_trans hlength (length_put _ _ _)⟩
  rw [write, hnull, hafter]
  simp only [put_put]
  rfl

end Bundler.FileTree
