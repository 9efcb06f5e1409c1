import Bundler.Proofs.Files.Places

/-!
# Making directories and writing files

Whatever becomes of it, making directories takes nothing away and adds only directories to which the
path or one above it leads (`gains_makeDirectories`). Writing changes the one place to which the path
leads afterwards, and what is written is read back (`written_of_write`).
-/

namespace Bundler

namespace FilePath

theorem self_mem_selfAndParents (path : FilePath) : path ∈ path.selfAndParents := by
  refine List.mem_map.2 ⟨0, by simp, ?_⟩
  rw [Nat.sub_zero, List.take_length]

theorem selfAndParents_parent_subset (path : FilePath) :
    path.parent.selfAndParents ⊆ path.selfAndParents := by
  intro directory hmem
  obtain ⟨up, hup, rfl⟩ := List.mem_map.1 hmem
  have hlength : path.parent.parts.length = path.parts.length - 1 := List.length_dropLast
  rw [List.mem_range, hlength] at hup
  refine List.mem_map.2 ⟨min (up + 1) path.parts.length, List.mem_range.2 (by omega), ?_⟩
  have htake : path.parent.parts.take (path.parent.parts.length - up)
      = path.parts.take (path.parts.length - min (up + 1) path.parts.length) := by
    rw [hlength, parent, List.dropLast_eq_take, List.take_take]
    congr 1
    omega
  rw [htake, parent]

end FilePath

namespace FileTree

/-- The place where following a path ends. -/
def Spot.place : Spot → Place
  | .taken place _ => place
  | .free place => place

@[simp] theorem Spot.place_taken (place : Place) (node : FileNode) :
    (Spot.taken place node).place = place := rfl

@[simp] theorem Spot.place_free (place : Place) : (Spot.free place).place = place := rfl

variable {tree later last : FileTree} {place other : Place} {node : FileNode} {path : FilePath}
  {paths more : List FilePath} {content : ByteArray}

/-- Nothing that stands in a tree is gone, and its directories are still directories. -/
structure Kept (tree later : FileTree) : Prop where
  current : later.current = tree.current
  isSome : ∀ place, (tree.node? place).isSome → (later.node? place).isSome
  directory : ∀ place, tree.node? place = some .directory → later.node? place = some .directory

/-- A place is as it was, or a new directory to which one of some paths leads. -/
def KeptOrGained (paths : List FilePath) (tree later : FileTree) (place : Place) : Prop :=
  later.node? place = tree.node? place ∨
    (tree.node? place = none ∧ later.node? place = some .directory ∧
      ∃ path ∈ paths, later.locate path = .ok (.taken place .directory))

/-- Nothing changed but that some directories are new, to each of which one of some paths leads. -/
structure Gains (paths : List FilePath) (tree later : FileTree) : Prop where
  current : later.current = tree.current
  node : ∀ place, KeptOrGained paths tree later place

/-- A file with some content stands where a path leads. Nothing else changed but that some directories
above it are new. -/
structure Written (path : FilePath) (content : ByteArray) (tree later : FileTree) : Prop where
  current : later.current = tree.current
  read : later.read path = .ok content
  node : ∃ goal, later.locate path = .ok (.taken goal (.file content)) ∧
    tree.node? goal ≠ some .directory ∧
    ∀ place ≠ goal, KeptOrGained path.parent.selfAndParents tree later place

/-! ### A node at a place -/

theorem node?_root : tree.node? [] = some .directory := by rw [node?, if_pos rfl]

theorem node?_put (hplace : place ≠ []) :
    (tree.put place node).node? other = if other = place then some node else tree.node? other := by
  by_cases hroot : other = []
  · rw [hroot, node?_root, node?_root, if_neg hplace.symm]
  rw [node?, if_neg hroot, node?, if_neg hroot, put]
  split
  · next hany =>
    -- the entries keep their places, and those of the one place get the new node
    have hsame : (fun entry : Place × FileNode => decide (entry.1 = other))
          ∘ (fun entry => if entry.1 = place then (place, node) else entry)
        = fun entry => decide (entry.1 = other) := by
      funext entry
      by_cases hentry : entry.1 = place <;> simp [hentry]
    rw [List.find?_map, hsame]
    cases hfound : tree.nodes.find? fun entry => entry.1 = other with
    | none =>
      rw [if_neg]
      · rfl
      · rintro rfl
        obtain ⟨entry, hmem, hentry⟩ := List.any_eq_true.1 hany
        exact List.find?_eq_none.1 hfound entry hmem hentry
    | some entry =>
      have hentry : entry.1 = other := by simpa using List.find?_some hfound
      by_cases hother : other = place <;> simp [hentry, hother]
  · next hany =>
    rw [List.find?_append]
    by_cases hother : other = place
    · have hnone : tree.nodes.find? (fun entry => entry.1 = place) = none := by
        rw [List.find?_eq_none]
        intro entry hmem hentry
        exact hany (List.any_eq_true.2 ⟨entry, hmem, hentry⟩)
      simp [hnone, hother]
    · simp [hother, Ne.symm hother]

theorem kept_put (hplace : place ≠ []) (hnode : tree.node? place ≠ some .directory) :
    Kept tree (tree.put place node) where
  current := by
    rw [put]
    split <;> rfl
  isSome other h := by
    rw [node?_put hplace]
    split
    · rfl
    · exact h
  directory other h := by
    rw [node?_put hplace, if_neg]
    · exact h
    · rintro rfl
      exact hnode h

/-! ### Following a path in a tree that changed -/

/-- A free place is not the root, and nothing stands there. -/
theorem free_of_follow {parts : List Component} {goal : Place}
    (h : tree.follow place parts = .ok (.free goal)) : goal ≠ [] ∧ tree.node? goal = none := by
  induction parts generalizing place with
  | nil =>
    rw [follow] at h
    split at h <;> cases h
  | cons step rest ih =>
    rw [follow] at h
    split at h
    · cases h
    · cases h
    · split at h
      · exact ih h
      split at h
      · cases h
      split at h
      · exact ih h
      · next hnone =>
        split at h
        · cases h
          exact ⟨by simp, by simpa using hnone⟩
        · cases h

theorem Kept.follow (h : Kept tree later) {parts : List Component} {spot : Spot}
    (hfollow : tree.follow place parts = .ok spot) (hnode : later.node? spot.place = some node) :
    later.follow place parts = .ok (.taken spot.place node) := by
  induction parts generalizing place with
  | nil =>
    rw [FileTree.follow] at hfollow
    split at hfollow
    · cases hfollow
      have hplace : later.node? place = some node := hnode
      rw [FileTree.follow, hplace]
      rfl
    · cases hfollow
  | cons step rest ih =>
    rw [FileTree.follow] at hfollow
    split at hfollow
    · cases hfollow
    · cases hfollow
    next hplace =>
    rw [FileTree.follow]
    simp only [h.directory place hplace]
    split at hfollow
    · next hstep => rw [if_pos hstep, ih hfollow]
    next hstep =>
    rw [if_neg hstep]
    split at hfollow
    · cases hfollow
    next hlimit =>
    rw [if_neg hlimit]
    split at hfollow
    · next hsome => rw [if_pos (h.isSome _ hsome), ih hfollow]
    split at hfollow
    · next hrest =>
      -- the last step led to a place that was free
      cases hfollow
      rw [Spot.place_free] at hnode
      rw [if_pos (by rw [hnode]; rfl), hrest, FileTree.follow, hnode]
      rfl
    · cases hfollow

theorem Kept.locate (h : Kept tree later) {spot : Spot} (hlocate : tree.locate path = .ok spot)
    (hnode : later.node? spot.place = some node) :
    later.locate path = .ok (.taken spot.place node) := by
  rw [FileTree.locate] at hlocate ⊢
  split at hlocate
  · cases hlocate
  · next hlimit =>
    rw [if_neg hlimit, h.current]
    exact h.follow hlocate hnode

/-! ### Making directories -/

theorem Gains.refl (paths : List FilePath) (tree : FileTree) : Gains paths tree tree :=
  ⟨rfl, fun _ => .inl rfl⟩

theorem Gains.kept (h : Gains paths tree later) : Kept tree later where
  current := h.current
  isSome place hplace := by
    rcases h.node place with hnode | ⟨-, hnode, -⟩
    · rwa [hnode]
    · rw [hnode]
      rfl
  directory place hplace := by
    rcases h.node place with hnode | ⟨hnone, -, -⟩
    · rwa [hnode]
    · rw [hnone] at hplace
      cases hplace

theorem KeptOrGained.mono (h : KeptOrGained paths tree later place) (hsubset : paths ⊆ more) :
    KeptOrGained more tree later place :=
  h.imp_right fun ⟨hnone, hnode, path, hmem, hlocate⟩ => ⟨hnone, hnode, path, hsubset hmem, hlocate⟩

theorem Gains.mono (h : Gains paths tree later) (hsubset : paths ⊆ more) : Gains more tree later :=
  ⟨h.current, fun place => (h.node place).mono hsubset⟩

theorem KeptOrGained.trans (h : KeptOrGained paths tree later place) (hkept : Kept later last)
    (h' : KeptOrGained paths later last place) : KeptOrGained paths tree last place := by
  rcases h with hsame | ⟨hnone, hnode, path, hmem, hlocate⟩
  · rw [KeptOrGained, hsame] at h'
    exact h'
  · have hlast := hkept.directory place hnode
    exact .inr ⟨hnone, hlast, path, hmem, hkept.locate hlocate hlast⟩

theorem Gains.trans (h : Gains paths tree later) (h' : Gains paths later last) :
    Gains paths tree last :=
  ⟨h'.current.trans h.current, fun place => (h.node place).trans h'.kept (h'.node place)⟩

theorem settledOr_fst (made : Except PathFault FileTree) :
    (tree.settledOr path made).1 = made.toOption.getD tree := by
  cases made with
  | ok made => rfl
  | error fault =>
    cases fault with
    | null => rfl
    | system =>
      simp only [settledOr, settled]
      split <;> rfl

theorem locate_of_makeDirectory (h : tree.makeDirectory path = .ok later) :
    ∃ goal, tree.locate path = .ok (.free goal) ∧ later = tree.put goal .directory := by
  rw [makeDirectory] at h
  split at h
  · cases h
  split at h
  · cases h
  · next goal hlocate =>
    cases h
    exact ⟨goal, hlocate, rfl⟩
  · cases h

theorem node?_of_locate {goal : Place} (h : tree.locate path = .ok (.taken goal node)) :
    tree.node? goal = some node := by
  rw [locate] at h
  split at h
  · cases h
  · exact node?_of_follow h

theorem free_of_locate {goal : Place} (h : tree.locate path = .ok (.free goal)) :
    goal ≠ [] ∧ tree.node? goal = none := by
  rw [locate] at h
  split at h
  · cases h
  · exact free_of_follow h

theorem gains_makeDirectory (h : tree.makeDirectory path = .ok later) :
    Gains path.selfAndParents tree later := by
  obtain ⟨goal, hlocate, rfl⟩ := locate_of_makeDirectory h
  obtain ⟨hgoal, hnone⟩ := free_of_locate hlocate
  have hkept : Kept tree (tree.put goal .directory) := kept_put hgoal (by simp [hnone])
  refine ⟨hkept.current, fun place => ?_⟩
  by_cases hplace : place = goal
  · have hnew : (tree.put goal .directory).node? place = some .directory := by
      rw [node?_put hgoal, if_pos hplace]
    rw [hplace] at hnew ⊢
    exact .inr ⟨hnone, hnew, path, path.self_mem_selfAndParents, hkept.locate hlocate hnew⟩
  · exact .inl (by rw [node?_put hgoal, if_neg hplace])

theorem gains_settledOr_makeDirectory (tree : FileTree) (path : FilePath) :
    Gains path.selfAndParents tree (tree.settledOr path (tree.makeDirectory path)).1 := by
  rw [settledOr_fst]
  cases hmade : tree.makeDirectory path with
  | error fault => exact .refl _ _
  | ok made => exact gains_makeDirectory hmade

/-- Making directories adds directories on the way and nothing else, also where it fails. -/
theorem gains_makeDirectories (tree : FileTree) (path : FilePath) (above : Nat) :
    Gains path.selfAndParents tree (tree.makeDirectories path above).1 := by
  induction above generalizing path with
  | zero => exact gains_settledOr_makeDirectory tree path
  | succ above ih =>
    rw [makeDirectories]
    split
    · have habove := (ih path.parent).mono path.selfAndParents_parent_subset
      split
      · next made hmade =>
        rw [hmade] at habove
        exact habove.trans (gains_settledOr_makeDirectory made path)
      · next faulty _ => exact habove
    · exact gains_settledOr_makeDirectory tree path

/-! ### Writing -/

theorem locate_of_write (h : tree.write path content = .ok later) :
    path.hasNull = false ∧ ∃ spot, tree.locate path = .ok spot ∧
      tree.node? spot.place ≠ some .directory ∧ spot.place ≠ [] ∧
      later = tree.put spot.place (.file content) := by
  rw [write] at h
  split at h
  · cases h
  next hnull =>
  refine ⟨by simpa using hnull, ?_⟩
  split at h
  · next goal old hlocate =>
    cases h
    have hfile := node?_of_locate hlocate
    refine ⟨.taken goal (.file old), hlocate, by simp [hfile], ?_, rfl⟩
    rintro rfl
    rw [node?_root] at hfile
    cases hfile
  · next goal hlocate =>
    cases h
    obtain ⟨hgoal, hnone⟩ := free_of_locate hlocate
    exact ⟨.free goal, hlocate, by simp [hnone], hgoal, rfl⟩
  · cases h
  · cases h

theorem written_of_write (hgains : Gains path.parent.selfAndParents tree later)
    (h : later.write path content = .ok last) : Written path content tree last := by
  obtain ⟨hnull, spot, hlocate, hold, hroot, rfl⟩ := locate_of_write h
  have hkept : Kept later (later.put spot.place (.file content)) := kept_put hroot hold
  have hnode : (later.put spot.place (.file content)).node? spot.place = some (.file content) := by
    rw [node?_put hroot, if_pos rfl]
  have hafter := hkept.locate hlocate hnode
  refine ⟨hkept.current.trans hgains.current, ?_, _, hafter, fun hdirectory => ?_,
    fun place hplace => ?_⟩
  · rw [read, hnull, hafter]
    rfl
  · exact hold (hgains.kept.directory _ hdirectory)
  · refine (hgains.node place).trans hkept (.inl ?_)
    rw [node?_put hroot, if_neg hplace]

end FileTree
end Bundler
