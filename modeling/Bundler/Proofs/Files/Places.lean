import Bundler.Files.Tree
import Mathlib.Data.List.Nodup
import Mathlib.Data.List.Perm.Subperm

/-!
# Where paths lead

A path without a step upwards leads to the place that its steps spell (`follow_below`). Two such paths
below one directory therefore lead to two places, and there cannot be more of them that lead to files
than the tree has nodes (`length_le_of_isFile`). Whether a path names a file can always be told unless it
is over-long (`isFile_eq_error_iff`).
-/

namespace Bundler

theorem FilePath.resolve?_eq_ok_iff {cwd path resolved : FilePath} :
    cwd.resolve? path = .ok resolved ↔ path.hasNull = false ∧ resolved = cwd.resolve path := by
  rw [resolve?]
  cases path.hasNull <;> simp [eq_comm]

namespace FileTree

variable {tree : FileTree}

theorem follow_cons {place : Place} {step : Component} {rest : List Component} {goal : Place}
    {node : FileNode} (h : tree.follow place (step :: rest) = .ok (.taken goal node)) :
    tree.node? place = some .directory ∧
      tree.follow (if step = .parent then place.dropLast else place ++ [step]) rest
        = .ok (.taken goal node) := by
  rw [follow] at h
  split at h
  · cases h
  · cases h
  · next hnode =>
    refine ⟨hnode, ?_⟩
    split at h
    · next hstep => rwa [if_pos hstep]
    next hstep =>
    rw [if_neg hstep]
    split at h
    · cases h
    split at h
    · exact h
    split at h <;> cases h

theorem follow_append {place : Place} {before after : List Component} {goal : Place}
    {node : FileNode} (h : tree.follow place (before ++ after) = .ok (.taken goal node)) :
    ∃ middle inner, tree.follow place before = .ok (.taken middle inner)
      ∧ tree.follow middle after = .ok (.taken goal node) := by
  induction before generalizing place with
  | nil =>
    obtain ⟨inner, hinner⟩ : ∃ inner, tree.node? place = some inner := by
      cases after with
      | nil =>
        rw [List.nil_append, follow] at h
        split at h
        · next inner hinner => exact ⟨inner, hinner⟩
        · cases h
      | cons step rest => exact ⟨_, (follow_cons h).1⟩
    exact ⟨place, inner, by rw [follow, hinner], h⟩
  | cons step rest ih =>
    obtain ⟨hnode, hrest⟩ := follow_cons h
    obtain ⟨middle, inner, hbefore, hafter⟩ := ih hrest
    refine ⟨middle, inner, ?_, hafter⟩
    -- the step itself succeeds because following the whole path does
    rw [List.cons_append, follow] at h
    rw [follow]
    simp only [hnode] at h ⊢
    split at h
    · next hstep => rwa [if_pos hstep] at hbefore ⊢
    next hstep =>
    rw [if_neg hstep] at hbefore ⊢
    split at h
    · cases h
    next hlimit =>
    rw [if_neg hlimit]
    split at h
    · next hsome => rwa [if_pos hsome]
    split at h <;> cases h

theorem follow_below {place : Place} {parts : List Component} {goal : Place} {node : FileNode}
    (hdown : Component.parent ∉ parts) (h : tree.follow place parts = .ok (.taken goal node)) :
    goal = place ++ parts := by
  induction parts generalizing place with
  | nil =>
    rw [follow] at h
    split at h
    · cases h
      simp
    · cases h
  | cons step rest ih =>
    rw [List.mem_cons, not_or] at hdown
    have hrest := (follow_cons h).2
    rw [if_neg (Ne.symm hdown.1)] at hrest
    simpa using ih hdown.2 hrest

theorem node?_of_follow {place goal : Place} {parts : List Component} {node : FileNode}
    (h : tree.follow place parts = .ok (.taken goal node)) : tree.node? goal = some node := by
  induction parts generalizing place with
  | nil =>
    rw [follow] at h
    split at h
    · next hnode =>
      cases h
      exact hnode
    · cases h
  | cons step rest ih => exact ih (follow_cons h).2

theorem mem_nodes_of_file {place : Place} {content : ByteArray}
    (h : tree.node? place = some (.file content)) : place ∈ tree.nodes.map (·.1) := by
  rw [node?] at h
  split at h
  · cases h
  · obtain ⟨entry, hentry, -⟩ := Option.map_eq_some_iff.1 h
    have hplace : entry.1 = place := by simpa using List.find?_some hentry
    exact hplace ▸ List.mem_map_of_mem (List.mem_of_find?_eq_some hentry)

theorem lookUp_eq_some_iff {path : FilePath} {node : FileNode} : tree.lookUp path = .ok (some node)
    ↔ path.hasNull = false ∧ ∃ place, tree.locate path = .ok (.taken place node) := by
  rw [lookUp]
  cases hnull : path.hasNull with
  | true => simp
  | false =>
    rcases tree.locate path with reason | spot
    · cases reason <;> simp
    · cases spot <;> simp

theorem isFile_iff {path : FilePath} : tree.isFile path = .ok true
    ↔ path.hasNull = false ∧ ∃ place content, tree.locate path = .ok (.taken place (.file content)) := by
  have hfile : tree.isFile path = .ok true ↔ ∃ content, tree.lookUp path = .ok (some (.file content)) := by
    rw [isFile]
    rcases tree.lookUp path with fault | _ | node
    · simp [bind, Except.bind]
    · simp [bind, Except.bind, pure, Except.pure]
    · cases node <;> simp [bind, Except.bind, pure, Except.pure]
  rw [hfile]
  simp only [lookUp_eq_some_iff]
  constructor
  · rintro ⟨content, hnull, place, hlocate⟩
    exact ⟨hnull, place, content, hlocate⟩
  · rintro ⟨hnull, place, content, hlocate⟩
    exact ⟨content, hnull, place, hlocate⟩

theorem isDirectory_iff {path : FilePath} : tree.isDirectory path = .ok true
    ↔ path.hasNull = false ∧ ∃ place, tree.locate path = .ok (.taken place .directory) := by
  rw [← lookUp_eq_some_iff, isDirectory]
  rcases tree.lookUp path with fault | _ | node
  · simp [bind, Except.bind]
  · simp [bind, Except.bind, pure, Except.pure]
  · cases node <;> simp [bind, Except.bind, pure, Except.pure]

theorem read_eq_ok_iff {path : FilePath} {bytes : ByteArray} : tree.read path = .ok bytes
    ↔ path.hasNull = false ∧ ∃ place, tree.locate path = .ok (.taken place (.file bytes)) := by
  rw [read]
  cases hnull : path.hasNull with
  | true => simp
  | false =>
    rcases tree.locate path with reason | spot
    · simp
    · rcases spot with ⟨place, node⟩ | place
      · cases node <;> simp
      · simp

theorem exists_locate_of_isFile {path : FilePath} (h : tree.isFile path = .ok true) :
    ∃ place content, tree.locate path = .ok (.taken place (.file content)) :=
  (isFile_iff.1 h).2

/-- A path without steps upwards leads to the place that it spells. -/
theorem eq_of_locate {parts : List Component} {place : Place} {node : FileNode}
    (hdown : Component.parent ∉ parts)
    (h : tree.locate ⟨.root, parts⟩ = .ok (.taken place node)) : place = parts := by
  rw [locate] at h
  split at h
  · cases h
  · exact follow_below hdown h

theorem exists_follow_of_isFile {path : FilePath} (h : tree.isFile path = .ok true) :
    ∃ goal content, tree.follow [] (tree.current.join path).parts = .ok (.taken goal (.file content)) := by
  obtain ⟨goal, content, hlocate⟩ := exists_locate_of_isFile h
  rw [locate] at hlocate
  split at hlocate
  · cases hlocate
  · exact ⟨goal, content, hlocate⟩

theorem isFile_of_read {path : FilePath} {bytes : ByteArray} (h : tree.read path = .ok bytes) :
    tree.isFile path = .ok true := by
  obtain ⟨hnull, place, hlocate⟩ := read_eq_ok_iff.1 h
  exact isFile_iff.2 ⟨hnull, place, bytes, hlocate⟩

theorem exists_read_of_isFile {path : FilePath} (h : tree.isFile path = .ok true) :
    ∃ bytes, tree.read path = .ok bytes := by
  obtain ⟨hnull, place, content, hlocate⟩ := isFile_iff.1 h
  exact ⟨content, read_eq_ok_iff.2 ⟨hnull, place, hlocate⟩⟩

theorem join_below (current root : FilePath) (parts : List Component) :
    (current.join ⟨root.anchor, root.parts ++ parts⟩).parts = (current.join root).parts ++ parts := by
  by_cases h : root.anchor = .relative <;> simp [FilePath.join, FilePath.isAbsolute, h]

/-- Files reached from one directory by different steps, none of which leads upwards, are no more than
the nodes of the tree. -/
theorem length_le_of_isFile {root : FilePath} {paths : List (List Component)} (hnodup : paths.Nodup)
    (hfile : ∀ parts ∈ paths, Component.parent ∉ parts
      ∧ tree.isFile ⟨root.anchor, root.parts ++ parts⟩ = .ok true) :
    paths.length ≤ tree.nodes.length := by
  have hplace : ∀ parts ∈ paths, ∃ middle inner content,
      tree.follow [] (tree.current.join root).parts = .ok (.taken middle inner)
        ∧ tree.node? (middle ++ parts) = some (.file content) := by
    intro parts hparts
    obtain ⟨hdown, hisFile⟩ := hfile parts hparts
    obtain ⟨goal, content, hgoal⟩ := exists_follow_of_isFile hisFile
    rw [join_below] at hgoal
    obtain ⟨middle, inner, hbefore, hafter⟩ := follow_append hgoal
    refine ⟨middle, inner, content, hbefore, ?_⟩
    rw [← follow_below hdown hafter]
    exact node?_of_follow hafter
  cases paths with
  | nil => simp
  | cons first rest =>
    obtain ⟨middle, inner, -, hroot, -⟩ := hplace first List.mem_cons_self
    have hsubset : (first :: rest).map (middle ++ ·) ⊆ tree.nodes.map (·.1) := by
      intro goal hgoal
      obtain ⟨parts, hparts, rfl⟩ := List.mem_map.1 hgoal
      obtain ⟨middle', inner', content, hroot', hnode⟩ := hplace parts hparts
      -- the way to the root is the same for all of them
      obtain rfl : middle = middle' := by
        rw [hroot] at hroot'
        cases hroot'
        rfl
      exact mem_nodes_of_file hnode
    have hinjective : Function.Injective (middle ++ · : List Component → Place) :=
      fun left right h => List.append_cancel_left h
    have hle := (List.subperm_of_subset (List.Nodup.map hinjective hnodup) hsubset).length_le
    simpa using hle

/-! ### Over-long paths -/

theorem follow_append_of_ok {place middle : Place} {before after : List Component} {node : FileNode}
    (h : tree.follow place before = .ok (.taken middle node)) :
    tree.follow place (before ++ after) = tree.follow middle after := by
  induction before generalizing place with
  | nil =>
    rw [follow] at h
    split at h
    · cases h
      rfl
    · cases h
  | cons step rest ih =>
    obtain ⟨hnode, hrest⟩ := follow_cons h
    rw [follow] at h
    rw [List.cons_append, follow]
    simp only [hnode] at h ⊢
    split at h
    · next hstep => rw [if_pos hstep, ih h]
    next hstep =>
    rw [if_neg hstep]
    split at h
    · cases h
    next hlimit =>
    rw [if_neg hlimit]
    split at h
    · next hsome => rw [if_pos hsome, ih h]
    split at h <;> cases h

/-- The path has too many bytes, or on the way it takes there is a directory in which it asks for a name
that has. -/
def Overlong (tree : FileTree) (path : FilePath) : Prop :=
  path.hasNull = false ∧ (pathLimit < path.toString.utf8ByteSize ∨
    ∃ before step after place, (tree.current.join path).parts = before ++ step :: after ∧
      tree.follow [] before = .ok (.taken place .directory) ∧ nameLimit < step.text.utf8ByteSize)

/-- Following a path fails because something is missing, is no directory, or has too long a name. -/
theorem follow_eq_error {place : Place} {parts : List Component} {reason : PathReason}
    (h : tree.follow place parts = .error reason) :
    reason = .missing ∨ reason = .notDirectory ∨ reason = .nameTooLong ∧
      ∃ before step after middle, parts = before ++ step :: after ∧
        tree.follow place before = .ok (.taken middle .directory) ∧
        nameLimit < step.text.utf8ByteSize := by
  induction parts generalizing place with
  | nil =>
    rw [follow] at h
    split at h
    · cases h
    · cases h
      exact .inl rfl
  | cons step rest ih =>
    -- a name further down is too long in the directory that the first step leads to
    have hdeeper : ∀ {next : Place}, (∀ middle parts, tree.follow next parts
          = .ok (.taken middle .directory) →
        tree.follow place (step :: parts) = .ok (.taken middle .directory)) →
        tree.follow next rest = .error reason → reason = .missing ∨ reason = .notDirectory ∨
          reason = .nameTooLong ∧ ∃ before name after middle, step :: rest = before ++ name :: after ∧
            tree.follow place before = .ok (.taken middle .directory) ∧
            nameLimit < name.text.utf8ByteSize := by
      intro next hnext hrest
      rcases ih hrest with hmissing | hfile | ⟨hlong, before, name, after, middle, rfl, hbefore, hlimit⟩
      · exact .inl hmissing
      · exact .inr (.inl hfile)
      · exact .inr (.inr ⟨hlong, step :: before, name, after, middle, rfl,
          hnext middle before hbefore, hlimit⟩)
    rw [follow] at h
    split at h
    · cases h
      exact .inl rfl
    · cases h
      exact .inr (.inl rfl)
    next hnode =>
    split at h
    · next hstep =>
      refine hdeeper (fun middle parts hparts => ?_) h
      rw [follow, hnode]
      simpa only [if_pos hstep] using hparts
    next hstep =>
    split at h
    · next hlimit =>
      cases h
      refine .inr (.inr ⟨rfl, [], step, rest, place, rfl, ?_, hlimit⟩)
      rw [follow, hnode]
    next hlimit =>
    split at h
    · next hsome =>
      refine hdeeper (fun middle parts hparts => ?_) h
      rw [follow, hnode]
      simpa only [if_neg hstep, if_neg hlimit, if_pos hsome] using hparts
    split at h
    · cases h
    · cases h
      exact .inl rfl

theorem follow_eq_nameTooLong {place middle : Place} {before after : List Component} {step : Component}
    (hbefore : tree.follow place before = .ok (.taken middle .directory))
    (hlimit : nameLimit < step.text.utf8ByteSize) :
    tree.follow place (before ++ step :: after) = .error .nameTooLong := by
  have hstep : step ≠ .parent := by
    rintro rfl
    exact absurd hlimit (by decide +kernel)
  rw [follow_append_of_ok hbefore, follow, node?_of_follow hbefore]
  simp only [if_neg hstep, if_pos hlimit]

theorem locate_eq_error {path : FilePath} {reason : PathReason} (hnull : path.hasNull = false)
    (h : tree.locate path = .error reason) :
    reason = .missing ∨ reason = .notDirectory ∨ reason = .nameTooLong ∧ tree.Overlong path := by
  rw [locate] at h
  split at h
  · next hlimit =>
    cases h
    exact .inr (.inr ⟨rfl, hnull, .inl hlimit⟩)
  · exact (follow_eq_error h).imp_right (Or.imp_right fun ⟨hlong, hway⟩ => ⟨hlong, hnull, .inr hway⟩)

theorem Overlong.locate {path : FilePath} (h : tree.Overlong path) :
    tree.locate path = .error .nameTooLong := by
  rw [FileTree.locate]
  split
  · rfl
  · next hlimit =>
    obtain hpath | ⟨before, step, after, place, hparts, hbefore, hname⟩ := h.2
    · exact absurd hpath hlimit
    · rw [hparts, follow_eq_nameTooLong hbefore hname]

/-- Nothing but an over-long path keeps the system from telling whether the path names a file. -/
theorem isFile_eq_error_iff {path : FilePath} {fault : PathFault} :
    tree.isFile path = .error fault ↔ fault = .system .nameTooLong path ∧ tree.Overlong path := by
  constructor
  · intro h
    simp only [isFile, lookUp] at h
    split at h
    · cases h
    next hnull =>
    rw [Bool.not_eq_true] at hnull
    split at h
    · next node _ =>
      cases node <;> cases h
    · cases h
    · cases h
    · cases h
    · next reason hmissing hfile hlocate =>
      cases h
      obtain rfl | rfl | ⟨rfl, hoverlong⟩ := locate_eq_error hnull hlocate
      · exact absurd rfl hmissing
      · exact absurd rfl hfile
      · exact ⟨rfl, hoverlong⟩
  · rintro ⟨rfl, hoverlong⟩
    simp only [isFile, lookUp, hoverlong.1, hoverlong.locate]
    rfl

end FileTree
end Bundler
