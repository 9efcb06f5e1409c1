import Bundler.Proofs.Files.Writing
import Bundler.Proofs.Path.Written
import Mathlib.Data.List.Induction

/-!
# The same files below two directories

In a well formed tree a path without steps upwards names what stands at the place that it spells, unless
it is over-long (`isFile_of_node?`). Below two directories that have the same below them, the same steps
therefore lead to files with the same content (`Alike.isFile`, `Alike.read`). A path that never leads
above the directory in which it is taken means the same steps below every directory
(`resolve_of_isInner`).
-/

namespace Bundler

namespace FileTree

variable {tree : FileTree} {parts : List Component}

/-- Everything stands in a directory, under a name that a system allows. -/
structure WellFormed (tree : FileTree) : Prop where
  above : ∀ entry ∈ tree.nodes, tree.node? entry.1.dropLast = some .directory
  name : ∀ entry ∈ tree.nodes, ∀ step ∈ entry.1,
    step ≠ .parent ∧ '\x00' ∉ step.text.toList ∧ step.text.utf8ByteSize ≤ nameLimit

theorem exists_mem_of_node? {node : FileNode} (h : tree.node? parts = some node) (hne : parts ≠ []) :
    ∃ entry ∈ tree.nodes, entry.1 = parts := by
  rw [node?, if_neg hne] at h
  obtain ⟨entry, hfound, -⟩ := Option.map_eq_some_iff.1 h
  exact ⟨entry, List.mem_of_find?_eq_some hfound, by simpa using List.find?_some hfound⟩

theorem WellFormed.follow (htree : tree.WellFormed) {node : FileNode} (h : tree.node? parts = some node) :
    tree.follow [] parts = .ok (.taken parts node) := by
  induction parts using List.reverseRecOn generalizing node with
  | nil => rw [FileTree.follow, h]
  | append_singleton front last ih =>
    obtain ⟨entry, hentry, hplace⟩ := exists_mem_of_node? h (by simp)
    have habove := htree.above entry hentry
    rw [hplace, List.dropLast_concat] at habove
    obtain ⟨hstep, -, hlimit⟩ := htree.name entry hentry last (by simp [hplace])
    have hend : tree.follow (front ++ [last]) [] = .ok (.taken (front ++ [last]) node) := by
      rw [FileTree.follow, h]
    rw [follow_append_of_ok (ih habove), FileTree.follow]
    simp only [habove, if_neg hstep, if_neg (Nat.not_lt.2 hlimit), h, Option.isSome_some, if_true, hend]

theorem WellFormed.hasNull (htree : tree.WellFormed) {node : FileNode} (h : tree.node? parts = some node)
    (anchor : Anchor) : FilePath.hasNull ⟨anchor, parts⟩ = false := by
  by_cases hne : parts = []
  · rw [hne]
    rfl
  · obtain ⟨entry, hentry, hplace⟩ := exists_mem_of_node? h hne
    simp only [FilePath.hasNull, List.any_eq_false, List.contains_iff_mem]
    exact fun step hstep => (htree.name entry hentry step (hplace ▸ hstep)).2.1

theorem node?_of_isFile (hdown : Component.parent ∉ parts)
    (h : tree.isFile ⟨.root, parts⟩ = .ok true) : ∃ content,
      tree.node? parts = some (.file content) ∧ tree.read ⟨.root, parts⟩ = .ok content := by
  obtain ⟨hnull, place, content, hlocate⟩ := isFile_iff.1 h
  refine ⟨content, ?_, read_eq_ok_iff.2 ⟨hnull, place, hlocate⟩⟩
  obtain rfl := eq_of_locate hdown hlocate
  exact node?_of_locate hlocate

/-- A path that can be looked at names the file at the place that it spells. -/
theorem isFile_of_node? (htree : tree.WellFormed) {content : ByteArray} {answer : Bool}
    (h : tree.node? parts = some (.file content)) (hanswer : tree.isFile ⟨.root, parts⟩ = .ok answer) :
    answer = true := by
  cases answer with
  | true => rfl
  | false =>
    have hlocate : tree.locate ⟨.root, parts⟩ = .ok (.taken parts (.file content)) := by
      rw [locate]
      split
      · next hlimit =>
        have hlong : tree.Overlong ⟨.root, parts⟩ := ⟨htree.hasNull h .root, .inl hlimit⟩
        cases hanswer.symm.trans (isFile_eq_error_iff.2 ⟨rfl, hlong⟩)
      · exact htree.follow h
    cases hanswer.symm.trans (isFile_iff.2 ⟨htree.hasNull h .root, _, _, hlocate⟩)

/-- Two directories of a well formed tree have the same below them. -/
structure Alike (tree : FileTree) (root root' : FilePath) : Prop where
  wellFormed : tree.WellFormed
  anchor : root.anchor = .root
  anchor' : root'.anchor = .root
  down : Component.parent ∉ root.parts
  down' : Component.parent ∉ root'.parts
  node? : ∀ steps, tree.node? (root.parts ++ steps) = tree.node? (root'.parts ++ steps)

variable {root root' : FilePath} {steps : List Component}

theorem Alike.path (h : tree.Alike root root') (steps : List Component) :
    Identity.path root (.ofParts steps) = ⟨.root, root.parts ++ steps⟩ ∧
      Identity.path root' (.ofParts steps) = ⟨.root, root'.parts ++ steps⟩ := by
  rw [Identity.path_ofParts, Identity.path_ofParts, h.anchor, h.anchor']
  exact ⟨rfl, rfl⟩

theorem Alike.isFile (h : tree.Alike root root') (hdown : Component.parent ∉ steps) {answer answer' : Bool}
    (hfile : tree.isFile (Identity.path root (.ofParts steps)) = .ok answer)
    (hfile' : tree.isFile (Identity.path root' (.ofParts steps)) = .ok answer') : answer = answer' := by
  rw [(h.path steps).1] at hfile
  rw [(h.path steps).2] at hfile'
  rw [Bool.eq_iff_iff]
  constructor
  · rintro rfl
    obtain ⟨content, hnode, -⟩ := node?_of_isFile (by simp [h.down, hdown]) hfile
    exact isFile_of_node? h.wellFormed ((h.node? steps).symm.trans hnode) hfile'
  · rintro rfl
    obtain ⟨content, hnode, -⟩ := node?_of_isFile (by simp [h.down', hdown]) hfile'
    exact isFile_of_node? h.wellFormed ((h.node? steps).trans hnode) hfile

theorem Alike.read (h : tree.Alike root root') (hdown : Component.parent ∉ steps)
    (hfile : tree.isFile (Identity.path root (.ofParts steps)) = .ok true)
    (hfile' : tree.isFile (Identity.path root' (.ofParts steps)) = .ok true) : ∃ content,
      tree.node? (root.parts ++ steps) = some (.file content) ∧
      tree.read (Identity.path root (.ofParts steps)) = .ok content ∧
      tree.read (Identity.path root' (.ofParts steps)) = .ok content := by
  rw [(h.path steps).1] at hfile ⊢
  rw [(h.path steps).2] at hfile' ⊢
  obtain ⟨content, hnode, hread⟩ := node?_of_isFile (by simp [h.down, hdown]) hfile
  obtain ⟨content', hnode', hread'⟩ := node?_of_isFile (by simp [h.down', hdown]) hfile'
  rw [h.node? steps, hnode'] at hnode
  cases hnode
  exact ⟨content, (h.node? steps).trans hnode', hread, hread'⟩

end FileTree

namespace FilePath

/-- Steps taken from a place so many steps below a directory never lead above that directory. -/
def staysBelow (depth : Nat) : List Component → Bool
  | [] => true
  | step :: rest =>
    if step = .parent then 0 < depth && staysBelow (depth - 1) rest
    else staysBelow (depth + 1) rest

theorem foldl_walk_names {place names : List Component} (hnames : Component.parent ∉ names) :
    names.foldl walk place = names.reverse ++ place := by
  induction names generalizing place with
  | nil => rfl
  | cons name rest ih =>
    rw [List.mem_cons, not_or] at hnames
    rw [List.foldl_cons, walk, if_neg (Ne.symm hnames.1), ih hnames.2]
    simp

/-- What lies above a directory makes no difference to steps that stay below it. -/
theorem foldl_walk_append {place above steps : List Component} (h : staysBelow place.length steps = true) :
    steps.foldl walk (place ++ above) = steps.foldl walk place ++ above := by
  induction steps generalizing place with
  | nil => rfl
  | cons step rest ih =>
    rw [staysBelow] at h
    rw [List.foldl_cons, List.foldl_cons, walk, walk]
    split at h
    · next hstep =>
      rw [if_pos hstep, if_pos hstep]
      cases place with
      | nil => cases h
      | cons last place => exact ih (by simpa using h)
    · next hstep =>
      rw [if_neg hstep, if_neg hstep]
      exact @ih (step :: place) h

/-- The path is relative and never leads above the directory in which it is taken. -/
def isInner (path : FilePath) : Bool := !path.isAbsolute && staysBelow 0 path.parts

/-- A path that never leads above the directory in which it is taken means the same steps below every
directory. -/
theorem resolve_of_isInner {root path : FilePath} (hroot : Component.parent ∉ root.parts)
    (hpath : path.isInner = true) : resolve root path = ⟨.root, root.parts ++ settle path.parts⟩ := by
  obtain ⟨hrelative, hbelow⟩ := Bool.and_eq_true_iff.1 hpath
  have hjoin : (root.join path).parts = root.parts ++ path.parts := by
    rw [join, if_neg (by simpa using hrelative)]
  have hsteps : path.parts.foldl walk ([] ++ root.parts.reverse)
      = path.parts.foldl walk [] ++ root.parts.reverse := foldl_walk_append hbelow
  rw [List.nil_append] at hsteps
  rw [resolve, hjoin, settle, settle, List.foldl_append, foldl_walk_names hroot, List.append_nil, hsteps,
    List.reverse_append, List.reverse_reverse]

end FilePath
end Bundler
