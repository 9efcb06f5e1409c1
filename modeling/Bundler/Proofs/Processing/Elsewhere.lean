import Bundler.Proofs.Files.Elsewhere
import Bundler.Proofs.Graph.Elsewhere
import Bundler.Proofs.Processing.Again
import Bundler.Proofs.Processing.Faults

/-!
# Processing modules below another root

Where transforms are functions, no debug message is rendered and no rule tells the files of two
directories apart, processing a module below one of them gives the same code and the same loaded modules
as below the other, or failures that differ in the path of the module's file alone
(`mirrors_surroundings`).
-/

namespace Bundler

variable {σ ε α β ω : Type}

theorem Attempt.result_bind {attempt : Attempt σ ε α} {next : α → Attempt σ ε β} {state : σ}
    (h : (attempt.start state).2 = state) :
    ((attempt >>= next).start state).1
      = (attempt.start state).1 >>= fun value => ((next value).start state).1 := by
  rw [start_bind]
  rcases hstart : attempt.start state with ⟨fault | value, after⟩
  · rfl
  · rw [hstart] at h
    obtain rfl : after = state := h
    rfl

/-- One failure, or failures over the file of one module below two roots. -/
inductive Failure.Alike (root root' : FilePath) : Failure → Failure → Prop
  | same (failure : Failure) : Alike root root' failure failure
  | read (identity : Identity) (reason : ReadReason) :
      Alike root root' (.bundle (.read (identity.path root) reason))
        (.bundle (.read (identity.path root') reason))
  | transform (identity : Identity) (rule : String) (raised : Raised) :
      Alike root root' (.bundle (.transform (identity.path root) rule raised))
        (.bundle (.transform (identity.path root') rule raised))

/-- A path is over-long for the system. -/
def Failure.Overlong (failure : Failure) : Prop := ∃ path, failure = .path (.system .nameTooLong path)

namespace Pipeline

variable {pipeline : Pipeline ω} {world world' : World ω} {path path' : FilePath}

/-- No rule tells a file below one directory from the file at the same place below another one. -/
def SameVerdicts (pipeline : Pipeline ω) (tree : FileTree) (root root' : FilePath) : Prop :=
  ∀ rule ∈ pipeline, ∀ steps content, tree.node? (root.parts ++ steps) = some (.file content) →
    rule.matches ⟨root.anchor, root.parts ++ steps⟩ = rule.matches ⟨root'.anchor, root'.parts ++ steps⟩

variable {alike : Failure → Failure → Prop}

theorem applyRule_elsewhere {rule : Rule (Transform ω)} (hpure : ∀ transform ∈ rule.use, transform.Pure)
    (halike : ∀ raised, alike (.bundle (.transform path rule.test raised))
      (.bundle (.transform path' rule.test raised))) (text : String) :
    SameUpTo alike ((applyRule path rule text).start world).1
      ((applyRule path' rule text).start world').1 := by
  have hchain : (applyChain rule.use text).Respects fun _ _ : ω => True :=
    respects_applyChain (fun transform hmem => (hpure transform hmem).respects _) text
  simp only [applyRule, World.withMemory, Attempt.start_mapFault, Attempt.start_within,
    (hchain world.memory world'.memory trivial).1]
  exact .mapError halike _

theorem result_transform_cons {rule : Rule (Transform ω)} {rest : Pipeline ω}
    (hpure : ∀ transform ∈ rule.use, transform.Pure)
    (hquiet : Level.debug.number < world.console.threshold) (hmatches : rule.matches path = true)
    (text : String) :
    ((transform path (rule :: rest) text).start world).1
      = ((applyRule path rule text).start world).1 >>= fun value =>
          ((transform path rest value).start world).1 := by
  rw [transform, if_pos hmatches, Attempt.start_bind, World.start_log hquiet, Attempt.andThen_ok,
    Attempt.result_bind (unchanged_applyRule hpure path text)]

theorem transform_elsewhere (hpure : pipeline.Pure)
    (hquiet : Level.debug.number < world.console.threshold)
    (hquiet' : Level.debug.number < world'.console.threshold)
    (hverdict : ∀ rule ∈ pipeline, rule.matches path = rule.matches path')
    (halike : ∀ test raised, alike (.bundle (.transform path test raised))
      (.bundle (.transform path' test raised))) (text : String) :
    SameUpTo alike ((pipeline.transform path text).start world).1
      ((pipeline.transform path' text).start world').1 := by
  induction pipeline generalizing text with
  | nil => exact .ok text
  | cons rule rest ih =>
    rw [Pure, List.forall_mem_cons] at hpure
    rw [List.forall_mem_cons] at hverdict
    by_cases hmatches : rule.matches path = true
    · have hmatches' : rule.matches path' = true := hverdict.1 ▸ hmatches
      rw [result_transform_cons hpure.1 hquiet hmatches, result_transform_cons hpure.1 hquiet' hmatches']
      exact (applyRule_elsewhere hpure.1 (halike rule.test) text).bind (ih hpure.2 hverdict.2)
    · rw [transform, transform, if_neg hmatches, if_neg (hverdict.1 ▸ hmatches)]
      exact ih hpure.2 hverdict.2 text

theorem readText_elsewhere {tree tree' : FileTree} {content : ByteArray}
    (hread : tree.read path = .ok content) (hread' : tree'.read path' = .ok content)
    (halike : ∀ reason, alike (.bundle (.read path reason)) (.bundle (.read path' reason))) :
    SameUpTo alike (readText tree path) (readText tree' path') := by
  simp only [readText, hread, hread']
  cases Text.Utf8.decode content with
  | ok text => exact .ok _
  | error fault => exact .error (halike _)

end Pipeline

namespace Processing

variable {root root' : FilePath} {naming : Naming} {pipeline : Pipeline ω} {world world' : World ω}

theorem isFile_elsewhere {tree tree' : FileTree} (hroots : tree.Alike root root') (htrees : tree' = tree)
    {identity : Identity} (hwanted : Below identity) :
    (∃ fault, (tree.isFile (identity.path root)).mapError Failure.path = .error fault ∧
        fault.Overlong) ∨
      (∃ fault, (tree'.isFile (identity.path root')).mapError Failure.path = .error fault ∧
        fault.Overlong) ∨
      ∃ answer, (tree.isFile (identity.path root)).mapError Failure.path = .ok answer ∧
        (tree'.isFile (identity.path root')).mapError Failure.path = .ok answer := by
  obtain ⟨parts, rfl, hdown⟩ := hwanted
  obtain rfl := htrees
  rcases hfile : tree'.isFile ((Identity.ofParts parts).path root) with fault | answer
  · obtain ⟨rfl, -⟩ := FileTree.isFile_eq_error_iff.1 hfile
    exact .inl ⟨_, rfl, _, rfl⟩
  rcases hfile' : tree'.isFile ((Identity.ofParts parts).path root') with fault | answer'
  · obtain ⟨rfl, -⟩ := FileTree.isFile_eq_error_iff.1 hfile'
    exact .inr (.inl ⟨_, rfl, _, rfl⟩)
  · obtain rfl := hroots.isFile hdown hfile hfile'
    exact .inr (.inr ⟨answer, rfl, rfl⟩)

theorem load_elsewhere (hpure : pipeline.Pure) (hquiet : Level.debug.number < world.console.threshold)
    (hquiet' : Level.debug.number < world'.console.threshold) (htrees : world'.tree = world.tree)
    (hroots : world.tree.Alike root root') (hverdicts : pipeline.SameVerdicts world.tree root root')
    {identity : Identity} (hwanted : Below identity)
    (hfile : world.tree.isFile (identity.path root) = .ok true)
    (hfile' : world'.tree.isFile (identity.path root') = .ok true) :
    SameUpTo (Failure.Alike root root') ((pipeline.load (identity.path root)).start world).1
      ((pipeline.load (identity.path root')).start world').1 := by
  obtain ⟨parts, rfl, hdown⟩ := hwanted
  rw [htrees] at hfile'
  obtain ⟨content, hnode, hread, hread'⟩ := hroots.read hdown hfile hfile'
  rw [← htrees] at hread'
  have hverdict : ∀ rule ∈ pipeline, rule.matches ((Identity.ofParts parts).path root)
      = rule.matches ((Identity.ofParts parts).path root') := by
    intro rule hrule
    rw [Identity.path_ofParts, Identity.path_ofParts]
    exact hverdicts rule hrule parts content hnode
  have htext : SameUpTo (Failure.Alike root root')
      (Pipeline.readText world.tree ((Identity.ofParts parts).path root))
      (Pipeline.readText world'.tree ((Identity.ofParts parts).path root')) :=
    Pipeline.readText_elsewhere hread hread' (.read _)
  rw [Pipeline.load, Pipeline.load, Attempt.result_bind rfl, Attempt.result_bind rfl]
  exact htext.bind (Pipeline.transform_elsewhere hpure hquiet hquiet' hverdict (.transform _))

/-- Modules below a directory are processed alike below another directory with the same files. -/
theorem mirrors_surroundings (hpure : pipeline.Pure)
    (hquiet : Level.debug.number < world.console.threshold)
    (hquiet' : Level.debug.number < world'.console.threshold) (htrees : world'.tree = world.tree)
    (hroots : world.tree.Alike root root') (hverdicts : pipeline.SameVerdicts world.tree root root') :
    (surroundings root naming pipeline).Mirrors (surroundings root' naming pipeline) world world' Below
      (Failure.Alike root root') Failure.Overlong where
  steady := steady_surroundings hpure hquiet
  steady' := steady_surroundings hpure hquiet'
  named := by
    rintro _ ⟨parts, rfl, -⟩ root
    exact Identity.ofPath?_path_ofParts root parts
  loads := loadsOnly_surroundings
  isFile _ hwanted := isFile_elsewhere hroots htrees hwanted
  process identity hwanted hfile hfile' := by
    have hload := load_elsewhere hpure hquiet hquiet' htrees hroots hverdicts hwanted
      (isFile_surroundings.1 hfile) (isFile_surroundings.1 hfile')
    rw [Surroundings.outcome, Surroundings.outcome]
    change SameUpTo _ ((process naming pipeline _ _).start world).1
      ((process naming pipeline _ _).start world').1
    rw [start_process hpure hquiet, start_process hpure hquiet']
    exact hload.bind fun text => .refl .same _
  fault := rfl
  alike_fault fault := .same _

end Processing
end Bundler
