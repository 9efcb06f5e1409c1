import Bundler.Proofs.Compiler.Frame
import Bundler.Proofs.Graph.Again

/-!
# Processing modules a second time

Where all transforms are functions, processing a module tells something on the console and changes
nothing else (`tells_surroundings`). In another world with the same file it gives the same
(`repeats_process`), whatever else is in the files, the memory and the registry of that world.
-/

namespace Bundler

variable {ω α : Type}

/-! ### Two worlds -/

namespace World

/-- Two worlds with certain files, whose consoles take the same messages. -/
structure Beside (tree tree' : FileTree) (world other : World ω) : Prop where
  tree : world.tree = tree
  tree' : other.tree = tree'
  threshold : world.console.threshold = other.console.threshold
  handlers : world.console.handlers = other.console.handlers
  words : world.console.words = other.console.words

variable {tree tree' : FileTree}

theorem respects_log_beside (level : Level) (message : String) :
    (World.log level message : Act ω Unit).Respects (Beside tree tree') := by
  intro world other h
  rcases start_log_cases level message other.console with ⟨fault, hfault⟩ | hshows
  · rw [hfault world h.threshold h.handlers h.words, hfault other rfl rfl rfl]
    exact ⟨rfl, h⟩
  · obtain ⟨output, hworld⟩ := hshows world h.threshold h.handlers h.words
    obtain ⟨output', hother⟩ := hshows other rfl rfl rfl
    rw [hworld, hother]
    exact ⟨rfl, h.tree, h.tree', h.threshold, h.handlers, h.words⟩

theorem repeats_files {f : FileTree → Except Failure α}
    (hf : ∀ value, f tree = .ok value → f tree' = .ok value) :
    (World.files f : Act ω α).Repeats (Beside tree tree') := by
  intro world other value after h hstart
  obtain ⟨hvalue, rfl⟩ := Prod.mk.inj hstart
  have hother : f other.tree = .ok value := by
    rw [h.tree']
    exact hf value (h.tree ▸ hvalue)
  exact ⟨other, Prod.ext hother rfl, h⟩

end World

/-! ### Pure transforms -/

/-- What a pure transform gives does not depend on its memory. -/
theorem Transform.Pure.respects {transform : Transform ω} (hpure : transform.Pure)
    (like : ω → ω → Prop) (text : String) : (transform.run text).Respects like := by
  obtain ⟨f, hf⟩ := hpure
  rw [hf]
  exact Attempt.respects_ofExcept _

namespace Pipeline

variable {pipeline : Pipeline ω} {tree tree' : FileTree}

theorem tells_transform (hpure : pipeline.Pure) (path : FilePath) (text : String) :
    (pipeline.transform path text).Keeps World.Tells := by
  refine keeps_transform_of (fun _ => World.tells_log _ _) (fun rule hrule text world => ?_) text
  rw [unchanged_applyRule (hpure rule hrule)]
  exact Std.Refl.refl world

theorem tells_load (hpure : pipeline.Pure) (path : FilePath) :
    (pipeline.load path).Keeps World.Tells :=
  (Attempt.keeps_look _).bind (tells_transform hpure path)

theorem respects_applyRule {rule : Rule (Transform ω)} (hpure : ∀ transform ∈ rule.use, transform.Pure)
    (path : FilePath) (text : String) :
    (applyRule path rule text).Respects (World.Beside tree tree') := by
  intro world other h
  have hchain : (applyChain rule.use text).Respects fun _ _ : ω => True :=
    respects_applyChain (fun transform hmem => (hpure transform hmem).respects _) text
  have hresult : ((applyRule path rule text).start world).1 = ((applyRule path rule text).start other).1 :=
    congrArg (Except.mapError _) (hchain world.memory other.memory trivial).1
  rw [unchanged_applyRule hpure, unchanged_applyRule hpure]
  exact ⟨hresult, h⟩

theorem respects_transform (hpure : pipeline.Pure) (path : FilePath) (text : String) :
    (pipeline.transform path text).Respects (World.Beside tree tree') :=
  Attempt.respects_of_echoes <| echoes_transform_of
    (fun _ _ => (World.respects_log_beside _ _).echoes)
    (fun rule hrule text => (respects_applyRule (hpure rule hrule) path text).echoes) text

theorem readText_of_read {path : FilePath}
    (hfile : ∀ bytes, tree.read path = .ok bytes → tree'.read path = .ok bytes) {text : String}
    (h : readText tree path = .ok text) : readText tree' path = .ok text := by
  cases hread : tree.read path with
  | error fault => cases fault <;> simp [readText, hread] at h
  | ok bytes =>
    rw [readText, hread] at h
    rw [readText, hfile bytes hread]
    exact h

theorem repeats_load (hpure : pipeline.Pure) {path : FilePath}
    (hfile : ∀ bytes, tree.read path = .ok bytes → tree'.read path = .ok bytes) :
    (pipeline.load path).Repeats (World.Beside tree tree') :=
  (World.repeats_files fun _ => readText_of_read hfile).bind
    fun text => (respects_transform hpure path text).repeats

end Pipeline

namespace Processing

variable {root : FilePath} {naming : Naming} {pipeline : Pipeline ω} {tree tree' : FileTree}

/-- Processing modules does nothing to a world but tell of it. -/
theorem tells_surroundings (hpure : pipeline.Pure) :
    (surroundings root naming pipeline).Keeps World.Tells where
  isFile _ := Attempt.keeps_look _
  process path _ :=
    (Pipeline.tells_load hpure path).bind fun _ => (Attempt.keeps_ofExcept _).bind fun _ =>
      (World.tells_log _ _).bind fun _ => Attempt.keeps_pure _

theorem repeats_process (hpure : pipeline.Pure) {path : FilePath}
    (hfile : ∀ bytes, tree.read path = .ok bytes → tree'.read path = .ok bytes) (identity : Identity) :
    (process naming pipeline path identity).Repeats (World.Beside tree tree') :=
  (Pipeline.repeats_load hpure hfile).bind fun _ =>
    (Attempt.respects_ofExcept _).repeats.bind fun _ =>
      (World.respects_log_beside _ _).repeats.bind fun _ => (Attempt.respects_pure _).repeats

theorem repeats_surroundings (hpure : pipeline.Pure) {good : FilePath → Prop}
    (hgood : ∀ path, good path → ∀ bytes, tree.read path = .ok bytes → tree'.read path = .ok bytes) :
    (surroundings root naming pipeline).Repeats (World.Beside tree tree') good where
  isFile path world other looked hpath h hstart := by
    obtain ⟨hfile, rfl⟩ := Prod.mk.inj hstart
    have hisFile : world.tree.isFile path = .ok true := mapError_eq_ok_iff.1 hfile
    obtain ⟨bytes, hread⟩ := FileTree.exists_read_of_isFile hisFile
    have hother : other.tree.isFile path = .ok true := by
      rw [h.tree']
      exact FileTree.isFile_of_read (hgood path hpath bytes (h.tree ▸ hread))
    exact ⟨other, Prod.ext (mapError_eq_ok_iff.2 hother) rfl, h⟩
  process path identity hpath := repeats_process hpure (hgood path hpath) identity

end Processing
end Bundler
