import Bundler.Proofs.Compiler.Effects
import Bundler.Proofs.Processing.Faults
import Bundler.Proofs.Transform.Composition

/-!
# What escapes where files are read and written

Loading a file ends in a text or in a failure to read it or to apply a rule to it, and writing the bundle ends in
the text that was written or in a fault of bundling, but for four things that nothing looks for: a path with a
null character, a message about a path that cannot be shown, a text after the rules that is no template, and a
text of the bundle that cannot be encoded (`failure_of_emit`). What fills templates in and encodes texts is any
press.
-/

namespace Bundler

variable {ω : Type}

/-! ### Null characters -/

namespace FileTree

variable {tree : FileTree} {path : FilePath} {content : ByteArray} {fault : PathFault}

theorem lookUp_ne_null : tree.lookUp path ≠ .error .null := by
  unfold lookUp
  split
  · nofun
  split <;> nofun

theorem isDirectory_ne_null : tree.isDirectory path ≠ .error .null := by
  intro h
  rw [isDirectory] at h
  rcases bind_eq_error_iff.1 h with h | ⟨node, -, h⟩
  · exact lookUp_ne_null h
  · split at h <;> cases h

theorem write_eq_null_iff : tree.write path content = .error .null ↔ path.hasNull = true := by
  unfold write
  split
  · next hnull => simp [hnull]
  · next hnull =>
    simp only [hnull]
    split <;> simp

theorem makeDirectory_eq_null_iff : tree.makeDirectory path = .error .null ↔ path.hasNull = true := by
  unfold makeDirectory
  split
  · next hnull => simp [hnull]
  · next hnull =>
    simp only [hnull]
    split <;> simp

theorem settledOr_eq_null_iff {made : Except PathFault FileTree} :
    (tree.settledOr path made).2 = some .null ↔ made = .error .null := by
  rcases made with fault | made
  · cases fault with
    | null => simp [settledOr, settled]
    | system reason faulty =>
      simp only [settledOr, settled]
      rcases hdirectory : tree.isDirectory path with fault | answer
      · have hfault : fault ≠ .null := fun h => isDirectory_ne_null (h ▸ hdirectory)
        simp [hfault]
      · cases answer <;> simp
  · simp [settledOr]

end FileTree

namespace FilePath

theorem hasNull_of_parent {path : FilePath} (h : path.parent.hasNull = true) : path.hasNull = true := by
  obtain ⟨step, hstep, hnull⟩ := List.any_eq_true.1 h
  exact List.any_eq_true.2 ⟨step, List.dropLast_subset _ hstep, hnull⟩

end FilePath

theorem FileTree.makeDirectories_eq_null_iff {tree : FileTree} {path : FilePath} {above : Nat} :
    (tree.makeDirectories path above).2 = some .null ↔ path.hasNull = true := by
  induction above generalizing path with
  | zero => rw [makeDirectories, settledOr_eq_null_iff, makeDirectory_eq_null_iff]
  | succ above ih =>
    rw [makeDirectories]
    split
    · next faulty hmissing =>
      have hnull : path.hasNull = false := by
        by_contra hnull
        have h : tree.makeDirectory path = .error .null :=
          makeDirectory_eq_null_iff.2 (Bool.not_eq_false _ ▸ hnull)
        cases hmissing.symm.trans h
      have hparent : path.parent.hasNull = false := by
        by_contra hparent
        exact absurd (FilePath.hasNull_of_parent (Bool.not_eq_false _ ▸ hparent)) (by simp [hnull])
      have habove : (tree.makeDirectories path.parent above).2 = some .null ↔ path.parent.hasNull = true := ih
      split
      · rw [settledOr_eq_null_iff, makeDirectory_eq_null_iff]
      · next made hmade =>
        rw [hparent] at habove
        rw [hnull]
        exact habove
    · rw [settledOr_eq_null_iff, makeDirectory_eq_null_iff]

/-! ### Loading -/

namespace Pipeline

variable {pipeline : Pipeline ω} {path : FilePath} {world : World ω} {failure : Failure}

/-- Loading a file is meant to end in such a failure: the file cannot be read, or a rule with a match in its path
fails. -/
def IsSource (pipeline : Pipeline ω) (path : FilePath) (failure : Failure) : Prop :=
  (∃ reason, failure = .bundle (.read path reason)) ∨
    ∃ rule ∈ pipeline, rule.matches path = true ∧
      ∃ raised, failure = .bundle (.transform path rule.test raised)

/-- What goes wrong otherwise when a file is loaded: its path has a null character, or it is read and the message
about a rule cannot be shown. -/
inductive Slips (pipeline : Pipeline ω) (path : FilePath) (world : World ω) : Failure → Prop
  | null (hnull : path.hasNull = true) : Slips pipeline path world (.path .null)
  | unshown {text earlier rule later given between markup} (hread : readText world.tree path = .ok text)
      (hsplit : pipeline = earlier ++ rule :: later) (hmatch : rule.matches path = true)
      (hearlier : (transform path earlier text).start world = (.ok given, between))
      (hlog : between.console.log .debug (notice rule path) = .error markup)
      (hshown : between.console.threshold ≤ Level.debug.number)
      (hpath : Console.MayClose path.toString.toList) :
      Slips pipeline path world (.markup markup)

theorem IsSource.isBundle (h : pipeline.IsSource path failure) : failure.IsBundle := by
  obtain ⟨reason, rfl⟩ | ⟨rule, -, -, raised, rfl⟩ := h
  · exact ⟨_, rfl⟩
  · exact ⟨_, rfl⟩

theorem Slips.not_isBundle (h : Slips pipeline path world failure) : ¬ failure.IsBundle := by
  rintro ⟨fault, rfl⟩
  cases h

theorem readText_of_null {tree : FileTree} (hnull : path.hasNull = true) :
    readText tree path = .error (.path .null) := by
  rw [readText, FileTree.read, if_pos hnull]

theorem readText_eq_error {tree : FileTree} (h : readText tree path = .error failure) :
    (path.hasNull = true ∧ failure = .path .null) ∨ ∃ reason, failure = .bundle (.read path reason) := by
  rw [readText] at h
  split at h
  · next hread =>
    cases h
    refine .inl ⟨?_, rfl⟩
    rw [FileTree.read] at hread
    split at hread
    · assumption
    · split at hread <;> cases hread
  · cases h
    exact .inr ⟨_, rfl⟩
  · split at h
    · cases h
    · cases h
      exact .inr ⟨_, rfl⟩

theorem start_load_eq_error_iff {after : World ω} :
    (pipeline.load path).start world = (.error failure, after) ↔
      (readText world.tree path = .error failure ∧ after = world) ∨
        ∃ text, readText world.tree path = .ok text ∧ Fails path pipeline text world failure after := by
  rw [load, Attempt.start_bind, World.files, Attempt.start_look]
  cases hread : readText world.tree path with
  | error fault => simp [eq_comm]
  | ok text => simp [start_transform_eq_error_iff_fails]

theorem source_or_slips (h : ((pipeline.load path).start world).1 = .error failure) :
    pipeline.IsSource path failure ∨ Slips pipeline path world failure := by
  rcases hstart : (pipeline.load path).start world with ⟨result, after⟩
  rw [hstart] at h
  obtain rfl : result = .error failure := h
  rcases start_load_eq_error_iff.1 hstart with ⟨hread, -⟩ | ⟨text, hread, hfails⟩
  · obtain ⟨hnull, rfl⟩ | hreason := readText_eq_error hread
    · exact .inr (.null hnull)
    · exact .inl (.inl hreason)
  · cases hfails with
    | refused hsplit hmatch _ _ _ _ _ =>
      exact .inl (.inr ⟨_, hsplit ▸ by simp, hmatch, _, rfl⟩)
    | unshown hsplit hmatch hearlier hlog hshown hpath =>
      exact .inr (.unshown hread hsplit hmatch hearlier hlog hshown hpath)

theorem start_load_of_slips (h : Slips pipeline path world failure) :
    ((pipeline.load path).start world).1 = .error failure := by
  cases h with
  | null hnull => rw [start_load_eq_error_iff.2 (.inl ⟨readText_of_null hnull, rfl⟩)]
  | unshown hread hsplit hmatch hearlier hlog hshown hpath =>
    rw [start_load_eq_error_iff.2 (.inr ⟨_, hread, .unshown hsplit hmatch hearlier hlog hshown hpath⟩)]

theorem start_load_slips_iff : ((pipeline.load path).start world).1 = .error failure ∧
    ¬ pipeline.IsSource path failure ↔ Slips pipeline path world failure := by
  constructor
  · rintro ⟨hload, hsource⟩
    exact (source_or_slips hload).resolve_left hsource
  · intro hslips
    exact ⟨start_load_of_slips hslips, fun hsource => hslips.not_isBundle hsource.isBundle⟩

end Pipeline

/-! ### Writing the bundle -/

namespace Artifact

variable {artifact : Artifact} {pipeline : Pipeline ω} {press : Press} {path : FilePath} {world : World ω}
  {text : String} {failure : Failure}

/-- The file that a path names can be opened after its directories are made. -/
def Opens (path : FilePath) (world : World ω) : Prop :=
  ∃ made tree, world.tree.makeDirectories path.parent path.parent.parts.length = (made, none) ∧
    made.write path .empty = .ok tree

/-- What goes wrong otherwise than in a fault of bundling when a bundle is written: the template slips, its text after
the rules cannot be filled in, the path of the bundle has a null character, or its file is opened for a text that
cannot be encoded. -/
inductive Slips (artifact : Artifact) (pipeline : Pipeline ω) (press : Press) (path : FilePath) (world : World ω) :
    Failure → Prop
  | template {failure : Failure} (hslips : Pipeline.Slips pipeline artifact.template world failure) :
      Slips artifact pipeline press path world failure
  | malformed {template loaded fault} (hload : (pipeline.load artifact.template).start world = (.ok template, loaded))
      (hfill : artifact.fill template press = .error fault) :
      Slips artifact pipeline press path world (.template fault)
  | null {text rendered} (hrender : (artifact.render pipeline press).start world = (.ok text, rendered))
      (hnull : path.hasNull = true)
      (hmade : path.parent.hasNull = true ∨
        (rendered.tree.makeDirectories path.parent path.parent.parts.length).2 = none) :
      Slips artifact pipeline press path world (.path .null)
  | unencodable {text rendered raised}
      (hrender : (artifact.render pipeline press).start world = (.ok text, rendered)) (hopen : Opens path rendered)
      (hencode : press.encode text = .error raised) : Slips artifact pipeline press path world (.raised raised)

theorem Slips.not_isBundle (h : Slips artifact pipeline press path world failure) : ¬ failure.IsBundle := by
  cases h with
  | template hslips => exact hslips.not_isBundle
  | malformed => exact fun ⟨_, h⟩ => nomatch h
  | null => exact Failure.not_isBundle_path _
  | unencodable => exact fun ⟨_, h⟩ => nomatch h

theorem writeFault_slips_iff {fault : PathFault} :
    writeFault path fault = failure ∧ ¬ failure.IsBundle ↔ fault = .null ∧ failure = .path .null := by
  cases fault with
  | null =>
    simp only [writeFault, true_and]
    constructor
    · rintro ⟨rfl, -⟩
      rfl
    · rintro rfl
      exact ⟨rfl, Failure.not_isBundle_path _⟩
  | system reason faulty =>
    simp only [writeFault, reduceCtorEq, false_and, iff_false, not_and, not_not]
    rintro rfl
    exact ⟨_, rfl⟩

/-- Writing a file fails otherwise than by a fault of writing just when its path has a null character and its
directories are no obstacle, or when it is opened and the text cannot be encoded. -/
theorem start_writeTo_slips_iff (text : String) :
    ((writeTo path text press).start world).1 = .error failure ∧ ¬ failure.IsBundle ↔
      (failure = .path .null ∧ path.hasNull = true ∧ (path.parent.hasNull = true ∨
        (world.tree.makeDirectories path.parent path.parent.parts.length).2 = none)) ∨
      ∃ raised, press.encode text = .error raised ∧ Opens path world ∧ failure = .raised raised := by
  have hdirectories : (world.tree.makeDirectories path.parent path.parent.parts.length).2 = some .null
      ↔ path.parent.hasNull = true := FileTree.makeDirectories_eq_null_iff
  unfold Opens
  rcases hmade : world.tree.makeDirectories path.parent path.parent.parts.length with ⟨tree, _ | fault⟩
  case some =>
    rw [hmade, Option.some.injEq] at hdirectories
    simp only [Attempt.start, writeTo, hmade, Except.error.injEq, writeFault_slips_iff, hdirectories, reduceCtorEq,
      or_false, Prod.mk.injEq, and_false, false_and, exists_false]
    constructor
    · rintro ⟨hparent, hfailure⟩
      exact ⟨hfailure, FilePath.hasNull_of_parent hparent, hparent⟩
    · rintro ⟨hfailure, -, hparent⟩
      exact ⟨hparent, hfailure⟩
  case none =>
    have hnull : ∀ content, tree.write path content = .error .null ↔ path.hasNull = true :=
      fun _ => FileTree.write_eq_null_iff
    have hfaulty : ∀ content fault, tree.write path content = .error fault →
        (.error (writeFault path fault) = (.error failure : Except Failure Unit) ∧ ¬ failure.IsBundle ↔
          failure = .path .null ∧ path.hasNull = true) := by
      intro content fault hwrite
      rw [Except.error.injEq, writeFault_slips_iff, and_comm, ← hnull content, hwrite, Except.error.injEq]
    simp only [Attempt.start, writeTo, hmade, Prod.mk.injEq, and_true, or_true]
    cases hencode : press.encode text with
    | ok bytes =>
      cases hwrite : tree.write path bytes with
      | ok written =>
        have hfull : ¬ path.hasNull = true := fun h => by cases hwrite.symm.trans ((hnull bytes).2 h)
        simp [hfull]
      | error fault => simpa [hwrite] using hfaulty bytes fault hwrite
    | error raised =>
      cases hwrite : tree.write path ByteArray.empty with
      | ok written =>
        have hfull : ¬ path.hasNull = true := fun h => by cases hwrite.symm.trans ((hnull _).2 h)
        simp only [hfull, and_false, false_or, Except.error.injEq, Bool.false_eq_true]
        constructor
        · rintro ⟨rfl, -⟩
          exact ⟨raised, rfl, ⟨tree, written, rfl, hwrite⟩, rfl⟩
        · rintro ⟨_, rfl, -, rfl⟩
          refine ⟨rfl, ?_⟩
          rintro ⟨_, h⟩
          cases h
      | error fault => simpa [hwrite] using hfaulty _ fault hwrite

theorem start_render_slips_iff :
    ((artifact.render pipeline press).start world).1 = .error failure ∧ ¬ failure.IsBundle ↔
    Pipeline.Slips pipeline artifact.template world failure ∨
      ∃ template loaded fault, (pipeline.load artifact.template).start world = (.ok template, loaded) ∧
        artifact.fill template press = .error fault ∧ failure = .template fault := by
  have hload : ((pipeline.load artifact.template).start world).1 = .error failure ∧ ¬ failure.IsBundle ↔
      Pipeline.Slips pipeline artifact.template world failure := by
    rw [← Pipeline.start_load_slips_iff]
    refine and_congr_right fun hload => not_congr ⟨fun hbundle => ?_, Pipeline.IsSource.isBundle⟩
    exact (Pipeline.source_or_slips hload).resolve_right fun hslips => hslips.not_isBundle hbundle
  rw [render, Attempt.start_bind_fst_eq_error_iff, or_and_right, hload]
  refine or_congr_right ?_
  simp only [Attempt.start_ofExcept, mapError_eq_error_iff]
  constructor
  · rintro ⟨⟨template, loaded, hloaded, fault, hfill, rfl⟩, -⟩
    exact ⟨template, loaded, fault, hloaded, hfill, rfl⟩
  · rintro ⟨template, loaded, fault, hloaded, hfill, rfl⟩
    refine ⟨⟨template, loaded, hloaded, fault, hfill, rfl⟩, ?_⟩
    rintro ⟨_, h⟩
    cases h

theorem start_emit_slips_iff :
    ((artifact.emit pipeline path press).start world).1 = .error failure ∧ ¬ failure.IsBundle ↔
    Slips artifact pipeline press path world failure := by
  have hwrite : ∀ text rendered, ((do writeTo path text press; return text : Act ω String).start rendered).1
      = .error failure ∧ ¬ failure.IsBundle ↔ (failure = .path .null ∧ path.hasNull = true ∧
        (path.parent.hasNull = true ∨
          (rendered.tree.makeDirectories path.parent path.parent.parts.length).2 = none)) ∨
      ∃ raised, press.encode text = .error raised ∧ Opens path rendered ∧ failure = .raised raised := by
    intro text rendered
    rw [← start_writeTo_slips_iff text, Attempt.start_bind_fst_eq_error_iff]
    simp
  rw [emit, Attempt.start_bind_fst_eq_error_iff, or_and_right, start_render_slips_iff]
  constructor
  · rintro ((hslips | ⟨template, loaded, fault, hload, hfill, rfl⟩) | ⟨⟨text, rendered, hrender, hfails⟩, hfailure⟩)
    · exact .template hslips
    · exact .malformed hload hfill
    · rcases (hwrite text rendered).1 ⟨hfails, hfailure⟩ with ⟨rfl, hnull, hmade⟩ | ⟨raised, hencode, hopen, rfl⟩
      · exact .null hrender hnull hmade
      · exact .unencodable hrender hopen hencode
  · intro hslips
    cases hslips with
    | template hslips => exact .inl (.inl hslips)
    | malformed hload hfill => exact .inl (.inr ⟨_, _, _, hload, hfill, rfl⟩)
    | null hrender hnull hmade =>
      obtain ⟨hfails, hfailure⟩ := (hwrite _ _).2 (.inl ⟨rfl, hnull, hmade⟩)
      exact .inr ⟨⟨_, _, hrender, hfails⟩, hfailure⟩
    | unencodable hrender hopen hencode =>
      obtain ⟨hfails, hfailure⟩ := (hwrite _ _).2 (.inr ⟨_, hencode, hopen, rfl⟩)
      exact .inr ⟨⟨_, _, hrender, hfails⟩, hfailure⟩

/-- A bundle that is written stands encoded where its path leads, as the text of the template filled in. -/
theorem written_of_emit {later : World ω}
    (h : (artifact.emit pipeline path press).start world = (.ok text, later)) :
    (∃ bytes, press.encode text = .ok bytes ∧ FileTree.Written path bytes world.tree later.tree) ∧
      ∃ template loaded, (pipeline.load artifact.template).start world = (.ok template, loaded) ∧
        artifact.fill template press = .ok text := by
  obtain ⟨filled, rendered, hrender, h⟩ := Attempt.start_bind_eq_ok_iff.1 h
  obtain ⟨⟨⟩, written, hwrite, h⟩ := Attempt.start_bind_eq_ok_iff.1 h
  cases h
  obtain ⟨template, loaded, hload, hfill⟩ := Attempt.start_bind_eq_ok_iff.1 hrender
  obtain ⟨htext, rfl⟩ := Prod.mk.inj hfill
  have hsame : loaded.tree = world.tree := by
    have hsame := pipeline.sameFiles_load artifact.template world
    rwa [hload] at hsame
  exact ⟨hsame ▸ Job.start_writeTo_ok hwrite, template, loaded, hload, mapError_eq_ok_iff.1 htext⟩

def writtenPath : FilePath := .ofString "/out/bundle.py"

theorem opens_of_writeTo (h : ((writeTo path "").start world).1.toBool = true) : Opens path world := by
  rcases hwrite : (writeTo path "").start world with ⟨failure | ⟨⟩, later⟩
  · rw [hwrite] at h
    cases h
  obtain ⟨made, bytes, tree, hmade, -, hwrite, -⟩ := start_writeTo_eq_ok_iff.1 hwrite
  obtain ⟨opened, hopened⟩ := FileTree.exists_write_iff.1 ⟨tree, hwrite⟩
  exact ⟨made, opened, hmade, hopened⟩

def emptyWorld : World Unit := { templateWorld with tree := templateTree "".toUTF8 }

def nullPath : FilePath := ⟨.root, [⟨"a\x00b.py", by decide⟩]⟩

theorem start_load_spoilt (text : String) :
    (Pipeline.load [Job.spoilingRule text] quotedArtifact.template).start emptyWorld = (.ok text, emptyWorld) := by
  have hread : Pipeline.readText emptyWorld.tree quotedArtifact.template = .ok "" :=
    readText_of_read (read_templateTree _) (by simp)
  have hany : (Job.spoilingRule "").matches quotedArtifact.template = true := by decide +kernel
  have hmatch : (Job.spoilingRule text).matches quotedArtifact.template = true := hany
  have hlog : ∀ message, (World.log .debug message).start emptyWorld = (.ok (), emptyWorld) := fun _ => rfl
  rw [Pipeline.load, Attempt.start_bind, World.files, Attempt.start_look, hread, Attempt.andThen_ok,
    Pipeline.transform_singleton_of_match hmatch, Attempt.start_bind, hlog, Attempt.andThen_ok]
  rfl

end Artifact
end Bundler
