import Bundler.Proofs.Artifact.Reading
import Bundler.Proofs.Artifact.Recovery
import Bundler.Proofs.Config.Checking
import Bundler.Proofs.Load.Renewed

/-!
# Names that code can use

The names in a configuration are identifiers (`isIdentifier_of_check`). If they are no keywords, modules that are
retargeted to them are accepted again, and bundles define the load function under its name (`usable_of_check`).
Keywords are let pass, and they cannot be used (`unusable_class`).
-/

namespace Bundler

open Source

variable {π ω : Type}

namespace Config

variable {place : List Step} {value : Setting π ω} {fields : List (String × Setting π ω)} {root : FilePath}
  {config : Config π ω}

/-! ### The names of a configuration -/

theorem isIdentifier_of_asIdentifier {name : String} (h : asIdentifier place value = .ok name) :
    Text.isIdentifier name.toList = true := by
  unfold asIdentifier at h
  obtain ⟨text, -, h⟩ := bind_eq_ok_iff.1 h
  split at h
  next hname =>
    cases h
    exact hname
  · cases h

theorem isIdentifier_of_fieldOr {default field name : String} (hdefault : Text.isIdentifier default.toList = true)
    (h : fieldOr default place field asIdentifier fields = .ok name) : Text.isIdentifier name.toList = true := by
  unfold fieldOr at h
  split at h
  · exact isIdentifier_of_asIdentifier h
  · cases h
    exact hdefault

theorem isIdentifier_of_check (h : check root value = .ok config) :
    Text.isIdentifier config.naming.load.toList = true ∧ Text.isIdentifier config.naming.runtime.toList = true := by
  obtain ⟨fields, rfl, hreads⟩ := check_eq_ok_iff.1 h
  exact ⟨isIdentifier_of_fieldOr (by decide) hreads.load, isIdentifier_of_fieldOr (by decide) hreads.runtime⟩

/-! ### What the names are used for -/

open Grammar Load

/-- Names of a configuration that are no keywords can be used. A module whose load calls have bare callees and name
modules is retargeted to a text that is accepted, with a call of the runtime's bare name for each load call; and the
standard template gives a bundle that is accepted and defines a function of this name. The load calls are `Clear`:
no identity holds a carriage return, and either no line of the text starts with a backslash, or no line ends
within the parentheses around a literal. The tokenizer takes a line break behind such a backslash for none. -/
theorem usable_of_check (hcheck : check root value = .ok config) (hload : config.naming.load.toList ∉ keywords)
    (hruntime : config.naming.runtime.toList ∉ keywords) :
    (∀ (directory text : String) (module : Module), Accepts text.toList module →
      (∀ call ∈ loadCalls config.naming.load module,
        Clear config.naming directory (unjoined true (withoutMark text.toList) = true) call) →
      ∃ code identities, retargetText config.naming directory text = .ok (code, identities)
        ∧ List.Forall₂ (Names config.naming directory) (loadCalls config.naming.load module) identities
        ∧ Accepts code.toList (exchangedAmong config.naming directory module)
        ∧ ((loadCalls config.naming.load module).map (renamed config.naming directory)).Sublist
          (subtreesOf (exchangedAmong config.naming directory module))
        ∧ ∀ call ∈ loadCalls config.naming.load module,
          CallsBare config.naming.runtime (renamed config.naming directory call))
    ∧ ∀ (artifact : Artifact) (pipeline : Pipeline ω) (world after : World ω),
      artifact.runtime = config.naming.runtime →
      (pipeline.load artifact.template).start world = (.ok Artifact.standardTemplate, after) →
      (∀ entry ∈ artifact.entries, ∀ c ∈ entry.1.toList, isLineBreak c = false) →
      ∃ code module, (artifact.render pipeline).start world = (.ok code, after)
        ∧ Accepts code.toList module ∧ Artifact.Defines config.naming.runtime.toList module := by
  obtain ⟨hidentifier, hname⟩ := isIdentifier_of_check hcheck
  refine ⟨fun directory text module haccepts hclear => ?_, fun artifact pipeline world after heq htemplate hnames => ?_⟩
  · obtain ⟨code, identities, htext, hidentities, hagain, hcalls⟩ :=
      exists_retargetText haccepts ⟨hidentifier, hload⟩ ⟨hname, hruntime⟩ hclear
    exact ⟨code, identities, htext, hidentities, hagain, hcalls, fun call _ => callsBare_renamed _ _ call⟩
  · have hfree : IsFree artifact.runtime.toList := by
      rw [heq]
      exact ⟨hname, hruntime⟩
    obtain ⟨module, haccepts, hdefines⟩ := Artifact.accepts_lines hfree hnames
    rw [heq] at hdefines
    refine ⟨_, module, Artifact.start_render_of_load htemplate, ?_, hdefines⟩
    rwa [String.toList_ofList]

/-- The least configuration, with a runtime's name. -/
def namedSetting (runtime : String) : Setting Unit Unit :=
  .table [("entry", .string "main.py"), ("runtime_function", .string runtime)]

def namedConfig (runtime : String) : Config Unit Unit where
  entries := [("main", .ofString "main.py")]
  root := .ofString "/p"
  naming := { runtime }

/-- The parentheses and the line break around the literal go. -/
theorem usable_load : check (.ofString "/p") (namedSetting "load") = .ok (namedConfig "load")
    ∧ ∃ module code text bundle, Accepts "x = require((\n'./a'))\n".toList module
      ∧ retargetText (namedConfig "load").naming "." "x = require((\n'./a'))\n" = .ok (code, ["./a.py"])
      ∧ Accepts code.toList (exchangedAmong (namedConfig "load").naming "." module)
      ∧ (Artifact.quotedArtifact.render []).start Artifact.templateWorld = (.ok text, Artifact.templateWorld)
      ∧ Accepts text.toList bundle ∧ Artifact.Defines "load".toList bundle := by
  have hmodule : (read "x = require((\n'./a'))\n".toList).map
      (isClear (namedConfig "load").naming "." "x = require((\n'./a'))\n".toList) = some true := by
    decide +kernel
  have hanswer : (retargetText (namedConfig "load").naming "." "x = require((\n'./a'))\n").toOption.map Prod.snd
      = some ["./a.py"] := by
    decide +kernel
  have hcheck : check (.ofString "/p") (namedSetting "load") = .ok (namedConfig "load") := rfl
  obtain ⟨htexts, hbundles⟩ := usable_of_check hcheck (by decide) (by decide)
  obtain ⟨module, hread, hclear⟩ := Option.map_eq_some_iff.1 hmodule
  obtain ⟨haccepts, hclear⟩ := clear_of_isClear hread hclear
  obtain ⟨code, identities, hcode, -, hagain, -⟩ := htexts _ _ module haccepts hclear
  have htemplate : Pipeline.readText Artifact.templateWorld.tree Artifact.quotedArtifact.template
      = .ok Artifact.standardTemplate :=
    Artifact.readText_of_read (Artifact.read_templateTree _) Artifact.notMem_standardTemplate
  obtain ⟨text, bundle, hrender, hbundle, hdefines⟩ := hbundles Artifact.quotedArtifact [] _ _ rfl
    (Artifact.start_load_of_unmatched htemplate nofun) (List.forall_mem_singleton.2 (isLineBreak_of_all rfl))
  rw [hcode] at hanswer
  obtain rfl : identities = ["./a.py"] := Option.some.inj hanswer
  exact ⟨hcheck, module, code, text, bundle, haccepts, hcode, hagain, hrender, hbundle, hdefines⟩

/-- A keyword is let pass, but neither a call of it nor its definition is accepted. -/
theorem unusable_class :
    check (.ofString "/p") (namedSetting "class") = .ok (namedConfig "class")
      ∧ (∃ module, Accepts "x = require('./a')\n".toList module
        ∧ (∀ call ∈ loadCalls "require" module, Clear (namedConfig "class").naming "."
          (unjoined true (withoutMark "x = require('./a')\n".toList) = true) call)
        ∧ retargetText (namedConfig "class").naming "." "x = require('./a')\n"
          = .ok ("x = class('./a.py')\n", ["./a.py"])
        ∧ Grammar.read "x = class('./a.py')\n".toList = none)
      ∧ ∃ text, (Artifact.render ⟨"class", [], [], templatePath⟩ []).start Artifact.templateWorld
          = (.ok text, Artifact.templateWorld)
        ∧ Grammar.read text.toList = none := by
  have hmodule : (read "x = require('./a')\n".toList).map
      (isClear (namedConfig "class").naming "." "x = require('./a')\n".toList) = some true := by
    decide +kernel
  have htemplate : Pipeline.readText Artifact.templateWorld.tree templatePath = .ok Artifact.standardTemplate :=
    Artifact.readText_of_read (Artifact.read_templateTree _) Artifact.notMem_standardTemplate
  obtain ⟨module, hread, hclear⟩ := Option.map_eq_some_iff.1 hmodule
  obtain ⟨haccepts, hclear⟩ := clear_of_isClear hread hclear
  refine ⟨rfl, ⟨module, haccepts, hclear, ?_, ?_⟩, ⟨_, Artifact.start_render_standard htemplate nofun, ?_⟩⟩
  · decide +kernel
  · decide +kernel
  · rw [String.toList_ofList]
    decide +kernel

end Config
end Bundler
