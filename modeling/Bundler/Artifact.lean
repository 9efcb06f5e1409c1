import Bundler.Graph.Basic
import Bundler.Pipeline
import Bundler.Template.Render

/-!
# The bundle

A bundle is one script with the code of all modules. It is written by filling in a template that is
itself a file and goes through the rules like any other. The template asks for four things: the
version, the name of the bundle's load function, the modules and the entries.

A rule may turn the template into any text. So what fills it in, and the encoding of the result, are a
parameter, the `Press`; the standard one knows the part of the template language that is set out in
`Bundler.Template`.
-/

namespace Bundler

def version : String := "0.1.0"

def templatePath : FilePath := .ofString "/minipack/templates/bundle.py.j2"

/-- What makes the bytes of a bundle: templates are filled in with the variables in scope, and texts are
encoded, where they can be, in a way that decoding undoes. -/
structure Press where
  fill : String → Template.Scope → Except Template.Fault String
  encode : String → Except Raised ByteArray
  decode_of_encode : ∀ text bytes, encode text = .ok bytes → Text.Utf8.decode bytes = .ok text

namespace Press

/-- What is raised for a text that cannot be encoded. -/
def unencodable (fault : Text.Utf8.EncodeFault) : Raised := ⟨"UnicodeEncodeError", fault.message, fault.message⟩

/-- Templates filled in by the interpreter, and UTF-8 without surrogates. -/
def standard : Press where
  fill template scope := (Template.render template.toList scope).map String.ofList
  encode text := (Text.Utf8.encode text).mapError unencodable
  decode_of_encode text bytes h := by
    rw [Text.Utf8.encode] at h
    split at h
    · cases h
    · cases h
      exact Text.Utf8.decode_toUTF8 text

theorem fill_standard (template : String) (scope : Template.Scope) :
    standard.fill template scope = (Template.render template.toList scope).map String.ofList := rfl

theorem encode_standard {text : String} {bytes : ByteArray} (h : Text.Utf8.encode text = .ok bytes) :
    standard.encode text = .ok bytes :=
  congrArg (Except.mapError unencodable) h

end Press

/-- What a bundle is written from. -/
structure Artifact where
  runtime : String
  modules : List (Identity × String)
  entries : List (String × Identity)
  template : FilePath := templatePath
  deriving DecidableEq, Repr

namespace Artifact

def textTable (pairs : List (String × String)) : Template.Item :=
  .dict (pairs.map fun (key, value) => (.text key, .text value))

def scope (artifact : Artifact) : List (String × Template.Item) :=
  [("version", .text version), ("runtime", .text artifact.runtime),
   ("modules", textTable artifact.modules), ("entries", textTable artifact.entries)]

def fill (artifact : Artifact) (template : String) (press : Press := .standard) :
    Except Template.Fault String :=
  press.fill template artifact.scope

def render {ω : Type} (artifact : Artifact) (pipeline : Pipeline ω) (press : Press := .standard) :
    Act ω String := do
  let template ← pipeline.load artifact.template
  Attempt.ofExcept ((artifact.fill template press).mapError .template)

/-- A path that cannot be written to. -/
def writeFault (path : FilePath) : PathFault → Failure
  | .null => .path .null
  | fault => .bundle (.write path fault)

/-- Writes a text to a file, in directories that are made first where they are missing. The file is opened
before the text is encoded: where that fails, it is left empty. -/
def writeTo {ω : Type} (path : FilePath) (text : String) (press : Press := .standard) : Act ω Unit :=
  fun world =>
    let directory := path.parent
    match world.tree.makeDirectories directory directory.parts.length with
    | (tree, some fault) => (.error (writeFault path fault), { world with tree })
    | (tree, none) =>
      let (result, content) : Except Failure Unit × ByteArray :=
        match press.encode text with
        | .ok bytes => (.ok (), bytes)
        | .error raised => (.error (.raised raised), ByteArray.empty)
      match tree.write path content with
      | .ok tree => (result, { world with tree })
      | .error fault => (.error (writeFault path fault), { world with tree })

def emit {ω : Type} (artifact : Artifact) (pipeline : Pipeline ω) (path : FilePath)
    (press : Press := .standard) : Act ω String := do
  let text ← artifact.render pipeline press
  writeTo path text press
  return text

def standardTemplate : String :=
  String.intercalate "\n"
    ["#!/usr/bin/env python3",
     "# -*- coding: utf-8 -*-",
     "# Bundled by minipack \x7b\x7b version \x7d\x7d. Do not edit.",
     "# Entries: \x7b\x7b entries | join(\", \") \x7d\x7d",
     "import types",
     "",
     "\x7b% for identity, code in modules.items() %\x7d",
     "",
     "def __bundle_module_\x7b\x7b loop.index0 \x7d\x7d(module, exports, \x7b\x7b runtime \x7d\x7d):",
     "  exports[\x7b\x7b runtime | pyrepr \x7d\x7d] = \x7b\x7b runtime \x7d\x7d",
     "  exec(compile(\x7b\x7b code | pyrepr \x7d\x7d, \x7b\x7b identity | pyrepr \x7d\x7d, \"exec\"), exports)",
     "",
     "\x7b% endfor %\x7d",
     "",
     "__bundle_modules__ = \x7b",
     "\x7b% for identity in modules %\x7d",
     "  \x7b\x7b identity | pyrepr \x7d\x7d: __bundle_module_\x7b\x7b loop.index0 \x7d\x7d,",
     "\x7b% endfor %\x7d",
     "\x7d",
     "__bundle_cache__ = \x7b\x7d",
     "",
     "",
     "def \x7b\x7b runtime \x7d\x7d(identity, name=None):",
     "  if identity in __bundle_cache__:",
     "    return __bundle_cache__[identity]",
     "  module = types.ModuleType(name or identity)",
     "  module.__file__ = identity",
     "  __bundle_cache__[identity] = module",
     "  __bundle_modules__[identity](module, module.__dict__, \x7b\x7b runtime \x7d\x7d)",
     "  return module",
     "",
     "\x7b% for name, identity in entries.items() %\x7d",
     "",
     "\x7b\x7b runtime \x7d\x7d(\x7b\x7b identity | pyrepr \x7d\x7d, \"__main__\")  # entry: \x7b\x7b name \x7d\x7d",
     "\x7b% endfor %\x7d",
     ""]

end Artifact
end Bundler
