import Bundler.Proofs.Template.Standard

/-!
# The lines of a bundle

The text that the standard template makes of a bundle is a sequence of lines (`Artifact.lines`): a
header, five lines for every module, a table with one line for every module, the load function, and two
lines for every entry. `render_standardTemplate` is proved body by body: what a loop writes for one
element is what `closureLines`, `tableLine` and `bootstrapLines` say of it.
-/

namespace Bundler

open Text

namespace Artifact

/-- The lines one after the other, each with its end. -/
def unlines (lines : List (List Char)) : List Char := lines.flatMap (· ++ ['\n'])

theorem unlines_nil : unlines [] = [] := rfl

theorem unlines_cons (line : List Char) (rest : List (List Char)) :
    unlines (line :: rest) = line ++ '\n' :: unlines rest := by
  simp [unlines]

theorem unlines_append (left right : List (List Char)) :
    unlines (left ++ right) = unlines left ++ unlines right := by
  simp [unlines]

theorem unlines_flatMap {α : Type} (values : List α) (lines : α → List (List Char)) :
    unlines (values.flatMap lines) = values.flatMap fun value => unlines (lines value) := by
  simp [unlines, List.flatMap_assoc]

theorem unlines_map {α : Type} (values : List α) (line : α → List Char) :
    unlines (values.map line) = values.flatMap fun value => unlines [line value] := by
  simp [unlines, List.flatMap_map]

def closureName (index : Nat) : List Char := "__bundle_module_".toList ++ (toString index).toList

variable (artifact : Artifact)

/-- The lines before the modules. -/
def headerLines : List (List Char) :=
  ["#!/usr/bin/env python3".toList, "# -*- coding: utf-8 -*-".toList,
    "# Bundled by minipack ".toList ++ version.toList ++ ". Do not edit.".toList,
    "# Entries: ".toList ++ (joinWith ", " (artifact.entries.map (·.1))).toList,
    "import types".toList, []]

/-- The lines of a module: a closure that compiles its code. -/
def closureLines (module : (Identity × String) × Nat) : List (List Char) :=
  [[],
    "def ".toList ++ closureName module.2 ++ "(module, exports, ".toList
      ++ artifact.runtime.toList ++ "):".toList,
    "  exports[".toList ++ quoted artifact.runtime.toList ++ "] = ".toList ++ artifact.runtime.toList,
    "  exec(compile(".toList ++ quoted module.1.2.toList ++ ", ".toList
      ++ quoted module.1.1.toList ++ ", \"exec\"), exports)".toList,
    []]

def tableLine (module : (Identity × String) × Nat) : List Char :=
  "  ".toList ++ quoted module.1.1.toList ++ ": ".toList ++ closureName module.2 ++ [',']

/-- The lines of the bundle's own load function. -/
def runtimeLines : List (List Char) :=
  [['\x7d'], "__bundle_cache__ = \x7b\x7d".toList, [], [],
    "def ".toList ++ artifact.runtime.toList ++ "(identity, name=None):".toList,
    "  if identity in __bundle_cache__:".toList,
    "    return __bundle_cache__[identity]".toList,
    "  module = types.ModuleType(name or identity)".toList,
    "  module.__file__ = identity".toList,
    "  __bundle_cache__[identity] = module".toList,
    "  __bundle_modules__[identity](module, module.__dict__, ".toList ++ artifact.runtime.toList
      ++ [')'],
    "  return module".toList, []]

def bootstrapLines (entry : String × Identity) : List (List Char) :=
  [[],
    artifact.runtime.toList ++ '(' :: quoted entry.2.toList
      ++ ", \"__main__\")  # entry: ".toList ++ entry.1.toList]

def lines : List (List Char) :=
  artifact.headerLines
    ++ (artifact.modules.zipIdx.flatMap artifact.closureLines
    ++ ([[], "__bundle_modules__ = \x7b".toList]
    ++ (artifact.modules.zipIdx.map tableLine
    ++ (artifact.runtimeLines
    ++ artifact.entries.flatMap artifact.bootstrapLines))))

end Artifact

namespace Template

theorem written_integer (n : Nat) : (Item.integer n).written = toString n := rfl

theorem written_text (text : String) : (Item.text text).written = text := rfl

theorem toList_shown (text : String) : (Item.text text).shown.toList = quoted text.toList := by
  rw [Item.shown, quotedString, String.toList_ofList]

/-! ### One turn of each loop -/

section Bodies

variable {scope : Scope} {artifact : Artifact} {identity : Identity} {index : Nat}

theorem render_closureBody {code : String}
    (hruntime : evaluate scope (.variable "runtime") = .ok (.text artifact.runtime))
    (hindex : evaluate scope (.attribute (.variable "loop") "index0") = .ok (.integer index))
    (hidentity : evaluate scope (.variable "identity") = .ok (.text identity))
    (hcode : evaluate scope (.variable "code") = .ok (.text code)) :
    renderParts scope closureBody
      = .ok (Artifact.unlines (artifact.closureLines ((identity, code), index))) := by
  rw [closureBody, renderParts_data, renderParts_print hindex, renderParts_data,
    renderParts_print hruntime, renderParts_data, renderParts_print (evaluate_quoted hruntime),
    renderParts_data, renderParts_print hruntime, renderParts_data,
    renderParts_print (evaluate_quoted hcode), renderParts_data,
    renderParts_print (evaluate_quoted hidentity), renderParts_data, renderParts_nil]
  simp only [Except.map, written_integer, written_text, toList_shown]
  unfold Artifact.closureLines Artifact.closureName
  simp only [Artifact.unlines_cons, Artifact.unlines_nil, List.cons_append, List.nil_append,
    List.append_assoc]

theorem render_tableBody {code : String}
    (hindex : evaluate scope (.attribute (.variable "loop") "index0") = .ok (.integer index))
    (hidentity : evaluate scope (.variable "identity") = .ok (.text identity)) :
    renderParts scope tableBody
      = .ok (Artifact.unlines [Artifact.tableLine ((identity, code), index)]) := by
  rw [tableBody, renderParts_data, renderParts_print (evaluate_quoted hidentity), renderParts_data,
    renderParts_print hindex, renderParts_data, renderParts_nil]
  simp only [Except.map, written_integer, written_text, toList_shown]
  unfold Artifact.tableLine Artifact.closureName
  simp only [Artifact.unlines_cons, Artifact.unlines_nil, List.cons_append, List.nil_append,
    List.append_assoc]

theorem render_bootstrapBody {name : String}
    (hruntime : evaluate scope (.variable "runtime") = .ok (.text artifact.runtime))
    (hidentity : evaluate scope (.variable "identity") = .ok (.text identity))
    (hname : evaluate scope (.variable "name") = .ok (.text name)) :
    renderParts scope bootstrapBody
      = .ok (Artifact.unlines (artifact.bootstrapLines (name, identity))) := by
  rw [bootstrapBody, renderParts_data, renderParts_print hruntime, renderParts_data,
    renderParts_print (evaluate_quoted hidentity), renderParts_data, renderParts_print hname,
    renderParts_data, renderParts_nil]
  simp only [Except.map, written_text, toList_shown]
  unfold Artifact.bootstrapLines
  simp only [Artifact.unlines_cons, Artifact.unlines_nil, List.cons_append, List.nil_append,
    List.append_assoc]

end Bodies

/-! ### The loops -/

/-- A pair of texts, as a loop over a table sees it. -/
def pairItem (pair : String × String) : Item := .tuple [.text pair.1, .text pair.2]

section Tables

variable {scope : Scope} {name : String} {pairs : List (String × String)}

theorem evaluate_items (h : evaluate scope (.variable name) = .ok (Artifact.textTable pairs)) :
    evaluate scope (.call (.attribute (.variable name) "items") [])
      = .ok (.list (pairs.map pairItem)) := by
  have hmethod : (Artifact.textTable pairs).member "items"
      = .ok (.method (Artifact.textTable pairs) "items") := rfl
  rw [evaluate, evaluate_attribute h, evaluateAll_nil]
  simp only [bind, Except.bind, hmethod]
  rw [Artifact.textTable, callMethod, List.map_map]
  rfl

theorem elements_textTable :
    (Artifact.textTable pairs).elements = .ok (pairs.map fun pair => Item.text pair.1) := by
  rw [Artifact.textTable, Item.elements, List.map_map]
  rfl

theorem evaluate_join (h : evaluate scope (.variable name) = .ok (Artifact.textTable pairs)) :
    evaluate scope (.filter (.variable name) "join" [.text ", "])
      = .ok (.text (joinWith ", " (pairs.map (·.1)))) := by
  have hwritten : (pairs.map fun pair => Item.text pair.1).map Item.written = pairs.map (·.1) := by
    rw [List.map_map]
    rfl
  have hjoin : applyFilter (Artifact.textTable pairs) "join" [.text ", "]
      = (Artifact.textTable pairs).elements.map fun items =>
          .text (joinWith ", " (items.map Item.written)) := rfl
  have harguments : evaluateAll scope [.text ", "] = .ok [.text ", "] := by
    rw [evaluateAll, evaluateAll_nil, evaluate]
    rfl
  refine (evaluate_filter h harguments).trans (hjoin.trans ?_)
  rw [elements_textTable, Except.map, hwritten]

end Tables

theorem evaluate_index0 {scope : Scope} {index length : Nat}
    (h : scope.lookup "loop" = some (loopItem index length)) :
    evaluate scope (.attribute (.variable "loop") "index0") = .ok (.integer index) := by
  rw [evaluate_attribute (evaluate_variable h)]
  rfl

variable (artifact : Artifact)

theorem evaluate_version :
    evaluate artifact.scope (.variable "version") = .ok (.text version) :=
  evaluate_variable rfl

theorem evaluate_runtime :
    evaluate artifact.scope (.variable "runtime") = .ok (.text artifact.runtime) :=
  evaluate_variable rfl

theorem evaluate_modules :
    evaluate artifact.scope (.variable "modules") = .ok (Artifact.textTable artifact.modules) :=
  evaluate_variable rfl

theorem evaluate_entries :
    evaluate artifact.scope (.variable "entries") = .ok (Artifact.textTable artifact.entries) :=
  evaluate_variable rfl

theorem render_closures :
    renderPart artifact.scope (.loop ["identity", "code"] false
        (.call (.attribute (.variable "modules") "items") []) closureBody [])
      = .ok (Artifact.unlines (artifact.modules.zipIdx.flatMap artifact.closureLines),
          artifact.scope) := by
  rw [Artifact.unlines_flatMap, renderPart_loop artifact.modules pairItem
    (fun module => Artifact.unlines (artifact.closureLines module))
    (evaluate_items (evaluate_modules artifact)) rfl]
  rintro ⟨⟨identity, code⟩, index⟩ -
  refine ⟨[("code", .text code), ("identity", .text identity)], rfl, ?_⟩
  apply render_closureBody
  · exact evaluate_variable rfl
  · exact evaluate_index0 rfl
  · exact evaluate_variable rfl
  · exact evaluate_variable rfl

theorem render_table :
    renderPart artifact.scope (.loop ["identity"] true (.variable "modules") tableBody [])
      = .ok (Artifact.unlines (artifact.modules.zipIdx.map Artifact.tableLine), artifact.scope) := by
  rw [Artifact.unlines_map,
    renderPart_loop artifact.modules (fun module => .text module.1)
      (fun module => Artifact.unlines [Artifact.tableLine module]) (evaluate_modules artifact)
      elements_textTable]
  rintro ⟨⟨identity, code⟩, index⟩ -
  refine ⟨[("identity", .text identity)], rfl, ?_⟩
  apply render_tableBody
  · exact evaluate_index0 rfl
  · exact evaluate_variable rfl

theorem render_bootstraps :
    renderPart artifact.scope (.loop ["name", "identity"] false
        (.call (.attribute (.variable "entries") "items") []) bootstrapBody [])
      = .ok (Artifact.unlines (artifact.entries.flatMap artifact.bootstrapLines),
          artifact.scope) := by
  have hzip : artifact.entries.flatMap artifact.bootstrapLines
      = artifact.entries.zipIdx.flatMap fun entry => artifact.bootstrapLines entry.1 := by
    rw [← List.flatMap_map Prod.fst, List.zipIdx_map_fst]
  rw [hzip, Artifact.unlines_flatMap, renderPart_loop artifact.entries pairItem
    (fun entry => Artifact.unlines (artifact.bootstrapLines entry.1))
    (evaluate_items (evaluate_entries artifact)) rfl]
  rintro ⟨⟨name, identity⟩, index⟩ -
  refine ⟨[("identity", .text identity), ("name", .text name)], rfl, ?_⟩
  apply render_bootstrapBody
  · exact evaluate_variable rfl
  · exact evaluate_variable rfl
  · exact evaluate_variable rfl

theorem render_standardTemplate :
    render Artifact.standardTemplate.toList artifact.scope = .ok (Artifact.unlines artifact.lines) := by
  rw [render, parse_standardTemplate]
  simp only [bind, Except.bind]
  have hversion := evaluate_version artifact
  have hruntime := evaluate_runtime artifact
  have hjoin := evaluate_join (evaluate_entries artifact)
  rw [standardParts, renderParts_data, renderParts_print hversion, renderParts_data,
    renderParts_print hjoin, renderParts_data, renderParts_of_renderPart (render_closures artifact),
    renderParts_data, renderParts_of_renderPart (render_table artifact), renderParts_data,
    renderParts_print hruntime, renderParts_data, renderParts_print hruntime, renderParts_data,
    renderParts_of_renderPart (render_bootstraps artifact), renderParts_nil]
  simp only [Except.map, written_text]
  unfold Artifact.lines Artifact.headerLines Artifact.runtimeLines
  simp only [Artifact.unlines_append, Artifact.unlines_cons, List.cons_append, List.nil_append,
    List.append_nil, List.append_assoc]

end Template
end Bundler
