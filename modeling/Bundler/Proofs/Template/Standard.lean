import Bundler.Artifact

/-!
# Filling in the standard template

`standardParts` is the structure of the standard template, and a loop writes its body once for every
element (`renderPart_loop`).
-/

namespace Bundler.Template

/-- What the standard template writes for every module: its closure. -/
def closureBody : List Node :=
  [.data ('\n' :: "def ".toList ++ "__bundle_module_".toList),
    .print (.attribute (.variable "loop") "index0"),
    .data "(module, exports, ".toList,
    .print (.variable "runtime"),
    .data ("):".toList ++ '\n' :: "  exports[".toList),
    .print (.filter (.variable "runtime") "pyrepr" []),
    .data "] = ".toList,
    .print (.variable "runtime"),
    .data ('\n' :: "  exec(compile(".toList),
    .print (.filter (.variable "code") "pyrepr" []),
    .data ", ".toList,
    .print (.filter (.variable "identity") "pyrepr" []),
    .data (", \"exec\"), exports)".toList ++ ['\n', '\n'])]

/-- What the standard template writes for every module in the table of closures. -/
def tableBody : List Node :=
  [.data "  ".toList,
    .print (.filter (.variable "identity") "pyrepr" []),
    .data (": ".toList ++ "__bundle_module_".toList),
    .print (.attribute (.variable "loop") "index0"),
    .data [',', '\n']]

def bootstrapBody : List Node :=
  [.data ['\n'],
    .print (.variable "runtime"),
    .data ['('],
    .print (.filter (.variable "identity") "pyrepr" []),
    .data ", \"__main__\")  # entry: ".toList,
    .print (.variable "name"),
    .data ['\n']]

def standardParts : List Node :=
  [.data ("#!/usr/bin/env python3".toList ++ '\n' :: "# -*- coding: utf-8 -*-".toList
      ++ '\n' :: "# Bundled by minipack ".toList),
    .print (.variable "version"),
    .data (". Do not edit.".toList ++ '\n' :: "# Entries: ".toList),
    .print (.filter (.variable "entries") "join" [.text ", "]),
    .data ('\n' :: "import types".toList ++ ['\n', '\n']),
    .loop ["identity", "code"] false (.call (.attribute (.variable "modules") "items") [])
      closureBody [],
    .data ('\n' :: "__bundle_modules__ = \x7b".toList ++ ['\n']),
    .loop ["identity"] true (.variable "modules") tableBody [],
    .data ('\x7d' :: '\n' :: "__bundle_cache__ = \x7b\x7d".toList
      ++ '\n' :: '\n' :: '\n' :: "def ".toList),
    .print (.variable "runtime"),
    .data ("(identity, name=None):".toList
      ++ '\n' :: "  if identity in __bundle_cache__:".toList
      ++ '\n' :: "    return __bundle_cache__[identity]".toList
      ++ '\n' :: "  module = types.ModuleType(name or identity)".toList
      ++ '\n' :: "  module.__file__ = identity".toList
      ++ '\n' :: "  __bundle_cache__[identity] = module".toList
      ++ '\n' :: "  __bundle_modules__[identity](module, module.__dict__, ".toList),
    .print (.variable "runtime"),
    .data (')' :: '\n' :: "  return module".toList ++ ['\n', '\n']),
    .loop ["name", "identity"] false (.call (.attribute (.variable "entries") "items") [])
      bootstrapBody []]

set_option maxRecDepth 100000 in
theorem parse_standardTemplate : parse Artifact.standardTemplate.toList = .ok standardParts := by
  rw [Artifact.standardTemplate, String.toList_intercalate, standardParts, closureBody, tableBody,
    bootstrapBody]
  simp only [List.map_cons, List.map_nil]
  repeat rw [String.toList_ofList]
  rfl

/-! ### Expressions -/

section Expressions

variable {scope : Scope} {value : Expr} {item : Item} {name : String} {arguments : List Expr}
  {items : List Item}

theorem evaluate_variable (h : scope.lookup name = some item) :
    evaluate scope (.variable name) = .ok item := by
  rw [evaluate, h]
  rfl

theorem evaluate_attribute (h : evaluate scope value = .ok item) :
    evaluate scope (.attribute value name) = item.member name := by
  rw [evaluate, h]
  rfl

theorem evaluate_filter (h : evaluate scope value = .ok item)
    (harguments : evaluateAll scope arguments = .ok items) :
    evaluate scope (.filter value name arguments) = applyFilter item name items := by
  rw [evaluate, h, harguments]
  rfl

theorem evaluateAll_nil : evaluateAll scope [] = .ok [] := by rw [evaluateAll]

theorem evaluate_quoted (h : evaluate scope value = .ok item) :
    evaluate scope (.filter value "pyrepr" []) = .ok (.text item.shown) :=
  evaluate_filter h evaluateAll_nil

end Expressions

/-! ### Texts and values -/

section Parts

variable {scope : Scope} {rest : List Node} {value : Expr} {item : Item}

theorem renderParts_nil : renderParts scope [] = .ok [] := by rw [renderParts]

theorem renderParts_of_renderPart {part : Node} {text : List Char}
    (h : renderPart scope part = .ok (text, scope)) :
    renderParts scope (part :: rest) = (renderParts scope rest).map (text ++ ·) := by
  rw [renderParts, h]
  rfl

theorem renderParts_data (text : List Char) :
    renderParts scope (.data text :: rest) = (renderParts scope rest).map (text ++ ·) :=
  renderParts_of_renderPart (by rw [renderPart])

theorem render_of_parse_data {text : List Char} (h : parse text = .ok [.data text]) :
    render text scope = .ok text := by
  have hparts : renderParts scope [.data text] = .ok text := by
    rw [renderParts_data, renderParts_nil, Except.map, List.append_nil]
  rw [render, h]
  exact hparts

theorem renderParts_print (h : evaluate scope value = .ok item) :
    renderParts scope (.print value :: rest)
      = (renderParts scope rest).map (item.written.toList ++ ·) := by
  apply renderParts_of_renderPart
  rw [renderPart, h]
  rfl

end Parts

/-! ### Loops -/

variable {α : Type} {scope : Scope} {targets : List String} {alone : Bool} {source : Expr}
  {body : List Node} {item : Item}

/-- One turn of a loop for each of several elements. -/
theorem renderTurns_mapM {unpacked : α → Except Fault Scope} {text : α → List Char} {values : List α}
    (hturn : ∀ value ∈ values, ∃ inner, unpacked value = .ok inner ∧
      renderParts inner body = .ok (text value)) :
    ∃ turns, values.mapM unpacked = .ok turns ∧
      renderTurns body turns = .ok (values.flatMap text) := by
  induction values with
  | nil => exact ⟨[], rfl, by rw [renderTurns, List.flatMap_nil]⟩
  | cons value rest ih =>
    rw [List.forall_mem_cons] at hturn
    obtain ⟨⟨inner, hinner, htext⟩, hrest⟩ := hturn
    obtain ⟨turns, hturns, hothers⟩ := ih hrest
    refine ⟨inner :: turns, ?_, ?_⟩
    · rw [List.mapM_cons, hinner, hturns]
      rfl
    · rw [renderTurns, htext, hothers]
      rfl

/-- A loop writes its body once for every element. -/
theorem renderPart_loop (values : List α) (embed : α → Item) (text : α × Nat → List Char)
    (hsource : evaluate scope source = .ok item) (helements : item.elements = .ok (values.map embed))
    (hturn : ∀ turn ∈ values.zipIdx, ∃ bound, unpack targets alone (embed turn.1) = .ok bound ∧
      renderParts (bound ++ ("loop", loopItem turn.2 values.length) :: scope) body = .ok (text turn)) :
    renderPart scope (.loop targets alone source body []) = .ok (values.zipIdx.flatMap text, scope) := by
  let unpacked (turn : α × Nat) : Except Fault Scope := do
    return (← unpack targets alone (embed turn.1)) ++ ("loop", loopItem turn.2 values.length) :: scope
  have hunpacked : ∀ turn ∈ values.zipIdx, ∃ inner, unpacked turn = .ok inner ∧
      renderParts inner body = .ok (text turn) := by
    intro turn hmem
    obtain ⟨bound, hbound, htext⟩ := hturn turn hmem
    refine ⟨_, ?_, htext⟩
    simp only [unpacked, hbound]
    rfl
  obtain ⟨turns, hturns, htext⟩ := renderTurns_mapM hunpacked
  rw [renderPart, hsource]
  simp only [bind, Except.bind, helements]
  split
  · next hempty =>
    have hvalues : values = [] := by simpa using hempty
    subst hvalues
    rw [renderParts_nil]
    rfl
  · rw [List.zipIdx_map, List.mapM_map]
    simp only [unpacked, bind, Except.bind] at hturns
    simp only [Function.comp_def, List.length_map, Prod.map_fst, Prod.map_snd, id_eq, hturns, htext]
    rfl

end Bundler.Template
