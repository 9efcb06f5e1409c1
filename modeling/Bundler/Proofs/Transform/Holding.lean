import Bundler.Proofs.Attempt
import Bundler.Proofs.Load.Again
import Bundler.Proofs.Load.Inert
import Bundler.Proofs.Source.Replaced
import Bundler.Transform.Builtin

/-!
# Modules that hold data

The transforms at hand write a text into a module as a string literal. Whatever the text says, the literal
ends where it was meant to end, its value is the text, and the module loads nothing (`modules_hold_data`).
-/

namespace Bundler.Transform

open Grammar Load Source

/-- The code is a module in which a single string stands, whose value is the data, and it is put into any
bundle as it is. -/
structure HoldsData (code data : String) : Prop where
  literal : ∃ module literal, read code.toList = some module
    ∧ (leavesOf module).filter (·.kind = .string) = [literal]
    ∧ ∀ characters, evaluate characters literal.text = .ok (.text data.toList)
  kept : ∀ naming directory, retargetText naming directory code = .ok (code, [])

theorem HoldsData.unique {code data other : String} (hdata : HoldsData code data)
    (hother : HoldsData code other) : data = other := by
  obtain ⟨module, literal, hread, hstrings, hvalue⟩ := hdata.literal
  obtain ⟨_, _, hread', hstrings', hvalue'⟩ := hother.literal
  cases hread.symm.trans hread'
  cases hstrings.symm.trans hstrings'
  have hsame : data.toList = other.toList := by
    simpa using (hvalue .standard).symm.trans (hvalue' .standard)
  exact String.ext hsame

/-! ### Lines without indentation -/

/-- The token of a lexeme in a line that is not indented. -/
def flatToken (lexeme : Lexeme) : Token := ⟨lexeme.kind, lexeme.before, [], lexeme.text⟩

/-- The line of the lexeme is not indented. -/
def IsFlat (lexeme : Lexeme) : Prop := lexeme.indentation.getD [] = []

instance (lexeme : Lexeme) : Decidable (IsFlat lexeme) := inferInstanceAs (Decidable (_ = _))

theorem layoutFrom_flat {lexemes : List Lexeme} (h : ∀ lexeme ∈ lexemes, IsFlat lexeme) :
    layoutFrom [] lexemes = .ok (lexemes.map flatToken) := by
  induction lexemes with
  | nil => rw [layoutFrom, List.map_nil]
  | cons lexeme rest ih =>
    rw [List.forall_mem_cons] at h
    have hlays : Lays [] lexeme [] [] [] := by
      by_cases hfinish : lexeme.kind = .finish
      · exact .finish hfinish
      cases hindent : lexeme.indentation with
      | none => exact .within hfinish hindent
      | some blanks =>
        have hflat : lexeme.indentation = some [] := by simpa [IsFlat, hindent] using h.1
        have hnone : indent [] [] = .ok ([], []) := rfl
        exact .line hfinish hflat hnone
    exact layoutFrom_cons_iff.2 ⟨_, _, _, _, hlays, ih h.2, rfl⟩

theorem shownText_flat {lexemes : List Lexeme} (h : ∀ lexeme ∈ lexemes, IsFlat lexeme) :
    shownText (lexemes.map flatToken) = lexemes.flatMap Lexeme.written := by
  rw [shownText, List.flatMap_map]
  refine List.flatMap_congr fun lexeme hlexeme => ?_
  rw [Token.shown, Lexeme.written, h lexeme hlexeme]
  rfl

/-! ### A literal in its place -/

/-- The lexemes around a literal. They form a module that calls no name. -/
structure Setting where
  front : List Lexeme
  before : List Char
  back : List Lexeme
  flat : ∀ lexeme ∈ front ++ back, IsFlat lexeme
  plain : ∀ lexeme ∈ front ++ back, lexeme.kind ≠ .string
  inert : (parse ((front ++ ⟨.string, before, none, []⟩ :: back).map flatToken)).map areInert = some true

/-- The lexemes with a literal among them. -/
def Setting.lexemes (setting : Setting) (literal : List Char) : List Lexeme :=
  setting.front ++ ⟨.string, setting.before, none, literal⟩ :: setting.back

theorem Setting.isFlat_lexemes (setting : Setting) (literal : List Char) :
    ∀ lexeme ∈ setting.lexemes literal, IsFlat lexeme := by
  obtain ⟨hfront, hback⟩ := List.forall_mem_append.1 setting.flat
  exact List.forall_mem_append.2 ⟨hfront, List.forall_mem_cons.2 ⟨rfl, hback⟩⟩

/-- The grammar does not look into the literal. -/
theorem Setting.exists_parse (setting : Setting) (literal : List Char) :
    ∃ module, parse ((setting.lexemes literal).map flatToken) = some module ∧ areInert module = true := by
  obtain ⟨base, hbase, hinert⟩ := Option.map_eq_some_iff.1 setting.inert
  have halike : List.Forall₂ (Token.Alike fun test => ∃ rule : Grammar.Rule, test ∈ rule.pattern.tests)
      ((setting.front ++ ⟨.string, setting.before, none, []⟩ :: setting.back).map flatToken)
      ((setting.lexemes literal).map flatToken) := by
    rw [Setting.lexemes, List.map_append, List.map_append, List.map_cons, List.map_cons]
    have hsame : ∀ lexemes : List Lexeme,
        List.Forall₂ (Token.Alike fun test => ∃ rule : Grammar.Rule, test ∈ rule.pattern.tests)
          (lexemes.map flatToken) (lexemes.map flatToken) :=
      fun lexemes => List.forall₂_same.2 fun _ _ _ _ => rfl
    exact List.rel_append (hsame _) (.cons (alike_string rfl literal _) (hsame _))
  obtain ⟨module, hmodule, hform⟩ := exists_parse_of_alike hbase halike
  refine ⟨module, hmodule, ?_⟩
  rw [← areInert_hollowAll, hform, areInert_hollowAll, hinert]

theorem Setting.holdsData (setting : Setting) {code data : String}
    (h : Source.lexemes code.toList = .ok (setting.lexemes (Text.quoted data.toList))) :
    HoldsData code data := by
  have hflat := setting.isFlat_lexemes (Text.quoted data.toList)
  obtain ⟨module, hparse, hinert⟩ := setting.exists_parse (Text.quoted data.toList)
  have htokens : tokens code.toList = .ok ((setting.lexemes (Text.quoted data.toList)).map flatToken) := by
    rw [tokens, h]
    exact layoutFrom_flat hflat
  have hread : read code.toList = some module := by
    rw [Grammar.read, withoutMark_of_tokens htokens, htokens]
    exact hparse
  have hleaves := leavesOf_of_parse hparse
  have hprint : print module = code.toList := by
    rw [print, hleaves, shownText_flat hflat, (lexemes_eq_ok_iff.1 h).2]
  refine ⟨⟨module, ⟨.string, setting.before, [], Text.quoted data.toList⟩, hread, ?_, ?_⟩, ?_⟩
  · obtain ⟨hfront, hback⟩ := List.forall_mem_append.1 setting.plain
    have hnone : ∀ lexemes : List Lexeme, (∀ lexeme ∈ lexemes, lexeme.kind ≠ .string) →
        (lexemes.map flatToken).filter (·.kind = .string) = [] := by
      intro lexemes hlexemes
      simpa [List.filter_eq_nil_iff, flatToken] using hlexemes
    rw [hleaves, Setting.lexemes, List.map_append, List.map_cons, List.filter_append, hnone _ hfront,
      List.filter_cons_of_pos (by rfl), hnone _ hback]
    rfl
  · exact fun characters => evaluate_quoted characters data.toList
  · exact fun naming directory => retargetText_of_inert hread hinert hprint naming directory

theorem lexemeAt_quoted (mode : Mode) (text : List Char) {rest : List Char}
    (hrest : rest.head? ≠ some '\'') :
    lexemeAt mode (Text.quoted text ++ rest) = .ok (.string, Text.quoted text, rest, mode) := by
  by_cases hne : text = []
  · subst hne
    have hshort : ['\'', '\''].isPrefixOf ('\'' :: rest) = false := by
      cases rest with
      | nil => rfl
      | cons c rest =>
        have hc : c ≠ '\'' := fun heq => hrest (congrArg some heq)
        simp [List.isPrefixOf, hc.symm]
    have hquotes : Text.quoted [] = ['\'', '\''] := rfl
    unfold lexemeAt
    rw [hquotes, List.cons_append, stringPrefix?_quote (.inl rfl)]
    simp [openingQuotes, hshort, stringRest]
  · exact isLiteral_quoted hne mode rest

/-! ### The modules of the transforms at hand -/

/-- Around the literal of a text. -/
def textSetting : Setting where
  front := [⟨.name, [], some [], "text".toList⟩, ⟨.operator, [' '], none, ['=']⟩]
  before := [' ']
  back := [⟨.newline, [], none, ['\n']⟩, ⟨.finish, [], none, []⟩]
  flat := by decide
  plain := by decide
  inert := by decide +kernel

/-- Around the literal of a document. -/
def jsonSetting : Setting where
  front := [⟨.name, [], some [], "import".toList⟩, ⟨.name, [' '], none, "json".toList⟩,
    ⟨.name, [' '], none, "as".toList⟩, ⟨.name, [' '], none, "_json".toList⟩, ⟨.newline, [], none, ['\n']⟩,
    ⟨.name, ['\n'], some [], "data".toList⟩, ⟨.operator, [' '], none, ['=']⟩,
    ⟨.name, [' '], none, "_json".toList⟩, ⟨.operator, [], none, ['.']⟩, ⟨.name, [], none, "loads".toList⟩,
    ⟨.operator, [], none, ['(']⟩]
  before := []
  back := [⟨.operator, [], none, [')']⟩, ⟨.newline, [], none, ['\n']⟩, ⟨.finish, [], none, []⟩]
  flat := by decide
  plain := by decide
  inert := by decide +kernel

theorem lexemes_textSetting (text : List Char) :
    Source.lexemes ((textSetting.lexemes (Text.quoted text)).flatMap Lexeme.written)
      = .ok (textSetting.lexemes (Text.quoted text)) := by
  -- the module of the empty text is read as a whole, and the literal takes the place of its literal
  have hempty : Source.lexemes "text = ''\n".toList = .ok (textSetting.lexemes (Text.quoted [])) := by
    decide +kernel
  refine lexemes_behind hempty (by decide) (show decides ' ' = false from by decide) rfl rfl ?_
    fun mode _ hscans => hscans.string fun mode => lexemeAt_quoted mode text nofun
  simp [textSetting, Lexeme.written, List.getLast?_cons]

theorem lexemes_jsonSetting (text : List Char) :
    Source.lexemes ((jsonSetting.lexemes (Text.quoted text)).flatMap Lexeme.written)
      = .ok (jsonSetting.lexemes (Text.quoted text)) := by
  have hsplit : ∀ literal, jsonSetting.lexemes literal = jsonSetting.front.dropLast
      ++ ⟨.operator, [], none, ['(']⟩ :: ⟨.string, [], none, literal⟩ :: jsonSetting.back := fun _ => rfl
  have hempty : Source.lexemes "import json as _json\n\ndata = _json.loads('')\n".toList
      = .ok (jsonSetting.lexemes (Text.quoted [])) := by decide +kernel
  rw [hsplit] at hempty ⊢
  refine lexemes_behind hempty (by decide) (show decides '(' = false from by decide) rfl rfl ?_
    fun mode hsound hscans => hscans.opening rfl rfl hsound fun mode _ hscans =>
      hscans.string fun mode => lexemeAt_quoted mode text nofun
  simp [jsonSetting, Lexeme.written, List.getLast?_cons]

theorem holdsData_textModuleText (text : String) : HoldsData (textModuleText text) text := by
  have hcode : (textModuleText text).toList
      = (textSetting.lexemes (Text.quoted text.toList)).flatMap Lexeme.written := by
    change ("text = " ++ String.ofList (Text.quoted text.toList) ++ "\n").toList = _
    simp [Setting.lexemes, textSetting, Lexeme.written]
  refine textSetting.holdsData ?_
  rw [hcode]
  exact lexemes_textSetting text.toList

theorem holdsData_jsonModuleText (text : String) : HoldsData (jsonModuleText text) text := by
  have hcode : (jsonModuleText text).toList
      = (jsonSetting.lexemes (Text.quoted text.toList)).flatMap Lexeme.written := by
    change ("import json as _json\n\ndata = _json.loads(" ++ String.ofList (Text.quoted text.toList)
      ++ ")\n").toList = _
    simp [Setting.lexemes, jsonSetting, Lexeme.written]
  refine jsonSetting.holdsData ?_
  rw [hcode]
  exact lexemes_jsonSetting text.toList

variable {ω : Type}

theorem start_textModule (text : String) (memory : ω) :
    (textModule.apply text).start memory = (.ok (textModuleText text), memory) := rfl

theorem start_jsonModule (text : String) (memory : ω) :
    (jsonModule.apply text).start memory
      = (match (Data.Json.parse text : Except _ (Data.Value Empty)) with
        | .ok _ => .ok (jsonModuleText text)
        | .error fault => .error (jsonFault fault), memory) := by
  rw [apply, Attempt.start_bind]
  cases hparse : (Data.Json.parse text : Except _ (Data.Value Empty)) <;>
    simp [jsonModule, ofResult, hparse]

/-- What the transforms at hand make of a text holds the text and loads nothing. Only a text that is no
document is refused, by the transform for documents. -/
theorem modules_hold_data (text : String) (memory : ω) :
    (∃ code, (textModule.apply text).start memory = (.ok code, memory) ∧ HoldsData code text)
      ∧ match (Data.Json.parse text : Except _ (Data.Value Empty)) with
        | .ok _ => ∃ code, (jsonModule.apply text).start memory = (.ok code, memory) ∧ HoldsData code text
        | .error fault => (jsonModule.apply text).start memory = (.error (jsonFault fault), memory) := by
  refine ⟨⟨_, start_textModule text memory, holdsData_textModuleText text⟩, ?_⟩
  rw [start_jsonModule]
  cases (Data.Json.parse text : Except _ (Data.Value Empty)) with
  | error fault => rfl
  | ok value => exact ⟨_, rfl, holdsData_jsonModuleText text⟩

end Bundler.Transform
