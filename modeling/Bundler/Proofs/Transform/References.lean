import Bundler.Pipeline
import Bundler.Proofs.Config.Checking
import Bundler.Proofs.Config.Loading
import Bundler.Proofs.Transform.Registration

/-!
# What the references in rules mean

A reference in a rule means a registered transform, or else a member of a library that can be called. Resolving
one changes no meaning, so rules become a pipeline all at once: every reference in turn takes the place of what it
means (`Pipeline.ofRules_eq_ok_iff`). Where that fails for no fault of the configuration, the first reference that
means nothing has a module with a relative name (`Pipeline.escapes_ofRules_iff`).
-/

namespace Bundler

variable {σ π ω α β : Type}

/-! ### Failures that are no faults of the configuration -/

/-- The result is a failure that is no fault of the configuration. -/
def Escapes (result : Except Failure α) (failure : Failure) : Prop :=
  result = .error failure ∧ ¬ failure.IsConfig

@[simp] theorem not_escapes_ok (value : α) (failure : Failure) : ¬ Escapes (.ok value) failure :=
  fun h => nomatch h.1

@[simp] theorem not_escapes_config (fault : ConfigFault) (failure : Failure) :
    ¬ Escapes (.error (.config fault) : Except Failure α) failure := by
  rintro ⟨⟨⟩, hfailure⟩
  exact hfailure ⟨fault, rfl⟩

theorem escapes_relative_iff {module : String} {failure : Failure} :
    Escapes (.error (.relativeImport module) : Except Failure α) failure
      ↔ failure = .relativeImport module := by
  constructor
  · rintro ⟨⟨⟩, -⟩
    rfl
  · rintro rfl
    exact ⟨rfl, by rintro ⟨fault, ⟨⟩⟩⟩

theorem escapes_bind_iff {first : Except Failure α} {next : α → Except Failure β} {failure : Failure} :
    Escapes (first >>= next) failure
      ↔ Escapes first failure ∨ ∃ value, first = .ok value ∧ Escapes (next value) failure := by
  simp only [Escapes, bind_eq_error_iff, or_and_right, ← exists_and_right, and_assoc]

theorem escapes_start_bind_iff {attempt : Attempt σ Failure α} {next : α → Attempt σ Failure β} {state : σ}
    {failure : Failure} : Escapes ((attempt >>= next).start state).1 failure ↔
      Escapes (attempt.start state).1 failure ∨ ∃ value between,
        attempt.start state = (.ok value, between) ∧ Escapes ((next value).start between).1 failure := by
  simp only [Escapes, Attempt.start_bind_fst_eq_error_iff, or_and_right, ← exists_and_right, and_assoc]

/-! ### References into a library -/

/-- The module that a reference names is relative to another one. -/
structure IsRelative (reference module : String) : Prop where
  module_eq : (splitReference reference).1 = module
  relative : module.startsWith "." = true
  member_ne : (splitReference reference).2 ≠ ""

/-- A reference names a member of a library: it has two parts, and the first one is no relative name. -/
structure Library.Names (library : Library π ω) (reference : String) (thing : Thing π ω) : Prop where
  module_ne : (splitReference reference).1 ≠ ""
  member_ne : (splitReference reference).2 ≠ ""
  absolute : (splitReference reference).1.startsWith "." = false
  member : library.member (splitReference reference).1 (splitReference reference).2 = .ok thing

/-- Looking a reference up in a library, with faults of the configuration for a reference that lacks a part and for
one that leads nowhere. -/
def Library.lookUp (library : Library π ω) (incomplete : ConfigFault) (missing : ImportFault → ConfigFault)
    (reference : String) : Except Failure (Thing π ω) :=
  let (module, member) := splitReference reference
  if module = "" ∨ member = "" then .error (.config incomplete)
  else if module.startsWith "." then .error (.relativeImport module)
  else (library.member module member).mapError fun fault => .config (missing fault)

section LookUp

variable {library : Library π ω} {incomplete : ConfigFault} {missing : ImportFault → ConfigFault}
  {reference : String} {thing : Thing π ω} {failure : Failure}

theorem Library.lookUp_eq_ok_iff :
    library.lookUp incomplete missing reference = .ok thing ↔ library.Names reference thing := by
  unfold lookUp
  dsimp only
  split
  · next hpart =>
    refine iff_of_false (fun h => nomatch h) fun h => ?_
    exact hpart.elim h.module_ne h.member_ne
  next hparts =>
  rw [not_or] at hparts
  split
  · next hrelative => exact iff_of_false (fun h => nomatch h) fun h => by simp [h.absolute] at hrelative
  · next habsolute =>
    rw [mapError_eq_ok_iff]
    exact ⟨fun h => ⟨hparts.1, hparts.2, Bool.not_eq_true _ ▸ habsolute, h⟩, fun h => h.member⟩

theorem Library.escapes_lookUp_iff : Escapes (library.lookUp incomplete missing reference) failure ↔
    ∃ module, IsRelative reference module ∧ failure = .relativeImport module := by
  unfold lookUp
  dsimp only
  split
  · next hpart =>
    refine iff_of_false (not_escapes_config _ _) ?_
    rintro ⟨module, ⟨hmodule, hrelative, hmember⟩, -⟩
    rcases hpart with hempty | hempty
    · rw [← hmodule, hempty] at hrelative
      exact absurd hrelative (by decide +kernel)
    · exact hmember hempty
  next hparts =>
  rw [not_or] at hparts
  split
  · next hrelative =>
    rw [escapes_relative_iff]
    constructor
    · rintro rfl
      exact ⟨_, ⟨rfl, hrelative, hparts.2⟩, rfl⟩
    · rintro ⟨module, ⟨rfl, -, -⟩, rfl⟩
      rfl
  · next habsolute =>
    constructor
    · rintro ⟨hmember, hfailure⟩
      obtain ⟨fault, -, rfl⟩ := mapError_eq_error_iff.1 hmember
      exact absurd ⟨_, rfl⟩ hfailure
    · rintro ⟨module, ⟨rfl, hrelative, -⟩, -⟩
      exact absurd hrelative habsolute

end LookUp

/-! ### References to transforms -/

namespace Registry

/-- What a reference in a rule means: a transform itself, a registered one, or a member of a library that can be
called and whose reference is the name of no registered one. -/
inductive Means (library : Library π ω) (registry : Registry ω) : TransformRef ω → Transform ω → Prop
  | direct (transform) : Means library registry (.direct transform) transform
  | registered {reference transform} (hfound : Data.fieldOf? reference registry.load.names = some transform) :
      Means library registry (.named reference) transform
  | imported {reference thing transform} (hnone : Data.fieldOf? reference registry.load.names = none)
      (hnames : library.Names reference thing) (hcall : thing.transform? = some transform) :
      Means library registry (.named reference) transform

def meaning (library : Library π ω) (registry : Registry ω) : TransformRef ω → Except Failure (Transform ω)
  | .direct transform => .ok transform
  | .named reference =>
    match Data.fieldOf? reference registry.load.names with
    | some transform => .ok transform
    | none => imported library reference

variable {library : Library π ω} {registry : Registry ω} {reference : TransformRef ω} {transform : Transform ω}
  {failure : Failure}

theorem imported_eq (library : Library π ω) (reference : String) :
    imported library reference = (do
      let thing ← library.lookUp (.unknownTransform reference) (.transformNotFound reference) reference
      match thing.transform? with
      | some transform => .ok transform
      | none => .error (.config (.unknownTransform reference))) := by
  unfold imported Library.lookUp
  dsimp only
  split
  · rfl
  split
  · rfl
  cases library.member (splitReference reference).1 (splitReference reference).2 <;> rfl

theorem imported_eq_ok_iff {text : String} : imported library text = .ok transform ↔
    ∃ thing, library.Names text thing ∧ thing.transform? = some transform := by
  rw [imported_eq, bind_eq_ok_iff]
  refine exists_congr fun thing => and_congr Library.lookUp_eq_ok_iff ?_
  cases thing.transform? <;> simp

theorem escapes_imported_iff {text : String} : Escapes (imported library text) failure ↔
    ∃ module, IsRelative text module ∧ failure = .relativeImport module := by
  rw [imported_eq, escapes_bind_iff, Library.escapes_lookUp_iff, or_iff_left]
  rintro ⟨thing, -, hescapes⟩
  cases hcall : thing.transform? <;> simp [hcall] at hescapes

theorem meaning_named_of_some {text : String}
    (hfound : Data.fieldOf? text registry.load.names = some transform) :
    meaning library registry (.named text) = .ok transform := by
  simp only [meaning, hfound]

theorem meaning_named_of_none {text : String} (hnone : Data.fieldOf? text registry.load.names = none) :
    meaning library registry (.named text) = imported library text := by
  simp only [meaning, hnone]

theorem meaning_eq_ok_iff : meaning library registry reference = .ok transform ↔
    Means library registry reference transform := by
  constructor
  · intro h
    cases reference with
    | direct other =>
      cases h
      exact .direct transform
    | named text =>
      cases hfound : Data.fieldOf? text registry.load.names with
      | some found =>
        rw [meaning_named_of_some hfound] at h
        cases h
        exact .registered hfound
      | none =>
        rw [meaning_named_of_none hfound, imported_eq_ok_iff] at h
        obtain ⟨thing, hnames, hcall⟩ := h
        exact .imported hfound hnames hcall
  · intro h
    cases h with
    | direct => rfl
    | registered hfound => exact meaning_named_of_some hfound
    | imported hnone hnames hcall =>
      rw [meaning_named_of_none hnone]
      exact imported_eq_ok_iff.2 ⟨_, hnames, hcall⟩

/-- A reference fails to mean anything for no fault of the configuration just when no transform is registered under
it and its module is relative. -/
theorem escapes_meaning_iff : Escapes (meaning library registry reference) failure ↔
    ∃ text module, reference = .named text ∧ Data.fieldOf? text registry.load.names = none ∧
      IsRelative text module ∧ failure = .relativeImport module := by
  cases reference with
  | direct transform => simp [meaning]
  | named text =>
    cases hfound : Data.fieldOf? text registry.load.names with
    | some transform => simp [meaning_named_of_some hfound, hfound]
    | none => simp [meaning_named_of_none hfound, escapes_imported_iff, hfound]

theorem start_resolve (library : Library π ω) (reference : TransformRef ω) {now : Registry ω}
    (hnow : now.load = registry.load) :
    ((resolve library reference).start now).1 = meaning library registry reference ∧
      ((resolve library reference).start now).2.load = registry.load := by
  cases reference with
  | direct transform => exact ⟨rfl, hnow⟩
  | named text =>
    simp only [resolve, Attempt.start, find?, hnow]
    cases hfound : Data.fieldOf? text registry.load.names with
    | some transform => exact ⟨(meaning_named_of_some hfound).symm, load_load⟩
    | none => exact ⟨(meaning_named_of_none hfound).symm, load_load⟩

end Registry

/-! ### Rules -/

namespace Pipeline

structure Resolved (library : Library π ω) (registry : Registry ω) (rule : Rule (TransformRef ω))
    (resolved : Rule (Transform ω)) : Prop where
  test : resolved.test = rule.test
  pattern : resolved.pattern = rule.pattern
  use : List.Forall₂ (registry.Means library) rule.use resolved.use

def ruleMeaning (library : Library π ω) (registry : Registry ω) (rule : Rule (TransformRef ω)) :
    Except Failure (Rule (Transform ω)) :=
  (rule.use.mapM (registry.meaning library)).map fun use => { test := rule.test, pattern := rule.pattern, use }

variable {library : Library π ω} {rules : List (Rule (TransformRef ω))} {rule : Rule (TransformRef ω)}
  {resolved : Rule (Transform ω)} {registry now : Registry ω} {pipeline : Pipeline ω} {failure : Failure}

theorem ruleMeaning_eq_ok_iff : ruleMeaning library registry rule = .ok resolved ↔
    Resolved library registry rule resolved := by
  rw [ruleMeaning, map_eq_ok_iff]
  simp only [mapM_eq_ok_iff, Registry.meaning_eq_ok_iff]
  constructor
  · rintro ⟨use, huse, rfl⟩
    exact ⟨rfl, rfl, huse⟩
  · rintro ⟨htest, hpattern, huse⟩
    cases resolved
    exact ⟨_, huse, by simp_all⟩

theorem start_resolveRule (library : Library π ω) (rule : Rule (TransformRef ω)) (hnow : now.load = registry.load) :
    ((resolveRule library rule).start now).1 = ruleMeaning library registry rule ∧
      ((resolveRule library rule).start now).2.load = registry.load := by
  have hreference : ∀ (reference : TransformRef ω) (now : Registry ω), now.load = registry.load → _ :=
    fun reference _ hnow => Registry.start_resolve library reference hnow
  obtain ⟨huse, hafter⟩ := Attempt.start_mapM_eq hreference rule.use hnow
  rw [resolveRule, Attempt.start_bind, ruleMeaning, ← huse]
  generalize (rule.use.mapM (Registry.resolve library)).start now = ended at hafter ⊢
  rcases ended with ⟨fault | use, after⟩
  · exact ⟨rfl, hafter⟩
  · exact ⟨rfl, hafter⟩

theorem fst_start_ofRules :
    ((ofRules library rules).start registry).1 = rules.mapM (ruleMeaning library registry) := by
  have hrule : ∀ (rule : Rule (TransformRef ω)) (now : Registry ω), now.load = registry.load → _ :=
    fun rule _ hnow => start_resolveRule library rule hnow
  exact (Attempt.start_mapM_eq hrule rules rfl).1

/-- Rules become a pipeline just when each reference means something. -/
theorem ofRules_eq_ok_iff : ((ofRules library rules).start registry).1 = .ok pipeline ↔
    List.Forall₂ (Resolved library registry) rules pipeline := by
  simp only [fst_start_ofRules, mapM_eq_ok_iff, ruleMeaning_eq_ok_iff]

theorem mapM_ruleMeaning_eq_error_iff : rules.mapM (ruleMeaning library registry) = .error failure ↔
    (rules.flatMap fun rule => rule.use).mapM (registry.meaning library) = .error failure := by
  induction rules with
  | nil => simp [pure, Except.pure]
  | cons rule rest ih =>
    have hrest : ∀ resolved : Rule (Transform ω),
        (rest.mapM (ruleMeaning library registry) >>= fun others => pure (resolved :: others)) = .error failure
          ↔ rest.mapM (ruleMeaning library registry) = .error failure :=
      fun resolved => bind_eq_error_iff_of_ok fun others => ⟨resolved :: others, rfl⟩
    have hmore : ∀ use : List (Transform ω),
        ((rest.flatMap fun rule => rule.use).mapM (registry.meaning library) >>= fun others =>
            pure (use ++ others)) = .error failure
          ↔ (rest.flatMap fun rule => rule.use).mapM (registry.meaning library) = .error failure :=
      fun use => bind_eq_error_iff_of_ok fun others => ⟨use ++ others, rfl⟩
    simp only [List.mapM_cons, List.flatMap_cons, List.mapM_append, bind_eq_error_iff, hrest, hmore, ih]
    cases huse : rule.use.mapM (registry.meaning library) with
    | error fault => simp [ruleMeaning, huse, Except.map]
    | ok use => simp [ruleMeaning, huse, Except.map]

/-- Rules become no pipeline for no fault of the configuration just when the first of their references that means
nothing has a module with a relative name. -/
theorem escapes_ofRules_iff : Escapes ((ofRules library rules).start registry).1 failure ↔
    ∃ earlier text later module, (rules.flatMap fun rule => rule.use) = earlier ++ .named text :: later ∧
      (∀ reference ∈ earlier, ∃ transform, registry.Means library reference transform) ∧
      Data.fieldOf? text registry.load.names = none ∧ IsRelative text module ∧
      failure = .relativeImport module := by
  rw [Escapes, fst_start_ofRules, mapM_ruleMeaning_eq_error_iff, mapM_eq_first_error_iff]
  simp only [Registry.meaning_eq_ok_iff]
  constructor
  · rintro ⟨⟨earlier, reference, later, hsplit, hearlier, hreference⟩, hfailure⟩
    obtain ⟨text, module, rfl, hnone, hrelative, rfl⟩ := Registry.escapes_meaning_iff.1 ⟨hreference, hfailure⟩
    exact ⟨earlier, text, later, module, hsplit, hearlier, hnone, hrelative, rfl⟩
  · rintro ⟨earlier, text, later, module, hsplit, hearlier, hnone, hrelative, rfl⟩
    obtain ⟨hreference, hfailure⟩ := Registry.escapes_meaning_iff.2 ⟨text, module, rfl, hnone, hrelative, rfl⟩
    exact ⟨⟨earlier, .named text, later, hsplit, hearlier, hreference⟩, hfailure⟩

end Pipeline
end Bundler
