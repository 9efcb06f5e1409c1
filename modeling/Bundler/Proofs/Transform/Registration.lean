import Bundler.Proofs.Attempt
import Bundler.Proofs.Graph.Registry
import Bundler.Transform.Registry
import Mathlib.Data.List.DropRight

/-!
# Which transform a name finds

A registry is used in any order: transforms are registered, names are looked up, everything is
forgotten. What a look-up finds depends on what was done since the registry was cleared last, and in
that only on the registrations of the name and on whether they came before the first look-up, which
brings in the transforms at hand (`find?_afterAll`). The registration made last is found, but for a name
of the transforms at hand only if it was made after the first look-up.
-/

namespace Bundler.Registry

variable {π ω : Type}

inductive Use (ω : Type)
  | register (name : String) (transform : Transform ω)
  | look (name : String)
  | resolve (reference : TransformRef ω)
  | clear

def Use.looks : Use ω → Bool
  | .look _ | .resolve (.named _) => true
  | .register .. | .resolve (.direct _) | .clear => false

def Use.clears : Use ω → Bool
  | .clear => true
  | .register .. | .look _ | .resolve _ => false

/-- The transform that it registers under a name. -/
def Use.registers? (name : String) : Use ω → Option (Transform ω)
  | .register other transform => if name = other then some transform else none
  | .look _ | .resolve _ | .clear => none

def after (library : Library π ω) (registry : Registry ω) : Use ω → Registry ω
  | .register name transform => registry.register name transform
  | .look name => (registry.find? name).2
  | .resolve reference => ((resolve library reference).start registry).2
  | .clear => registry.clear

/-- A registry that was empty at first. -/
def afterAll (library : Library π ω) (uses : List (Use ω)) : Registry ω :=
  uses.foldl (after library) {}

/-- What was done since everything was forgotten last. -/
def recent (uses : List (Use ω)) : List (Use ω) := uses.rtakeWhile fun use => !use.clears

/-- What was done from the first look-up on. -/
def fromLook (uses : List (Use ω)) : List (Use ω) := uses.dropWhile fun use => !use.looks

/-- The transform registered last under a name. -/
def registered? (name : String) (uses : List (Use ω)) : Option (Transform ω) :=
  (uses.filterMap (Use.registers? name)).getLast?

/-- The transform at hand of a name. -/
def builtin? (name : String) : Option (Transform ω) := Data.fieldOf? name Transform.builtins

variable {library : Library π ω} {registry : Registry ω} {uses : List (Use ω)} {use : Use ω}
  {name : String}

theorem registered?_append (before later : List (Use ω)) :
    registered? name (before ++ later) = (registered? name later).or (registered? name before) := by
  rw [registered?, List.filterMap_append, List.getLast?_append, registered?, registered?]

theorem registered?_singleton : registered? name [use] = use.registers? name := by
  rw [registered?, List.filterMap_cons]
  cases use.registers? name <;> rfl

/-- A registration after the first look-up is a recent one, and the last of these. -/
theorem registered?_fromLook {transform : Transform ω}
    (h : registered? name (fromLook uses) = some transform) :
    registered? name uses = some transform := by
  have hsplit := List.takeWhile_append_dropWhile (p := fun use : Use ω => !use.looks) (l := uses)
  rw [← hsplit, registered?_append]
  rw [fromLook] at h
  rw [h, Option.some_or]

theorem recent_append_clear : recent (uses ++ [.clear]) = [] :=
  List.rtakeWhile_concat_neg _ _ _ (by simp [Use.clears])

theorem recent_append (h : use.clears = false) : recent (uses ++ [use]) = recent uses ++ [use] :=
  List.rtakeWhile_concat_pos _ _ _ (by simp [h])

/-- Before the first look-up nothing was done from it on. -/
theorem fromLook_eq_nil_iff : fromLook uses = [] ↔ uses.any Use.looks = false := by
  simp [fromLook, List.dropWhile_eq_nil_iff]

theorem fromLook_append_of_look (hlook : uses.any Use.looks = true) :
    fromLook (uses ++ [use]) = fromLook uses ++ [use] := by
  have hne : fromLook uses ≠ [] := by simp [fromLook_eq_nil_iff, hlook]
  rw [fromLook, List.dropWhile_append, if_neg (by simpa [fromLook] using hne)]
  rfl

theorem fromLook_append_of_not_look (hlook : uses.any Use.looks = false) :
    fromLook (uses ++ [use]) = if use.looks then [use] else [] := by
  have hnil := fromLook_eq_nil_iff.2 hlook
  rw [fromLook, List.dropWhile_append, if_pos (by simpa [fromLook] using hnil)]
  cases h : use.looks <;> simp [h]

/-! ### What a registry holds -/

theorem loaded_load : registry.load.loaded = true := by
  rw [load]
  split
  · next h => exact h
  · rfl

theorem load_load : registry.load.load = registry.load := by
  rw [load, if_pos loaded_load]

/-- The transforms at hand come in once, in the place of what stands under their names. -/
theorem fieldOf?_load :
    Data.fieldOf? name registry.load.names
      = if registry.loaded then Data.fieldOf? name registry.names
        else (builtin? name).or (Data.fieldOf? name registry.names) := by
  rw [load]
  split
  · rfl
  · simp only [Transform.builtins, List.foldl_cons, List.foldl_nil, register, Data.fieldOf?_setField,
      builtin?]
    by_cases htext : name = "text"
    · simp [htext, Data.fieldOf?]
    by_cases hjson : name = "json"
    · simp [hjson, Data.fieldOf?]
    · simp [htext, hjson, Ne.symm htext, Ne.symm hjson, Data.fieldOf?]

theorem after_of_looks (h : use.looks = true) : after library registry use = registry.load := by
  cases use with
  | register => cases h
  | look other => rfl
  | clear => cases h
  | resolve reference =>
    cases reference with
    | direct transform => cases h
    | named reference =>
      simp only [after, resolve, Attempt.start, find?]
      cases Data.fieldOf? reference registry.load.names <;> rfl

theorem find?_resolve (library : Library π ω) (registry : Registry ω) (reference : TransformRef ω)
    (name : String) :
    (((resolve library reference).start registry).2.find? name).1 = (registry.find? name).1 := by
  cases reference with
  | direct transform => rfl
  | named other =>
    have hlooks : (Use.resolve (.named other) : Use ω).looks = true := rfl
    have hafter : ((resolve library (.named other)).start registry).2 = registry.load :=
      after_of_looks hlooks
    rw [hafter, find?, load_load]
    rfl

theorem afterAll_append : afterAll library (uses ++ [use]) = after library (afterAll library uses) use := by
  rw [afterAll, List.foldl_append]
  rfl

/-- A use that neither looks a name up nor clears registers something or nothing. -/
theorem fieldOf?_after (library : Library π ω) (registry : Registry ω) (name : String)
    (hlook : use.looks = false) (hclear : use.clears = false) :
    (after library registry use).loaded = registry.loaded ∧
      Data.fieldOf? name (after library registry use).names
        = (use.registers? name).or (Data.fieldOf? name registry.names) := by
  cases use with
  | register other transform =>
    refine ⟨rfl, ?_⟩
    rw [after, register, Data.fieldOf?_setField, Use.registers?]
    split <;> rfl
  | look other => cases hlook
  | clear => cases hclear
  | resolve reference =>
    cases reference with
    | direct transform => exact ⟨rfl, rfl⟩
    | named reference => cases hlook

theorem holds_afterAll (library : Library π ω) (uses : List (Use ω)) (name : String) :
    (afterAll library uses).loaded = (recent uses).any Use.looks ∧
      Data.fieldOf? name (afterAll library uses).names
        = if (recent uses).any Use.looks then
            ((registered? name (fromLook (recent uses))).or (builtin? name)).or
              (registered? name (recent uses))
          else registered? name (recent uses) := by
  induction uses using List.reverseRecOn with
  | nil => exact ⟨rfl, rfl⟩
  | append_singleton uses use ih =>
    obtain ⟨hloaded, hfield⟩ := ih
    rw [afterAll_append]
    cases hclear : use.clears with
    | true =>
      cases use with
      | clear =>
        rw [recent_append_clear]
        exact ⟨rfl, rfl⟩
      | register | look | resolve => cases hclear
    | false =>
      rw [recent_append hclear, registered?_append, registered?_singleton, List.any_append]
      cases hlook : use.looks with
      | true =>
        have hnothing : use.registers? name = none := by
          cases use with
          | register => cases hlook
          | look | resolve | clear => rfl
        rw [after_of_looks hlook, loaded_load, fieldOf?_load, hloaded, hfield, hnothing]
        cases hearlier : (recent uses).any Use.looks with
        | true =>
          rw [fromLook_append_of_look hearlier, registered?_append, registered?_singleton, hnothing]
          simp
        | false =>
          rw [fromLook_append_of_not_look hearlier, hlook, if_pos rfl, registered?_singleton, hnothing]
          simp [hlook]
      | false =>
        obtain ⟨hsame, hafter⟩ := fieldOf?_after library (afterAll library uses) name hlook hclear
        rw [hsame, hafter, hloaded, hfield]
        cases hearlier : (recent uses).any Use.looks with
        | true =>
          rw [fromLook_append_of_look hearlier, registered?_append, registered?_singleton]
          cases use.registers? name <;> simp
        | false => simp [hlook]

/-- A look-up finds the registration made last since everything was forgotten, and where there is none
the transform at hand; but a transform at hand takes the place of a registration of its name that was
made before the first look-up. -/
theorem find?_afterAll (library : Library π ω) (uses : List (Use ω)) (name : String) :
    ((afterAll library uses).find? name).1
        = ((registered? name (fromLook (recent uses))).or (builtin? name)).or
            (registered? name (recent uses)) ∧
      ((builtin? name : Option (Transform ω)) = none ∨
          (registered? name (fromLook (recent uses))).isSome ∨
          registered? name (recent uses) = none →
        ((afterAll library uses).find? name).1
          = (registered? name (recent uses)).or (builtin? name)) := by
  have hfound : ((afterAll library uses).find? name).1
      = ((registered? name (fromLook (recent uses))).or (builtin? name)).or
          (registered? name (recent uses)) := by
    obtain ⟨hloaded, hfield⟩ := holds_afterAll library uses name
    rw [find?, fieldOf?_load, hloaded, hfield]
    cases hlook : (recent uses).any Use.looks with
    | true => rfl
    | false =>
      rw [fromLook_eq_nil_iff.2 hlook]
      rfl
  refine ⟨hfound, fun h => ?_⟩
  rw [hfound]
  cases hlate : registered? name (fromLook (recent uses)) with
  | some transform => rw [registered?_fromLook hlate, Option.some_or, Option.some_or]
  | none =>
    rw [hlate] at h
    rcases h with hnone | hsome | hnone
    · rw [hnone, Option.none_or, Option.none_or, Option.or_none]
    · cases hsome
    · rw [hnone, Option.none_or, Option.or_none]

/-- A transform that is not at hand. -/
def ownJson : Transform Unit := Transform.ofFunction "own" id

/-- The registration made last is not found where the first look-up comes after it. -/
theorem find?_registered_early :
    ((afterAll ([] : Library Unit Unit) [.register "json" ownJson]).find? "json").1.map Transform.name
        = some "json_module" ∧
      ((registered? "json" (recent [.register "json" ownJson])).or (builtin? "json")).map Transform.name
        = some "own" := by
  decide +kernel

end Bundler.Registry
