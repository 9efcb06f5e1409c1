import Bundler.Proofs.Path.Trail

/-!
# Spellings of a file

One file can be spelled in many ways. Doubled slashes and `.` make no difference to its identity, but a
step upwards is kept as it stands: the identity of a path is read off the steps that the path spells, and
it is the identity of the normal form if no step leads upwards, and otherwise only where both the path and
its normal form have none (`ofPath?_eq_ofNormal?_iff`).
-/

namespace Bundler

namespace Lexical

variable {place : List (List Char)} {name text directory : List Char}

/-! ### Steps -/

def isStep (name : List Char) : Bool := name != [] && name != ['.']

def steps (text : List Char) : List (List Char) := (Text.pieces '/' text).filter isStep

theorem isStep_up : isStep ['.', '.'] = true := by decide

theorem up_mem_steps : ['.', '.'] ∈ steps text ↔ ['.', '.'] ∈ Text.pieces '/' text := by
  simp [steps, isStep_up]

theorem slash_notMem_of_mem_steps (h : name ∈ steps text) : '/' ∉ name :=
  Text.notMem_of_mem_pieces name (List.mem_of_mem_filter h)

/-- A walk without steps upwards goes on to everything that means a step. -/
theorem foldl_walk_steps {rooted : Bool} {names : List (List Char)} (hdown : ['.', '.'] ∉ names) :
    names.foldl (walk rooted) place = (names.filter isStep).reverse ++ place := by
  induction names generalizing place with
  | nil => rfl
  | cons name rest ih =>
    rw [List.mem_cons, not_or] at hdown
    rw [List.foldl_cons, ih hdown.2]
    unfold walk
    by_cases hblank : name = [] ∨ name = ['.']
    · rw [if_pos hblank, List.filter_cons_of_neg (by simpa [isStep] using or_iff_not_imp_left.1 hblank)]
    · rw [if_neg hblank, if_pos (Ne.symm hdown.1),
        List.filter_cons_of_pos (by simpa [isStep] using hblank)]
      simp

theorem normalNames_of_down (hdown : ['.', '.'] ∉ Text.pieces '/' text) : normalNames text = steps text := by
  rw [normalNames, foldl_walk_steps hdown, List.append_nil, List.reverse_reverse, steps]

/-! ### Absolute normal forms -/

theorem up_notMem_walk (h : ['.', '.'] ∉ place) : ['.', '.'] ∉ walk true place name := by
  unfold walk
  split
  · exact h
  split
  · next hname => simp [h, Ne.symm hname]
  cases place with
  | nil => simp
  | cons last above =>
    rw [List.mem_cons, not_or] at h
    simp [Ne.symm h.1, h.2]

theorem mem_walk_rooted {last : List Char} (h : last ∈ walk true place name) :
    last ∈ place ∨ last = name ∧ isStep name = true := by
  unfold walk at h
  split at h
  · exact .inl h
  next hblank =>
  have hstep : isStep name = true := by simpa [isStep] using hblank
  split at h
  · exact (List.mem_cons.1 h).symm.imp_right fun heq => ⟨heq, hstep⟩
  cases place with
  | nil => cases h
  | cons first above =>
    simp only at h
    split at h
    · exact (List.mem_cons.1 h).symm.imp_right fun heq => ⟨heq, hstep⟩
    · exact .inl (List.mem_cons_of_mem _ h)

/-- The names of an absolute normal form are steps of the text, none of which leads upwards. -/
theorem normalNames_absolute (habsolute : text.head? = some '/') :
    ['.', '.'] ∉ normalNames text ∧ ∀ name ∈ normalNames text, name ∈ steps text := by
  suffices h : ∀ (names : List (List Char)) (place : List (List Char)),
      names ⊆ Text.pieces '/' text → ['.', '.'] ∉ place → (∀ name ∈ place, name ∈ steps text) →
      ['.', '.'] ∉ names.foldl (walk true) place ∧
        ∀ name ∈ names.foldl (walk true) place, name ∈ steps text by
    simpa [normalNames, habsolute] using
      h (Text.pieces '/' text) [] (List.Subset.refl _) (by simp) (by simp)
  intro names
  induction names with
  | nil => exact fun place _ hplace hsteps => ⟨hplace, hsteps⟩
  | cons name rest ih =>
    intro place hnames hplace hsteps
    rw [List.cons_subset] at hnames
    refine ih _ hnames.2 (up_notMem_walk hplace) fun last hlast => ?_
    rcases mem_walk_rooted hlast with hlast | ⟨rfl, hstep⟩
    · exact hsteps last hlast
    · exact List.mem_filter.2 ⟨hnames.1, hstep⟩

/-- What is left of the normal form of a text below that of a directory, if it lies in it. -/
def normalBelow? (directory text : List Char) : Option (List (List Char)) :=
  if leadingSlashes directory = leadingSlashes text ∧ normalNames directory <+: normalNames text then
    some ((normalNames text).drop (normalNames directory).length)
  else none

end Lexical

namespace FilePath

open Lexical

theorem anchor_ofText_eq_iff {text other : List Char} :
    Anchor.ofText text = Anchor.ofText other ↔ leadingSlashes text = leadingSlashes other := by
  have hwritten : ∀ text, (Anchor.ofText text).text.toList = leadingSlashes text := by
    intro text
    unfold Anchor.ofText leadingSlashes
    split <;> simp_all [Anchor.text]
  rw [← hwritten, ← hwritten]
  cases Anchor.ofText text <;> cases Anchor.ofText other <;> decide

/-- The components of a text are the steps that it spells. -/
theorem map_partsOf (text : List Char) : (partsOf text).map (·.text.toList) = steps text := by
  have hpieces : ∀ name ∈ Text.pieces '/' text, '/' ∉ name := Text.notMem_of_mem_pieces
  rw [partsOf, steps]
  generalize Text.pieces '/' text = names at hpieces
  induction names with
  | nil => rfl
  | cons name rest ih =>
    rw [List.forall_mem_cons] at hpieces
    have hcomponent : Bundler.isComponent (String.ofList name) = isStep name := by
      have hempty : (String.ofList name = "") = (name = []) := by simp
      have hdot : (String.ofList name = ".") = (name = ['.']) := by
        rw [String.ext_iff, String.toList_ofList]
        rfl
      simp [Bundler.isComponent, isStep, hpieces.1, bne, beq_eq_decide, hempty, hdot]
    by_cases hstep : isStep name = true
    · have hread : Component.ofText? name = some ⟨String.ofList name, hcomponent.trans hstep⟩ :=
        dif_pos (hcomponent.trans hstep)
      rw [List.filterMap_cons_some hread, List.filter_cons_of_pos hstep, List.map_cons, ih hpieces.2,
        String.toList_ofList]
    · have hread : Component.ofText? name = none := dif_neg (hcomponent ▸ hstep)
      rw [List.filterMap_cons_none hread, List.filter_cons_of_neg hstep, ih hpieces.2]

end FilePath

namespace Identity

open Lexical

variable {root path : String}

def ofNames (names : List (List Char)) : Identity :=
  "./" ++ if names = [] then "." else String.ofList (Text.glue '/' names)

/-- The identity of the normal form of a path: what is left of it below the normal form of the root. -/
def ofNormal? (root path : String) : Option Identity :=
  (normalBelow? root.toList path.toList).map ofNames

theorem ofParts_eq_ofNames (parts : List Component) :
    ofParts parts = ofNames (parts.map (·.text.toList)) := by
  by_cases hnone : parts = []
  · subst hnone
    decide
  · rw [ofParts, ofNames, if_neg (by simpa using hnone), ← FilePath.toList_toString_relative parts hnone,
      String.ofList_toList]

/-- The pieces of an identity are its names behind the `.` it starts with. -/
theorem up_mem_ofNames {names : List (List Char)} (hslash : ∀ name ∈ names, '/' ∉ name) :
    ['.', '.'] ∈ Text.pieces '/' (ofNames names).toList ↔ ['.', '.'] ∈ names := by
  have hcut : (ofNames names).toList
      = ['.'] ++ '/' :: (if names = [] then "." else String.ofList (Text.glue '/' names)).toList := by
    rw [ofNames, String.toList_append]
    rfl
  rw [hcut, Text.pieces_append_cons]
  by_cases hnone : names = []
  · subst hnone
    decide
  · rw [if_neg hnone, String.toList_ofList, Text.pieces_glue hnone hslash]
    simp [Text.pieces]

theorem ofPath?_ofString (root path : String) :
    ofPath? (.ofString root) (.ofString path)
      = if leadingSlashes root.toList = leadingSlashes path.toList
          ∧ steps root.toList <+: steps path.toList then
          some (ofNames ((steps path.toList).drop (steps root.toList).length))
        else none := by
  have hinjective : Function.Injective fun c : Component => c.text.toList := by
    intro left right htext
    cases left
    cases right
    simpa using String.ext htext
  have hbelow : (FilePath.ofString root).parts <+: (FilePath.ofString path).parts
      ↔ steps root.toList <+: steps path.toList := by
    rw [← FilePath.map_partsOf, ← FilePath.map_partsOf, List.prefix_map_iff_of_injective hinjective]
    rfl
  have hanchor : (FilePath.ofString path).anchor = (FilePath.ofString root).anchor
      ↔ leadingSlashes root.toList = leadingSlashes path.toList :=
    FilePath.anchor_ofText_eq_iff.trans eq_comm
  rw [ofPath?, FilePath.relativeTo?]
  simp only [hbelow, hanchor]
  split
  · rw [Option.map_some, ← ofParts, ofParts_eq_ofNames, List.map_drop, ← FilePath.map_partsOf,
      ← FilePath.map_partsOf, List.length_map]
    rfl
  · rfl

/-- An identity has a step upwards exactly if its path spells one below the root. -/
theorem up_mem_of_ofPath? (hroot : ['.', '.'] ∉ Text.pieces '/' root.toList) {identity : Identity}
    (h : ofPath? (.ofString root) (.ofString path) = some identity) :
    ['.', '.'] ∈ Text.pieces '/' identity.toList ↔ ['.', '.'] ∈ Text.pieces '/' path.toList := by
  rw [ofPath?_ofString] at h
  split at h
  · next hinside =>
    cases h
    obtain ⟨rest, hrest⟩ := hinside.2
    have hslash : ∀ name ∈ rest, '/' ∉ name := by
      intro name hname
      have hstep : name ∈ steps path.toList := hrest ▸ List.mem_append_right _ hname
      exact slash_notMem_of_mem_steps hstep
    have hup : ['.', '.'] ∈ steps path.toList ↔ ['.', '.'] ∈ rest := by
      rw [← hrest, List.mem_append, up_mem_steps, or_iff_right hroot]
    rw [← hrest, List.drop_left, up_mem_ofNames hslash, ← hup, up_mem_steps]
  · cases h

theorem up_notMem_of_ofNormal? (hpath : path.toList.head? = some '/') {identity : Identity}
    (h : ofNormal? root path = some identity) : ['.', '.'] ∉ Text.pieces '/' identity.toList := by
  obtain ⟨names, hbelow, rfl⟩ := Option.map_eq_some_iff.1 h
  obtain ⟨hup, hsteps⟩ := normalNames_absolute hpath
  unfold normalBelow? at hbelow
  split at hbelow
  · cases hbelow
    have hmem : ∀ name ∈ (normalNames path.toList).drop (normalNames root.toList).length,
        name ∈ normalNames path.toList := fun name => List.mem_of_mem_drop
    rw [up_mem_ofNames fun name hname => slash_notMem_of_mem_steps (hsteps name (hmem name hname))]
    exact fun hname => hup (hmem _ hname)
  · cases hbelow

/-- The identity of a path is the one of its normal form if no step of the path leads upwards; it differs
where one does, unless neither the path nor its normal form lies below the root. The steps upwards of a
path stand in its identity, and none is left in a normal form. -/
theorem ofPath?_eq_ofNormal?_iff (hdown : ['.', '.'] ∉ Text.pieces '/' root.toList)
    (hpath : path.toList.head? = some '/') :
    (ofPath? (.ofString root) (.ofString path) = ofNormal? root path ↔
        ['.', '.'] ∉ Text.pieces '/' path.toList ∨
          ofPath? (.ofString root) (.ofString path) = none ∧ ofNormal? root path = none) ∧
      (∀ identity, ofPath? (.ofString root) (.ofString path) = some identity →
        (['.', '.'] ∈ Text.pieces '/' identity.toList ↔ ['.', '.'] ∈ Text.pieces '/' path.toList)) ∧
      ∀ identity, ofNormal? root path = some identity →
        ['.', '.'] ∉ Text.pieces '/' identity.toList := by
  refine ⟨⟨fun hsame => ?_, ?_⟩, fun identity => up_mem_of_ofPath? hdown,
    fun identity => up_notMem_of_ofNormal? hpath⟩
  · by_contra hnot
    rw [not_or, not_not] at hnot
    obtain ⟨hup, hsome⟩ := hnot
    cases hidentity : ofNormal? root path with
    | none => exact hsome ⟨hsame.trans hidentity, hidentity⟩
    | some identity =>
      exact up_notMem_of_ofNormal? hpath hidentity
        ((up_mem_of_ofPath? hdown (hsame.trans hidentity)).2 hup)
  · rintro (hup | ⟨hnone, hnormal⟩)
    · rw [ofPath?_ofString, ofNormal?, normalBelow?, normalNames_of_down hdown, normalNames_of_down hup]
      split <;> rfl
    · rw [hnone, hnormal]

theorem ofPath?_eq_ofNormal?_slashes :
    ofPath? (.ofString "/proj/") (.ofString "/proj//./lib/util.py") = some "./lib/util.py" ∧
      ofNormal? "/proj/" "/proj//./lib/util.py" = some "./lib/util.py" := by
  have hdown : ['.', '.'] ∉ Text.pieces '/' "/proj/".toList := by decide
  have hpath : "/proj//./lib/util.py".toList.head? = some '/' := by decide
  have hsame := (ofPath?_eq_ofNormal?_iff hdown hpath).1.2 (.inl (by decide))
  have hidentity : ofPath? (.ofString "/proj/") (.ofString "/proj//./lib/util.py")
      = some "./lib/util.py" := by decide
  exact ⟨hidentity, hsame.symm.trans hidentity⟩

/-- A path that leaves the root by a step upwards has an identity all the same, one file has two
identities, and a path that leads into the root by a step upwards has none. -/
theorem ofPath?_ne_ofNormal?_upwards :
    (ofPath? (.ofString "/proj") (.ofString "/proj/../x.py") = some "./../x.py" ∧
        ofNormal? "/proj" "/proj/../x.py" = none) ∧
      (ofPath? (.ofString "/proj") (.ofString "/proj/a/../b.py") = some "./a/../b.py" ∧
        ofNormal? "/proj" "/proj/a/../b.py" = some "./b.py") ∧
      ofPath? (.ofString "/proj") (.ofString "/lib/../proj/b.py") = none ∧
        ofNormal? "/proj" "/lib/../proj/b.py" = some "./b.py" := by
  decide

end Identity
end Bundler
