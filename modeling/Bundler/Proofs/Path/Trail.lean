import Bundler.Proofs.Path.Destination

/-!
# Load targets as walks

`trail` walks through names from a directory: a name is a step down, `..` takes the last step back, and
there is no way on where nothing is left to take back. A load target means the place at the end of the
trail of its directory and its own text, and it leads out exactly if the trail breaks off
(`ofTarget_eq_trail`), however it goes on after that.
-/

namespace Bundler

namespace Lexical

variable {place : List (List Char)} {name : List Char}

/-! ### Trails -/

/-- One step of a trail from the place reached so far, the last name first. -/
def climb (place : List (List Char)) (name : List Char) : Option (List (List Char)) :=
  if name = [] ∨ name = ['.'] then some place
  else if name = ['.', '.'] then
    match place with
    | [] => none
    | _ :: above => some above
  else some (name :: place)

/-- The names left at the end of a trail, unless it leads above where it began. -/
def trail (names : List (List Char)) : Option (List (List Char)) :=
  (names.foldlM climb []).map List.reverse

theorem climb_eq_walk (hplace : ['.', '.'] ∉ place) :
    climb place name
      = if ['.', '.'] ∈ walk false place name then none else some (walk false place name) := by
  unfold climb walk
  by_cases hblank : name = [] ∨ name = ['.']
  · simp only [hblank, if_true, hplace, if_false]
  · simp only [hblank, if_false]
    by_cases hup : name = ['.', '.']
    · subst hup
      cases place with
      | nil => simp
      | cons last above =>
        rw [List.mem_cons, not_or] at hplace
        simp [Ne.symm hplace.1, hplace.2]
    · simp [hup, hplace, Ne.symm hup]

/-- A trail goes as the walk does, until the walk keeps a step up. -/
theorem foldlM_climb {names : List (List Char)} (hplace : ['.', '.'] ∉ place) :
    names.foldlM climb place
      = if ['.', '.'] ∈ names.foldl (walk false) place then none
        else some (names.foldl (walk false) place) := by
  induction names generalizing place with
  | nil =>
    rw [List.foldl_nil, if_neg hplace]
    rfl
  | cons name rest ih =>
    rw [List.foldlM_cons, climb_eq_walk hplace, List.foldl_cons]
    by_cases hout : ['.', '.'] ∈ walk false place name
    · rw [if_pos hout, if_pos (mem_foldl_walk hout)]
      rfl
    · rw [if_neg hout]
      exact ih hout

theorem trail_eq {text : List Char} (hrelative : text.head? ≠ some '/') :
    trail (Text.pieces '/' text)
      = if ['.', '.'] ∈ normalNames text then none else some (normalNames text) := by
  rw [trail, foldlM_climb (by simp), normalNames, beq_eq_false_iff_ne.2 hrelative]
  simp only [List.mem_reverse]
  split <;> rfl

theorem trail_join {directory text : List Char} (htext : text.head? ≠ some '/') :
    trail (Text.pieces '/' (join directory text))
      = trail (Text.pieces '/' directory ++ Text.pieces '/' text) := by
  rw [trail, trail, foldlM_climb (by simp), foldlM_climb (by simp), foldl_walk_join htext,
    List.foldl_append]

/-! ### The names of a normal form -/

theorem head?_pieces (sep : Char) (text : List Char) :
    (Text.pieces sep text).head? = some (text.takeWhile (· != sep)) := by
  induction text with
  | nil => rfl
  | cons c rest ih =>
    rw [Text.pieces]
    by_cases hc : c = sep
    · simp [hc]
    · rw [if_neg hc, List.takeWhile_cons_of_pos (by simpa using hc)]
      cases hrest : Text.pieces sep rest with
      | nil => exact absurd hrest (Text.pieces_ne_nil sep rest)
      | cons first others =>
        rw [hrest] at ih
        simpa using ih

theorem leadsOut_iff (text : List Char) :
    Identity.leadsOut text = true ↔ (Text.pieces '/' text).head? = some ['.', '.'] := by
  rw [head?_pieces, Option.some_inj, Identity.leadsOut]
  rcases text with _ | ⟨a, _ | ⟨b, _ | ⟨c, rest⟩⟩⟩
  · decide
  · by_cases ha : a = '/' <;> simp [ha]
  · by_cases ha : a = '/'
    · simp [ha]
    · by_cases hb : b = '/' <;> simp [ha, hb]
  · by_cases ha : a = '/'
    · simp [ha]
    · by_cases hb : b = '/'
      · simp [ha, hb]
      · by_cases hc : c = '/'
        · simp [ha, hb, hc, @eq_comm Char '.']
        · simp [ha, hb, hc, @eq_comm Char '/']

/-- The names of a relative normal form are neither blank nor in pieces. -/
theorem solid_normalNames {text : List Char} (hrelative : text.head? ≠ some '/') :
    ∀ n ∈ normalNames text, n ≠ [] ∧ '/' ∉ n := by
  obtain ⟨ups, names, hnames, -, hkept⟩ := normalNames_relative hrelative
  rw [hnames]
  intro n hn
  rcases List.mem_append.1 hn with hn | hn
  · rw [List.eq_of_mem_replicate hn]
    decide
  · exact ⟨(hkept n hn).1, (hkept n hn).2.2⟩

theorem normalise_names {text : List Char} (hrelative : text.head? ≠ some '/') :
    normalise text
      = if normalNames text = [] then ['.'] else Text.glue '/' (normalNames text) := by
  rw [normalise_relative hrelative]
  cases hnames : normalNames text with
  | nil => rfl
  | cons name rest =>
    have hname := (solid_normalNames hrelative name (hnames ▸ List.mem_cons_self)).1
    have hglue : Text.glue '/' (name :: rest) ≠ [] := by
      cases rest <;> simp [Text.glue, hname]
    rw [if_neg hglue, if_neg (List.cons_ne_nil name rest)]

theorem pieces_normalise {text : List Char} (hrelative : text.head? ≠ some '/') :
    Text.pieces '/' (normalise text)
      = if normalNames text = [] then [['.']] else normalNames text := by
  rw [normalise_names hrelative]
  split
  · decide
  · next hne => exact Text.pieces_glue hne fun n hn => (solid_normalNames hrelative n hn).2

/-- A relative normal form leads out if and only if one of its names is a step up. -/
theorem leadsOut_normalise {text : List Char} (hrelative : text.head? ≠ some '/') :
    Identity.leadsOut (normalise text) = true ↔ ['.', '.'] ∈ normalNames text := by
  obtain ⟨ups, names, hnames, hnot, -⟩ := normalNames_relative hrelative
  rw [leadsOut_iff, pieces_normalise hrelative]
  split
  · next hnil => simp [hnil]
  · rw [hnames]
    cases ups with
    | zero =>
      simp only [List.replicate_zero, List.nil_append, hnot, iff_false]
      exact fun hhead => hnot (List.mem_of_mem_head? hhead)
    | succ ups => simp [List.replicate_succ]

/-! ### Extensions -/

/-- A text cut in front of the extension of its last name. The last dot starts it, unless nothing but
dots stands before it in the name; a text without an extension is not cut. -/
def splitExtension (text : List Char) : List Char × List Char :=
  let ending := (text.reverse.takeWhile fun c => c != '.' && c != '/').reverse
  match text.reverse.dropWhile fun c => c != '.' && c != '/' with
  | '.' :: before =>
    if (before.takeWhile (· != '/')).any (· != '.') then (before.reverse, '.' :: ending)
    else (text, [])
  | _ => (text, [])

theorem lastName_append {name : List Char} (hname : '/' ∉ name) (before : List Char) :
    lastName name = name ∧ lastName (before ++ '/' :: name) = name := by
  have hpieces : Text.pieces '/' name = [name] :=
    Text.pieces_glue (List.cons_ne_nil name []) (List.forall_mem_singleton.2 hname)
  refine ⟨by rw [lastName, hpieces]; rfl, ?_⟩
  rw [lastName, Text.pieces_append_cons, hpieces, List.getLastD_concat]

theorem eq_slash_of_dropWhile {c : Char} {text before : List Char}
    (h : text.dropWhile (· != '/') = c :: before) : c = '/' := by
  have hhead := List.head?_dropWhile_not (· != '/') text
  rw [h] at hhead
  simpa using hhead

theorem lastName_eq (text : List Char) :
    lastName text = (text.reverse.takeWhile (· != '/')).reverse := by
  have hcut : text.reverse.takeWhile (· != '/') ++ text.reverse.dropWhile (· != '/') = text.reverse :=
    List.takeWhile_append_dropWhile
  have hname : '/' ∉ (text.reverse.takeWhile (· != '/')).reverse := by
    intro hmem
    simpa using List.mem_takeWhile_imp (List.mem_reverse.1 hmem)
  generalize text.reverse.takeWhile (· != '/') = name at hcut hname ⊢
  cases hrest : text.reverse.dropWhile (· != '/') with
  | nil =>
    rw [hrest, List.append_nil] at hcut
    rw [← List.reverse_reverse text, ← hcut]
    exact (lastName_append hname []).1
  | cons c before =>
    obtain rfl := eq_slash_of_dropWhile hrest
    rw [hrest] at hcut
    rw [← List.reverse_reverse text, ← hcut, List.reverse_append, List.reverse_cons, List.append_assoc,
      List.singleton_append]
    exact (lastName_append hname before.reverse).2

/-- Beside the last dot only a character that is no dot makes an extension. -/
theorem mem_dropWhile_dots {before ending : List Char} (hending : '.' ∉ ending) :
    '.' ∈ (before ++ '.' :: ending).dropWhile (· == '.') ↔ ∃ c ∈ before, c ≠ '.' := by
  rw [List.dropWhile_append]
  split
  · next hdots =>
    rw [List.isEmpty_iff, List.dropWhile_eq_nil_iff] at hdots
    have hnone : '.' ∉ ending.dropWhile (· == '.') :=
      fun hmem => hending ((List.dropWhile_sublist _).subset hmem)
    simp only [List.dropWhile_cons_of_pos, beq_self_eq_true, hnone, false_iff, not_exists, not_and,
      not_not]
    exact fun c hc => beq_iff_eq.1 (hdots c hc)
  · next hdots =>
    rw [List.isEmpty_iff, List.dropWhile_eq_nil_iff] at hdots
    simp only [List.mem_append, List.mem_cons, true_or, or_true, true_iff]
    simpa using hdots

theorem hasExtension_iff (text : List Char) :
    hasExtension text = true ↔ (splitExtension text).2 ≠ [] := by
  have hcut : text.reverse.takeWhile (fun c => c != '.' && c != '/')
      ++ text.reverse.dropWhile (fun c => c != '.' && c != '/') = text.reverse :=
    List.takeWhile_append_dropWhile
  have hplain : ∀ c ∈ text.reverse.takeWhile (fun c => c != '.' && c != '/'), c ≠ '.' ∧ c ≠ '/' := by
    intro c hc
    simpa using List.mem_takeWhile_imp hc
  rw [hasExtension, List.contains_iff_mem, lastName_eq, splitExtension]
  generalize text.reverse.takeWhile (fun c => c != '.' && c != '/') = ending at hcut hplain
  have hending : '.' ∉ ending.reverse := fun hmem => (hplain '.' (List.mem_reverse.1 hmem)).1 rfl
  have hpass : ∀ c ∈ ending, (c != '/') = true := fun c hc => by simpa using (hplain c hc).2
  cases hrest : text.reverse.dropWhile fun c => c != '.' && c != '/' with
  | nil =>
    rw [hrest, List.append_nil] at hcut
    rw [← hcut, List.takeWhile_eq_self_iff.2 hpass]
    exact iff_of_false (fun hmem => hending ((List.dropWhile_sublist _).subset hmem)) (not_not.2 rfl)
  | cons c before =>
    rw [hrest] at hcut
    have hhead := List.head?_dropWhile_not (fun c => c != '.' && c != '/') text.reverse
    rw [hrest] at hhead
    rw [← hcut, List.takeWhile_append_of_pos hpass]
    by_cases hdot : c = '.'
    · -- the last dot stands in the last name
      subst hdot
      rw [List.takeWhile_cons_of_pos (by decide), List.reverse_append, List.reverse_cons,
        List.append_assoc, List.singleton_append, mem_dropWhile_dots hending]
      have hany : (before.takeWhile (· != '/')).any (· != '.') = true
          ↔ ∃ c ∈ (before.takeWhile (· != '/')).reverse, c ≠ '.' := by simp
      rw [← hany]
      by_cases hname : (before.takeWhile (· != '/')).any (· != '.') = true
      · simp [hname]
      · simp [Bool.eq_false_iff.2 hname]
    · obtain rfl : c = '/' := by simpa [hdot] using hhead
      rw [List.takeWhile_cons_of_neg (by decide), List.append_nil]
      exact iff_of_false (fun hmem => hending ((List.dropWhile_sublist _).subset hmem)) (not_not.2 rfl)

end Lexical

namespace Identity

open Lexical

theorem complete_eq (extension : String) (target : List Char) :
    complete extension target
      = if (splitExtension target).2 = [] then target ++ extension.toList else target := by
  rw [complete]
  by_cases hextension : hasExtension target = true
  · rw [if_pos hextension, if_neg ((hasExtension_iff target).1 hextension)]
  · rw [if_neg hextension, if_pos (not_not.1 fun h => hextension ((hasExtension_iff target).2 h))]

/-- A load target names the place at the end of the trail of its directory and itself. -/
theorem ofTarget_eq_trail {directory : String} (hdirectory : directory.toList.head? ≠ some '/')
    (extension target : String) :
    ofTarget extension directory target
        = (if target.toList = [] then .error .empty
          else if target.toList.head? = some '/' ∨ '\\' ∈ target.toList then .error (.notRelative target)
          else
            let full := if (splitExtension target.toList).2 = [] then target ++ extension else target
            match trail (Text.pieces '/' directory.toList ++ Text.pieces '/' full.toList) with
            | none => .error (.escapes full directory)
            | some [] => .ok "./."
            | some names => .ok ("./" ++ String.ofList (Text.glue '/' names)))
      ∧ ∀ identity, ofTarget extension directory target = .ok identity →
          ∃ below, identity = "./" ++ String.ofList below
            ∧ ∀ name ∈ Text.pieces '/' below, name ≠ [] ∧ name ≠ ['.', '.'] := by
  rw [ofTarget]
  simp only
  by_cases hempty : target.toList = []
  · simp [hempty]
  by_cases habsolute : target.toList.head? = some '/' ∨ '\\' ∈ target.toList
  · simp [hempty, habsolute]
  have hcomplete : complete extension target.toList
      = (if (splitExtension target.toList).2 = [] then target ++ extension else target).toList := by
    rw [complete_eq]
    split <;> simp
  rw [not_or] at habsolute
  have hfull : (complete extension target.toList).head? ≠ some '/' := head?_complete hempty habsolute.1
  rw [if_neg hempty, if_neg hempty, if_neg (not_or.2 habsolute), if_neg (not_or.2 habsolute), hcomplete]
  rw [hcomplete] at hfull
  generalize (if (splitExtension target.toList).2 = [] then target ++ extension else target) = full at hfull
  have hjoin : (join directory.toList full.toList).head? ≠ some '/' := by
    by_cases hnone : directory.toList = []
    · rw [hnone, join, if_neg hfull, if_pos (Or.inl rfl)]
      exact hfull
    · exact join_relative hdirectory hfull hnone
  rw [← trail_join hfull, trail_eq hjoin, String.ofList_toList]
  have hout := leadsOut_normalise hjoin
  by_cases hup : ['.', '.'] ∈ normalNames (join directory.toList full.toList)
  · simp [hup, hout.2 hup]
  · have hinside : leadsOut (normalise (join directory.toList full.toList)) = false :=
      Bool.eq_false_iff.2 fun h => hup (hout.1 h)
    have hpieces := pieces_normalise hjoin
    have hsolid := solid_normalNames hjoin
    rw [hinside, if_neg Bool.false_ne_true, if_neg hup]
    refine ⟨?_, ?_⟩
    · rw [normalise_names hjoin]
      cases normalNames (join directory.toList full.toList) with
      | nil => exact congrArg Except.ok (by decide : "./" ++ String.ofList ['.'] = "./.")
      | cons name rest => rfl
    · rintro identity hidentity
      cases hidentity
      refine ⟨_, rfl, ?_⟩
      rw [hpieces]
      split
      · decide
      · exact fun name hname => ⟨(hsolid name hname).1, fun h => hup (h ▸ hname)⟩

/-- A step up that is taken back later leads out all the same. -/
theorem ofTarget_eq_trail_detour :
    "./a".toList.head? ≠ some '/'
      ∧ Lexical.trail [['.'], ['a'], ['.', '.'], ['.', '.'], ['p'], ['x', '.', 'p', 'y']] = none
      ∧ ofTarget ".py" "./a" "../../p/x" = .error (.escapes "../../p/x.py" "./a") := by
  refine ⟨by decide, by decide, ?_⟩
  have hdirectory : "./a".toList.head? ≠ some '/' := by decide
  exact (ofTarget_eq_trail hdirectory ".py" "../../p/x").1.trans (by decide +kernel)

end Identity
end Bundler
