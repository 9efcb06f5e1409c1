import Bundler.Proofs.Path.Spelling

/-!
# Identities as load targets

The identity that a load target means can be a load target itself, read in the root directory. Only the
last name of a target decides whether the default extension is put behind it (`complete_append`), and it
stays the last name of the identity, so that the identity means itself again where the name has its
extension. A last name of dots alone, or none at all, has no extension even with the default one behind
it: such an identity gets the extension once more, and then keeps it (`ofTarget_again`).
-/

namespace Bundler

namespace Lexical

variable {text name : List Char}

theorem normalNames_subset (text : List Char) : normalNames text ⊆ Text.pieces '/' text := by
  suffices h : ∀ (rooted : Bool) (texts place : List (List Char)),
      texts.foldl (walk rooted) place ⊆ texts ++ place by
    intro last hlast
    simpa using h _ _ _ (List.mem_reverse.1 hlast)
  intro rooted texts
  induction texts with
  | nil => exact fun place => List.Subset.refl place
  | cons name rest ih =>
    intro place
    have hstep : walk rooted place name ⊆ name :: place := by
      unfold walk
      split
      · exact List.subset_cons_self name place
      split
      · exact List.Subset.refl _
      cases place with
      | nil =>
        simp only
        split <;> simp
      | cons last above =>
        simp only
        split
        · exact List.Subset.refl _
        · exact fun other hother => .tail _ (.tail _ hother)
    intro last hlast
    rcases List.mem_append.1 (ih _ hlast) with hrest | hplace
    · exact List.mem_append_left _ (.tail _ hrest)
    · rcases List.mem_cons.1 (hstep hplace) with rfl | hplace
      · exact List.mem_append_left _ List.mem_cons_self
      · exact List.mem_append_right _ hplace

/-- The names of a relative normal form without a step upwards are components. -/
theorem kept_normalNames (hrelative : text.head? ≠ some '/') (hdown : ['.', '.'] ∉ normalNames text) :
    ∀ n ∈ normalNames text, Kept n := by
  obtain ⟨ups, names, hnames, -, hkept⟩ := normalNames_relative hrelative
  cases ups with
  | zero => simpa [hnames] using hkept
  | succ ups => exact absurd (by simp [hnames, List.replicate_succ]) hdown

theorem notMem_of_mem_normalNames {c : Char} (htext : c ∉ text) (hname : name ∈ normalNames text) :
    c ∉ name :=
  fun hc => htext (Text.subset_of_mem_pieces (normalNames_subset text hname) hc)

theorem join_relative_of {directory text : List Char} (hdirectory : directory.head? ≠ some '/')
    (htext : text.head? ≠ some '/') : (join directory text).head? ≠ some '/' := by
  by_cases hnone : directory = []
  · rw [hnone, join, if_neg htext, if_pos (Or.inl rfl)]
    exact htext
  · exact join_relative hdirectory htext hnone

theorem notMem_join {c : Char} {directory text : List Char} (hc : c ≠ '/') (hdirectory : c ∉ directory)
    (htext : c ∉ text) : c ∉ join directory text := by
  rw [join]
  split
  · exact htext
  split
  · simp [hdirectory, htext]
  · simp [hdirectory, htext, hc]

/-- The pieces of a text but for the last one do not depend on the last name. -/
theorem exists_front (text : List Char) :
    ∃ front names, text = front ++ lastName text ∧ '/' ∉ lastName text ∧
      ∀ name, '/' ∉ name → Text.pieces '/' (front ++ name) = names ++ [name] := by
  have hlast : '/' ∉ lastName text := by
    rw [lastName_eq, List.mem_reverse]
    intro hmem
    simpa using List.mem_takeWhile_imp hmem
  have hcut : (text.reverse.dropWhile (· != '/')).reverse ++ lastName text = text := by
    rw [lastName_eq, ← List.reverse_append, List.takeWhile_append_dropWhile, List.reverse_reverse]
  refine ⟨(text.reverse.dropWhile (· != '/')).reverse, ?_⟩
  cases hfront : text.reverse.dropWhile (· != '/') with
  | nil => exact ⟨[], by rw [← hfront, hcut], hlast, fun name hname => Text.pieces_of_notMem hname⟩
  | cons c before =>
    obtain rfl := eq_slash_of_dropWhile hfront
    refine ⟨Text.pieces '/' before.reverse, by rw [← hfront, hcut], hlast, fun name hname => ?_⟩
    rw [List.reverse_cons, List.append_assoc, List.singleton_append, Text.pieces_append_cons,
      Text.pieces_of_notMem hname]

theorem hasExtension_of_pieces {names : List (List Char)} (h : Text.pieces '/' text = names ++ [name]) :
    hasExtension text = (name.dropWhile (· == '.')).contains '.' := by
  rw [hasExtension, lastName, h, List.getLastD_concat]

theorem hasExtension_of_notMem (h : '/' ∉ name) :
    hasExtension name = (name.dropWhile (· == '.')).contains '.' := by
  have hpieces : Text.pieces '/' name = [] ++ [name] := Text.pieces_of_notMem h
  exact hasExtension_of_pieces hpieces

/-- A name of dots alone has no extension. -/
theorem exists_ne_of_hasExtension (hname : '/' ∉ name) (h : hasExtension name = true) :
    ∃ c ∈ name, c ≠ '.' := by
  rw [hasExtension_of_notMem hname] at h
  by_contra hdots
  have hnone : name.dropWhile (· == '.') = [] := by
    rw [List.dropWhile_eq_nil_iff]
    intro c hc
    by_contra hne
    exact hdots ⟨c, hc, by simpa using hne⟩
  simp [hnone] at h

end Lexical

namespace Identity

open Lexical

variable {name : List Char} {names : List (List Char)}

theorem complete_append {front : List Char} (extension : String)
    (hpieces : ∀ name, '/' ∉ name → Text.pieces '/' (front ++ name) = names ++ [name])
    (hname : '/' ∉ name) : complete extension (front ++ name) = front ++ complete extension name := by
  rw [complete, complete, hasExtension_of_pieces (hpieces name hname),
    hasExtension_of_notMem hname]
  split
  · rfl
  · rw [List.append_assoc]

theorem slash_notMem_complete (hname : '/' ∉ name) : '/' ∉ complete ".py" name := by
  rw [complete]
  split
  · exact hname
  · simp [hname]

/-- The default extension makes an extension behind a name exactly if the name has more than dots. -/
theorem hasExtension_complete (hname : '/' ∉ name) :
    hasExtension (complete ".py" name) = true ↔ ∃ c ∈ name, c ≠ '.' := by
  rw [complete]
  by_cases hextension : hasExtension name = true
  · rw [if_pos hextension]
    exact iff_of_true hextension (exists_ne_of_hasExtension hname hextension)
  · have hslash : '/' ∉ name ++ ".py".toList := by simp [hname]
    rw [if_neg hextension, hasExtension_of_notMem hslash, List.contains_iff_mem]
    exact mem_dropWhile_dots (by decide)

/-- A name with its extension has more than dots. -/
theorem exists_ne_complete (hname : '/' ∉ name) : ∃ c ∈ complete ".py" name, c ≠ '.' := by
  rw [complete]
  split
  · next hextension => exact exists_ne_of_hasExtension hname hextension
  · exact ⟨'p', by simp, by decide⟩

/-- A name with its extension is a component that does not lead upwards. -/
theorem kept_complete (hname : '/' ∉ name) :
    Kept (complete ".py" name) ∧ complete ".py" name ≠ ['.', '.'] := by
  obtain ⟨c, hc, hne⟩ := exists_ne_complete hname
  refine ⟨⟨List.ne_nil_of_mem hc, fun hdot => ?_, slash_notMem_complete hname⟩, fun hup => ?_⟩
  · rw [hdot, List.mem_singleton] at hc
    exact hne hc
  · rw [hup] at hc
    simp [hne] at hc

/-! ### Reading an identity -/

theorem ofNames_normalNames {text : List Char} (hrelative : text.head? ≠ some '/') :
    ofNames (normalNames text) = "./" ++ String.ofList (normalise text) := by
  rw [normalise_names hrelative, ofNames]
  split <;> rfl

theorem ofTarget_eq_ok_iff {extension directory target : String} {identity : Identity}
    (hdirectory : directory.toList.head? ≠ some '/') :
    ofTarget extension directory target = .ok identity
      ↔ (target.toList ≠ [] ∧ target.toList.head? ≠ some '/' ∧ '\\' ∉ target.toList) ∧
        ['.', '.'] ∉ normalNames (join directory.toList (complete extension target.toList)) ∧
        ofNames (normalNames (join directory.toList (complete extension target.toList))) = identity := by
  rw [ofTarget]
  simp only
  by_cases hempty : target.toList = []
  · simp [hempty]
  by_cases habsolute : target.toList.head? = some '/' ∨ '\\' ∈ target.toList
  · rw [if_neg hempty, if_pos habsolute]
    exact iff_of_false (by simp) fun h => habsolute.elim h.1.2.1 h.1.2.2
  rw [if_neg hempty, if_neg habsolute]
  rw [not_or] at habsolute
  have hfull : (complete extension target.toList).head? ≠ some '/' := head?_complete hempty habsolute.1
  have hjoin := join_relative_of hdirectory hfull
  rw [← leadsOut_normalise hjoin, ofNames_normalNames hjoin]
  by_cases hleads : leadsOut (normalise (join directory.toList (complete extension target.toList))) = true
  · simp [hleads]
  · rw [if_neg hleads, Except.ok.injEq]
    exact ⟨fun h => ⟨⟨hempty, habsolute⟩, hleads, h⟩, fun h => h.2.2⟩

theorem complete_of_hasExtension {extension : String} {text : List Char} (h : hasExtension text = true) :
    complete extension text = text := if_pos h

theorem complete_of_bare (extension : String) {text : List Char} (h : hasExtension text = false) :
    complete extension text = text ++ extension.toList := if_neg (Bool.eq_false_iff.1 h)

/-- The last name of what a target means is the one of the target with its extension. -/
theorem normalNames_complete (directory : List Char) {target : List Char}
    (htarget : (complete ".py" target).head? ≠ some '/') :
    ∃ names, normalNames (join directory (complete ".py" target))
      = names ++ [complete ".py" (lastName target)] := by
  obtain ⟨front, names, hfront, hname, hpieces⟩ := exists_front target
  obtain ⟨⟨hne, hdot, hslash⟩, hup⟩ := kept_complete hname
  have hcomplete : complete ".py" target = front ++ complete ".py" (lastName target) := by
    conv_lhs => rw [hfront]
    exact complete_append ".py" hpieces hname
  rw [normalNames, foldl_walk_join htarget, hcomplete, hpieces _ hslash, List.foldl_append,
    List.foldl_cons, List.foldl_nil]
  generalize List.foldl (walk _) _ names = place
  refine ⟨place.reverse, ?_⟩
  unfold walk
  rw [if_neg (not_or.2 ⟨hne, hdot⟩), if_pos hup, List.reverse_cons]

theorem toList_ofNames (hne : names ≠ []) :
    (ofNames names).toList = Text.glue '/' (['.'] :: names) := by
  obtain ⟨first, rest, rfl⟩ := List.exists_cons_of_ne_nil hne
  rw [ofNames, if_neg hne, String.toList_append, String.toList_ofList, String.toList_ofList]
  rfl

theorem toList_ofNames_concat (names : List (List Char)) (name : List Char) :
    (ofNames (names ++ [name])).toList = Text.glue '/' (['.'] :: names) ++ ['/'] ++ name := by
  rw [toList_ofNames (by simp), ← List.cons_append,
    Text.glue_append '/' (List.cons_ne_nil ['.'] names) (List.cons_ne_nil name []), List.append_assoc]
  rfl

/-- What is put behind an identity is put behind its last name. -/
theorem ofNames_append (names : List (List Char)) (name : List Char) (extension : String) :
    ofNames (names ++ [name ++ extension.toList]) = ofNames (names ++ [name]) ++ extension := by
  apply String.toList_injective
  rw [String.toList_append, toList_ofNames_concat, toList_ofNames_concat, List.append_assoc _ name]

theorem head?_ofNames (names : List (List Char)) : (ofNames names).toList.head? = some '.' := by
  rw [ofNames, String.toList_append]
  rfl

theorem normalNames_ofNames (hne : names ≠ []) (hnames : ∀ n ∈ names, Kept n)
    (hdown : ['.', '.'] ∉ names) : normalNames (join ".".toList (ofNames names).toList) = names := by
  have hdot : ∀ rooted, (Text.pieces '/' ".".toList).foldl (walk rooted) [] = [] := by decide
  rw [normalNames, foldl_walk_join (by simp [head?_ofNames]), toList_ofNames hne, hdot,
    foldl_walk_relative hnames hdown, List.reverse_reverse]

theorem ofTarget_ofNames (hnames : ∀ n ∈ names, Kept n) (hdown : ['.', '.'] ∉ names)
    (hbackslash : ∀ n ∈ names, '\\' ∉ n) (hname : '/' ∉ name) (hplain : '\\' ∉ name) :
    ofTarget ".py" "." (ofNames (names ++ [name])) = .ok (ofNames (names ++ [complete ".py" name])) := by
  have hslash : ∀ n ∈ ['.'] :: names, '/' ∉ n :=
    List.forall_mem_cons.2 ⟨by decide, fun n hn => (hnames n hn).2.2⟩
  have hpieces : ∀ last, '/' ∉ last →
      Text.pieces '/' (Text.glue '/' (['.'] :: names) ++ ['/'] ++ last) = ['.'] :: names ++ [last] := by
    intro last hlast
    rw [List.append_assoc, List.singleton_append, Text.pieces_append_cons,
      Text.pieces_glue (List.cons_ne_nil _ _) hslash, Text.pieces_of_notMem hlast]
  have hcomplete : complete ".py" (ofNames (names ++ [name])).toList
      = (ofNames (names ++ [complete ".py" name])).toList := by
    rw [toList_ofNames_concat, toList_ofNames_concat]
    exact complete_append ".py" hpieces hname
  obtain ⟨hkept, hup⟩ := kept_complete hname
  have hall : ∀ n ∈ names ++ [complete ".py" name], Kept n := by
    rw [List.forall_mem_append, List.forall_mem_singleton]
    exact ⟨hnames, hkept⟩
  have hinside : ['.', '.'] ∉ names ++ [complete ".py" name] := by simp [hdown, Ne.symm hup]
  have hnormal := normalNames_ofNames (by simp) hall hinside
  refine (ofTarget_eq_ok_iff (by decide)).2 ⟨⟨?_, by simp [head?_ofNames], ?_⟩, ?_, ?_⟩
  · exact List.ne_nil_of_mem (List.mem_of_mem_head? (head?_ofNames _))
  · rw [toList_ofNames (by simp)]
    refine Text.notMem_glue (by decide) ?_
    rw [List.forall_mem_cons, List.forall_mem_append, List.forall_mem_singleton]
    exact ⟨by decide, hbackslash, hplain⟩
  · rw [hcomplete, hnormal]
    exact hinside
  · rw [hcomplete, hnormal]

/-- The identity that a target means, read in the root directory, means itself again if the last name of
the target has more than dots. Otherwise it means the identity with the default extension put behind it
once more, and this one means itself. -/
theorem ofTarget_again {directory target : String} {identity : Identity}
    (hdirectory : directory.toList.head? ≠ some '/') (hbackslash : '\\' ∉ directory.toList)
    (h : ofTarget ".py" directory target = .ok identity) :
    ((∃ c ∈ lastName target.toList, c ≠ '.') → ofTarget ".py" "." identity = .ok identity) ∧
      ((∀ c ∈ lastName target.toList, c = '.') →
        ofTarget ".py" "." identity = .ok (identity ++ ".py") ∧
          ofTarget ".py" "." (identity ++ ".py") = .ok (identity ++ ".py")) := by
  obtain ⟨⟨hne, hrelative, hplain⟩, hdown, rfl⟩ := (ofTarget_eq_ok_iff hdirectory).1 h
  have hfull : (complete ".py" target.toList).head? ≠ some '/' := head?_complete hne hrelative
  have hjoin := join_relative_of hdirectory hfull
  have hcomplete : '\\' ∉ complete ".py" target.toList := by
    rw [complete]
    split
    · exact hplain
    · simp [hplain]
  have hclear : ∀ n ∈ normalNames (join directory.toList (complete ".py" target.toList)), '\\' ∉ n :=
    fun n => notMem_of_mem_normalNames (notMem_join (by decide) hbackslash hcomplete)
  have hkept := kept_normalNames hjoin hdown
  obtain ⟨-, -, -, hname, -⟩ := exists_front target.toList
  obtain ⟨above, habove⟩ := normalNames_complete directory.toList hfull
  rw [habove] at hdown hclear hkept ⊢
  rw [List.forall_mem_append, List.forall_mem_singleton] at hclear hkept
  rw [List.mem_append, not_or] at hdown
  have hread : ∀ last, '/' ∉ last → '\\' ∉ last →
      ofTarget ".py" "." (ofNames (above ++ [last])) = .ok (ofNames (above ++ [complete ".py" last])) :=
    fun last => ofTarget_ofNames hkept.1 hdown.1 hclear.1
  have hslash := slash_notMem_complete hname
  refine ⟨fun hmore => ?_, fun hdots => ?_⟩
  · rw [hread _ hslash hclear.2, complete_of_hasExtension ((hasExtension_complete hname).2 hmore)]
  · have hbare : hasExtension (complete ".py" (lastName target.toList)) = false := by
      rw [Bool.eq_false_iff, ne_eq, hasExtension_complete hname]
      rintro ⟨c, hc, hne⟩
      exact hne (hdots c hc)
    have hlonger := complete_of_bare ".py" hbare
    have hread' := hread _ hslash hclear.2
    rw [hlonger, ofNames_append] at hread'
    refine ⟨hread', ?_⟩
    -- the extension that was put first is a name for the second one to stand behind
    have hkeeps := (hasExtension_complete hslash).2 (exists_ne_complete hname)
    have hagain := hread _ (slash_notMem_complete hslash) (by rw [hlonger]; simp [hclear.2])
    rwa [complete_of_hasExtension hkeeps, hlonger, ofNames_append] at hagain

theorem ofTarget_again_upwards :
    (ofTarget ".py" "./pkg" "../lib//.util" = .ok "./lib/.util.py" ∧
        ofTarget ".py" "." "./lib/.util.py" = .ok "./lib/.util.py") ∧
      ofTarget ".py" "./pkg" "../lib/" = .ok "./lib/.py" ∧
        ofTarget ".py" "." "./lib/.py" = .ok "./lib/.py.py" ∧
        ofTarget ".py" "." "./lib/.py.py" = .ok "./lib/.py.py" := by
  have hdirectory : "./pkg".toList.head? ≠ some '/' := by decide
  have hbackslash : '\\' ∉ "./pkg".toList := by decide
  have hname : ofTarget ".py" "./pkg" "../lib//.util" = .ok "./lib/.util.py" := by decide +kernel
  have hdots : ofTarget ".py" "./pkg" "../lib/" = .ok "./lib/.py" := by decide +kernel
  have hsame := (ofTarget_again hdirectory hbackslash hname).1 ⟨'u', by decide +kernel, by decide⟩
  have hnone : lastName "../lib/".toList = [] := by decide +kernel
  have hdotted : ∀ c ∈ lastName "../lib/".toList, c = '.' := by
    rw [hnone]
    exact List.forall_mem_nil _
  obtain ⟨honce, htwice⟩ := (ofTarget_again hdirectory hbackslash hdots).2 hdotted
  exact ⟨⟨hname, hsame⟩, hdots, honce, htwice⟩

/-- A target of dots, or one that ends in a slash or in dots, means an identity that means another one. -/
theorem ofTarget_ne_of_dots :
    (ofTarget ".py" "." "." = .ok "./..py" ∧ ofTarget ".py" "." "./..py" ≠ .ok "./..py") ∧
      (ofTarget ".py" "." ".." = .ok "./...py" ∧ ofTarget ".py" "." "./...py" ≠ .ok "./...py") ∧
      (ofTarget ".py" "." "./" = .ok "./.py" ∧ ofTarget ".py" "." "./.py" ≠ .ok "./.py") ∧
      (ofTarget ".py" "." "lib/" = .ok "./lib/.py" ∧ ofTarget ".py" "." "./lib/.py" ≠ .ok "./lib/.py") ∧
      ofTarget ".py" "." "lib/.." = .ok "./lib/...py" ∧
        ofTarget ".py" "." "./lib/...py" ≠ .ok "./lib/...py" := by
  decide +kernel

end Identity
end Bundler
