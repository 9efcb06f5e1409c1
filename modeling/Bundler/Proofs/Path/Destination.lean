import Bundler.Proofs.Path.Target

/-!
# Where load targets lead

An identity is found by walking from the root of the project, a file by walking from the root of the
file system. Both walks take the same steps as long as the first one does not lead out
(`foldl_walk_rooted`), so a load target names the file that it leads to from the directory of the file
it is written in, and that file has the identity that was found (`path_of_ofTarget`).
-/

namespace Bundler

namespace Lexical

variable {rooted : Bool} {place base : List (List Char)}

/-! ### Walking in two directories -/

theorem mem_walk {name : List Char} (h : ['.', '.'] ∈ place) : ['.', '.'] ∈ walk false place name := by
  unfold walk
  split
  · exact h
  split
  · exact List.mem_cons_of_mem _ h
  cases place with
  | nil => cases h
  | cons last above =>
    simp only
    split
    · exact List.mem_cons_of_mem _ h
    · next hlast => exact (List.mem_cons.1 h).resolve_left (Ne.symm hlast)

theorem mem_foldl_walk {texts : List (List Char)} (h : ['.', '.'] ∈ place) :
    ['.', '.'] ∈ texts.foldl (walk false) place := by
  induction texts generalizing place with
  | nil => exact h
  | cons text rest ih => exact ih (mem_walk h)

theorem foldl_walk_rooted {texts : List (List Char)}
    (h : ['.', '.'] ∉ texts.foldl (walk false) place) :
    texts.foldl (walk true) (place ++ base) = texts.foldl (walk false) place ++ base := by
  induction texts generalizing place with
  | nil => rfl
  | cons text rest ih =>
    rw [List.foldl_cons] at h
    have hplace : ['.', '.'] ∉ walk false place text := fun hmem => h (mem_foldl_walk hmem)
    have hstep : walk true (place ++ base) text = walk false place text ++ base := by
      unfold walk at hplace ⊢
      split
      · rfl
      next hblank =>
      rw [if_neg hblank] at hplace
      split
      · rfl
      next hup =>
      rw [if_neg hup] at hplace
      cases place with
      | nil => exact absurd (List.mem_singleton.2 (not_not.1 hup).symm) hplace
      | cons last above =>
        simp only [List.cons_append] at hplace ⊢
        split at hplace
        · next hlast => exact absurd (by simp [hlast]) hplace
        next hlast => rw [if_neg hlast, if_neg hlast]
    rw [List.foldl_cons, List.foldl_cons, hstep]
    exact ih h

theorem foldl_walk_names {names : List (List Char)} (hnames : ∀ n ∈ names, Kept n)
    (hdown : ['.', '.'] ∉ names) : names.foldl (walk rooted) place = names.reverse ++ place := by
  induction names generalizing place with
  | nil => rfl
  | cons name rest ih =>
    rw [List.mem_cons, not_or] at hdown
    obtain ⟨hne, hdot, -⟩ := hnames name List.mem_cons_self
    have hstep : walk rooted place name = name :: place := by
      unfold walk
      rw [if_neg (by simp [hne, hdot]), if_pos (Ne.symm hdown.1)]
    rw [List.foldl_cons, hstep, ih (fun n hn => hnames n (List.mem_cons_of_mem _ hn)) hdown.2]
    simp

theorem foldl_walk_join {directory text : List Char} (htext : text.head? ≠ some '/') :
    (Text.pieces '/' (join directory text)).foldl (walk rooted) place
      = (Text.pieces '/' text).foldl (walk rooted)
          ((Text.pieces '/' directory).foldl (walk rooted) place) := by
  rw [join, if_neg htext]
  split
  · next hend =>
    -- nothing stands after the last slash of such a directory, and the walk passes over it
    rcases hend with rfl | hend
    · simp [Text.pieces, walk]
    · obtain ⟨before, rfl⟩ := List.getLast?_eq_some_iff.1 hend
      rw [List.append_assoc, List.singleton_append, Text.pieces_append_cons, Text.pieces_append_cons]
      simp [Text.pieces, walk]
  · rw [Text.pieces_append_cons, List.foldl_append]

/-! ### The directories that targets are read in -/

theorem directory_append (before : List Char) {name : List Char} (hname : '/' ∉ name) :
    directory (before ++ '/' :: name)
      = if before.all (· == '/') then before ++ ['/'] else before.rdropWhile (· == '/') := by
  have hlast : ((before ++ '/' :: name).reverse.dropWhile (· != '/')).reverse = before ++ ['/'] := by
    have hpass : ∀ c ∈ name.reverse, (c != '/') = true := by
      intro c hc
      rw [bne_iff_ne]
      rintro rfl
      exact hname (List.mem_reverse.1 hc)
    rw [List.reverse_append, List.reverse_cons, List.append_assoc, List.dropWhile_append_of_pos hpass]
    simp
  rw [directory, hlast]
  simp only [List.all_append, List.all_cons, List.all_nil, beq_self_eq_true, Bool.and_self,
    Bool.and_true, List.reverse_append, List.reverse_cons, List.reverse_nil, List.nil_append,
    List.singleton_append, List.dropWhile_cons_of_pos]
  rfl

/-- A directory with a name is what stands before the last slash. -/
theorem directory_glue (front : List Char) {name : List Char} {names : List (List Char)}
    (hne : names ≠ []) (hnames : ∀ n ∈ names, n ≠ [] ∧ '/' ∉ n) (hname : '/' ∉ name) :
    directory (front ++ Text.glue '/' (names ++ [name])) = front ++ Text.glue '/' names := by
  obtain ⟨above, last, rfl⟩ := (List.eq_nil_or_concat names).resolve_left hne
  obtain ⟨hlast, hslash⟩ := hnames last (by simp)
  obtain ⟨before, hbefore⟩ : ∃ before, Text.glue '/' (above ++ [last]) = before ++ last := by
    by_cases habove : above = []
    · exact ⟨[], by simp [habove, Text.glue]⟩
    · exact ⟨Text.glue '/' above ++ ['/'], by
        rw [Text.glue_append _ habove (List.cons_ne_nil last []), Text.glue]
        simp⟩
  obtain ⟨c, rest, rfl⟩ : ∃ c rest, last = rest ++ [c] := by
    obtain ⟨rest, c, hcons⟩ := (List.eq_nil_or_concat last).resolve_left hlast
    exact ⟨c, rest, by rw [hcons, List.concat_eq_append]⟩
  have hc : c ≠ '/' := fun h => hslash (by simp [h])
  rw [List.concat_eq_append, Text.glue_append _ (by simp) (List.cons_ne_nil name []), Text.glue,
    ← List.append_assoc, directory_append _ hname, hbefore, if_neg (by simp [hc])]
  rw [← List.append_assoc, ← List.append_assoc, List.rdropWhile_concat_neg _ _ _ (by simpa using hc)]

/-- Walking to the directory of a module takes one step for each name. -/
theorem foldl_walk_relative {names : List (List Char)} (hnames : ∀ n ∈ names, Kept n)
    (hdown : ['.', '.'] ∉ names) :
    (Text.pieces '/' (Text.glue '/' (['.'] :: names))).foldl (walk rooted) [] = names.reverse := by
  rw [Text.pieces_glue (List.cons_ne_nil _ _) (List.forall_mem_cons.2 ⟨by decide, fun n hn => (hnames n hn).2.2⟩),
    List.foldl_cons]
  rw [show walk rooted [] ['.'] = [] from by simp [walk], foldl_walk_names hnames hdown,
    List.append_nil]

/-- Walking to an absolute directory takes one step for each name. -/
theorem foldl_walk_absolute {anchor : Anchor} {names : List (List Char)}
    (hnames : ∀ n ∈ names, Kept n) (hdown : ['.', '.'] ∉ names) :
    (Text.pieces '/' (anchor.text.toList ++ Text.glue '/' names)).foldl (walk rooted) []
      = names.reverse := by
  have hglue : (Text.pieces '/' (Text.glue '/' names)).foldl (walk rooted) [] = names.reverse := by
    by_cases hne : names = []
    · subst hne
      simp [Text.glue, Text.pieces, walk]
    · rw [Text.pieces_glue hne fun n hn => (hnames n hn).2.2, foldl_walk_names hnames hdown,
        List.append_nil]
  have hblank : walk rooted [] [] = [] := by simp [walk]
  cases anchor with
  | relative => exact hglue
  | root =>
    rw [show (Anchor.root.text.toList ++ Text.glue '/' names) = [] ++ '/' :: Text.glue '/' names from rfl,
      Text.pieces_append_cons, Text.pieces, List.singleton_append, List.foldl_cons, hblank, hglue]
  | doubleRoot =>
    rw [show (Anchor.doubleRoot.text.toList ++ Text.glue '/' names)
        = ['/'] ++ '/' :: Text.glue '/' names from rfl, Text.pieces_append_cons]
    simp [Text.pieces, hblank, hglue]

/-- A target read in an absolute directory keeps the slashes that the directory starts with. -/
theorem join_absolute {anchor : Anchor} (habsolute : anchor ≠ .relative) {names : List (List Char)}
    (hnames : ∀ n ∈ names, Kept n) {text : List Char} (htext : text.head? ≠ some '/') :
    ∃ rest, join (anchor.text.toList ++ Text.glue '/' names) text = anchor.text.toList ++ rest
      ∧ rest.head? ≠ some '/' := by
  obtain ⟨before, hbefore⟩ : ∃ before, anchor.text.toList = before ++ ['/'] := by
    cases anchor with
    | relative => exact absurd rfl habsolute
    | root => exact ⟨[], rfl⟩
    | doubleRoot => exact ⟨['/'], rfl⟩
  cases names with
  | nil =>
    refine ⟨text, ?_, htext⟩
    rw [join, if_neg htext, Text.glue, List.append_nil, if_pos (Or.inr (by simp [hbefore]))]
  | cons name others =>
    obtain ⟨hne, -, hslash⟩ := hnames name List.mem_cons_self
    obtain ⟨c, more, rfl⟩ := List.exists_cons_of_ne_nil hne
    have hc : c ≠ '/' := fun h => hslash (h ▸ List.mem_cons_self)
    obtain ⟨tail, htail⟩ : ∃ tail, Text.glue '/' ((c :: more) :: others) = c :: tail := by
      cases others with
      | nil => exact ⟨more, rfl⟩
      | cons next rest => exact ⟨more ++ '/' :: Text.glue '/' (next :: rest), rfl⟩
    rw [join, if_neg htext, htail]
    split
    · exact ⟨c :: tail ++ text, by simp, by simpa using hc⟩
    · exact ⟨c :: tail ++ '/' :: text, by simp, by simpa using hc⟩

/-- An absolute normal form is written with the slashes that the text starts with. -/
theorem normalise_absolute {anchor : Anchor} (habsolute : anchor ≠ .relative) {rest : List Char}
    (hrest : rest.head? ≠ some '/') :
    normalise (anchor.text.toList ++ rest)
      = anchor.text.toList ++ Text.glue '/' ((Text.pieces '/' (anchor.text.toList ++ rest)).foldl
          (walk true) []).reverse := by
  have hslashes : leadingSlashes (anchor.text.toList ++ rest) = anchor.text.toList := by
    cases anchor with
    | relative => exact absurd rfl habsolute
    | root =>
      cases rest with
      | nil => rfl
      | cons c more =>
        have hc : c ≠ '/' := by simpa using hrest
        simp [Anchor.text, leadingSlashes, hc]
    | doubleRoot =>
      cases rest with
      | nil => rfl
      | cons c more =>
        have hc : c ≠ '/' := by simpa using hrest
        simp [Anchor.text, leadingSlashes, hc]
  obtain ⟨more, hmore⟩ : ∃ more, anchor.text.toList = '/' :: more := by
    cases anchor with
    | relative => exact absurd rfl habsolute
    | root => exact ⟨[], rfl⟩
    | doubleRoot => exact ⟨['/'], rfl⟩
  rw [normalise, hslashes, normalNames, hmore]
  simp

end Lexical

namespace FilePath

theorem toList_toString_absolute {anchor : Anchor} (habsolute : anchor ≠ .relative)
    (parts : List Component) :
    (toString ⟨anchor, parts⟩).toList = anchor.text.toList ++ Text.glue '/' (parts.map (·.text.toList)) := by
  cases anchor with
  | relative => exact absurd rfl habsolute
  | root => simp [toString, Text.toList_joinWith, Function.comp_def]
  | doubleRoot => simp [toString, Text.toList_joinWith, Function.comp_def]

theorem kept_of_mem {parts : List Component} : ∀ n ∈ parts.map (·.text.toList), Lexical.Kept n := by
  intro n hn
  obtain ⟨c, -, rfl⟩ := List.mem_map.1 hn
  refine ⟨c.text_ne_empty, fun hdot => ?_, c.slash_notMem⟩
  have htext : c.text = "." := String.ext hdot
  simpa [htext, Bundler.isComponent] using c.isComponent

theorem notMem_of_parent {parts : List Component} (hdown : Component.parent ∉ parts) :
    ['.', '.'] ∉ parts.map (·.text.toList) := by
  intro hmem
  obtain ⟨⟨text, hcomponent⟩, hc, htext⟩ := List.mem_map.1 hmem
  obtain rfl : text = ".." := String.ext htext
  exact hdown hc

theorem directory_toString {anchor : Anchor} (habsolute : anchor ≠ .relative) (above : List Component)
    (last : Component) :
    Lexical.directory (toString ⟨anchor, above ++ [last]⟩).toList = (toString ⟨anchor, above⟩).toList := by
  rw [toList_toString_absolute habsolute, toList_toString_absolute habsolute, List.map_append,
    List.map_singleton]
  by_cases hne : above = []
  · subst hne
    cases anchor with
    | relative => exact absurd rfl habsolute
    | root =>
      have hroot := Lexical.directory_append [] last.slash_notMem
      simpa [Anchor.text, Text.glue] using hroot
    | doubleRoot =>
      have hroot := Lexical.directory_append ['/'] last.slash_notMem
      simpa [Anchor.text, Text.glue] using hroot
  · exact Lexical.directory_glue anchor.text.toList (by simpa using hne)
      (fun n hn => ⟨(kept_of_mem n hn).1, (kept_of_mem n hn).2.2⟩) last.slash_notMem

/-- A target read in an absolute directory leads on from the names of the directory. -/
theorem normalise_join_toString {anchor : Anchor} (habsolute : anchor ≠ .relative)
    {parts : List Component} (hdown : Component.parent ∉ parts) {text : List Char}
    (htext : text.head? ≠ some '/') :
    Lexical.normalise (Lexical.join (toString ⟨anchor, parts⟩).toList text)
      = anchor.text.toList ++ Text.glue '/' ((Text.pieces '/' text).foldl (Lexical.walk true)
          (parts.map (·.text.toList)).reverse).reverse := by
  rw [toList_toString_absolute habsolute]
  have hkept : ∀ n ∈ parts.map (·.text.toList), Lexical.Kept n := kept_of_mem
  obtain ⟨rest, hjoin, hrest⟩ := Lexical.join_absolute habsolute hkept htext
  rw [hjoin, Lexical.normalise_absolute habsolute hrest, ← hjoin, Lexical.foldl_walk_join htext,
    Lexical.foldl_walk_absolute kept_of_mem (notMem_of_parent hdown)]

end FilePath

namespace Identity

theorem directory_ofParts (above : List Component) (last : Component) :
    (directory (ofParts (above ++ [last]))).toList
      = Text.glue '/' (['.'] :: above.map (·.text.toList)) := by
  have htext : (ofParts (above ++ [last])).toList
      = Text.glue '/' (['.'] :: above.map (·.text.toList) ++ [last.text.toList]) := by
    have hcut := Text.glue_append '/' (List.cons_ne_nil ['.'] [])
      (List.append_ne_nil_of_right_ne_nil (above.map (·.text.toList))
        (List.cons_ne_nil last.text.toList []))
    rw [toList_ofParts, FilePath.toList_toString_relative _ (by simp), List.map_append,
      List.map_singleton]
    exact hcut.symm
  rw [directory, String.toList_ofList, htext]
  refine Lexical.directory_glue [] (List.cons_ne_nil _ _) ?_ last.slash_notMem
  rw [List.forall_mem_cons]
  exact ⟨by decide, fun n hn => ⟨(FilePath.kept_of_mem n hn).1, (FilePath.kept_of_mem n hn).2.2⟩⟩

/-- The identity that a target means is found by walking on from the directory of the module. -/
theorem exists_walk_of_ofTarget {above : List Component} {last : Component} {identity : Identity}
    {extension target : String} (habove : Component.parent ∉ above)
    (h : ofTarget extension (directory (ofParts (above ++ [last]))) target = .ok identity) :
    (complete extension target.toList).head? ≠ some '/' ∧
      ∃ below, identity = ofParts below ∧ Component.parent ∉ below ∧
        (Text.pieces '/' (complete extension target.toList)).foldl (Lexical.walk false)
            (above.map (·.text.toList)).reverse = (below.map (·.text.toList)).reverse := by
  have hdirectory := exists_directory (above ++ [last])
  obtain ⟨hfull, below, rfl, hbelow, hnames⟩ := ofTarget_eq_ok hdirectory h
  obtain ⟨more, hmore⟩ := hdirectory
  have hrelative : (Lexical.join (directory (ofParts (above ++ [last]))).toList
      (complete extension target.toList)).head? ≠ some '/' :=
    Lexical.join_relative (by simp [hmore]) hfull (by simp [hmore])
  refine ⟨hfull, below, rfl, hbelow, ?_⟩
  rw [hnames, Lexical.normalNames, List.reverse_reverse, beq_eq_false_iff_ne.2 hrelative,
    Lexical.foldl_walk_join hfull, directory_ofParts,
    Lexical.foldl_walk_relative FilePath.kept_of_mem (FilePath.notMem_of_parent habove)]

/-- A load target names the file that it leads to from the directory of the file it is written in, and
that file has the identity that the target is replaced by. -/
theorem path_of_ofTarget {root path : FilePath} {module identity : Identity}
    {extension target : String} (habsolute : root.isAbsolute = true) (hinside : path ≠ root)
    (hdown : Component.parent ∉ path.parts) (hmodule : ofPath? root path = some module)
    (h : ofTarget extension module.directory target = .ok identity) :
    (identity.path root).toString
        = String.ofList (Lexical.normalise (Lexical.join (Lexical.directory path.toString.toList)
            (if Lexical.hasExtension target.toList then target.toList
              else target.toList ++ extension.toList)))
      ∧ ofPath? root (identity.path root) = some identity := by
  obtain ⟨parts, rfl, rfl⟩ := ofPath?_eq_some_iff.1 hmodule
  have hanchor : root.anchor ≠ .relative := by simpa [FilePath.isAbsolute] using habsolute
  obtain ⟨above, last, rfl⟩ : ∃ above last, parts = above ++ [last] := by
    refine ⟨parts.dropLast, parts.getLast ?_, (List.dropLast_append_getLast _).symm⟩
    rintro rfl
    simp at hinside
  simp only [← List.append_assoc, List.mem_append, not_or] at hdown
  obtain ⟨⟨hroot, habove⟩, -⟩ := hdown
  obtain ⟨hfull, below, rfl, hbelow, hwalk⟩ := exists_walk_of_ofTarget habove h
  refine ⟨?_, ofPath?_path_ofParts root below⟩
  have hinner : ['.', '.'] ∉ (below.map (·.text.toList)).reverse :=
    fun hmem => FilePath.notMem_of_parent hbelow (List.mem_reverse.1 hmem)
  have hbase : Component.parent ∉ root.parts ++ above := by simp [hroot, habove]
  rw [← complete, ← List.append_assoc, FilePath.directory_toString hanchor,
    FilePath.normalise_join_toString hanchor hbase hfull, List.map_append, List.reverse_append,
    Lexical.foldl_walk_rooted (hwalk ▸ hinner), hwalk, path_ofParts]
  apply String.toList_injective
  rw [String.toList_ofList, FilePath.toList_toString_absolute hanchor]
  simp

theorem path_of_ofTarget_upwards :
    ofPath? (.ofString "/proj") (.ofString "/proj/pkg/sub/x.py") = some "./pkg/sub/x.py" ∧
      ofTarget ".py" (directory "./pkg/sub/x.py") "../..//other/./y" = .ok "./other/y.py" ∧
      (path (.ofString "/proj") "./other/y.py").toString
        = String.ofList (Lexical.normalise (Lexical.join
            (Lexical.directory (FilePath.ofString "/proj/pkg/sub/x.py").toString.toList)
            (if Lexical.hasExtension "../..//other/./y".toList then "../..//other/./y".toList
              else "../..//other/./y".toList ++ ".py".toList))) ∧
      ofPath? (.ofString "/proj") (path (.ofString "/proj") "./other/y.py") = some "./other/y.py" := by
  have hmodule : ofPath? (.ofString "/proj") (.ofString "/proj/pkg/sub/x.py")
      = some "./pkg/sub/x.py" := by decide +kernel
  have htarget : ofTarget ".py" (directory "./pkg/sub/x.py") "../..//other/./y"
      = .ok "./other/y.py" := by decide +kernel
  exact ⟨hmodule, htarget, path_of_ofTarget (by decide +kernel) (by decide +kernel)
    (by decide +kernel) hmodule htarget⟩

end Identity
end Bundler
