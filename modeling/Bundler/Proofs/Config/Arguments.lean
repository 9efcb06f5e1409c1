import Bundler.Config.Entry
import Bundler.Proofs.Attempt
import Bundler.Proofs.Config.Overriding
import Bundler.Proofs.Files.Links
import Bundler.Proofs.Path.Again

/-!
# Entries written as arguments

An argument gives its entry the name before the first `=`, or the default name. Arguments give their
entries in order exactly if these names are distinct and each path can be resolved (`addEntries_eq_ok_iff`),
and otherwise the first argument with an earlier name or with a path that cannot be resolved is refused
(`addEntries_eq_error_iff`). An entry with a plain name and a path in normal form that meets no link is read
back from the argument that it is written as (`entries_of_arguments`).
-/

namespace Bundler

namespace FilePath

theorem partsOf_slash (text : List Char) : partsOf ('/' :: text) = partsOf text := by
  have hnone : Component.ofText? [] = none := by decide
  simp [partsOf, Text.pieces, hnone]

/-- A path from the root is read back from its written form. -/
theorem ofString_toString_rooted (parts : List Component) :
    FilePath.ofString (toString ⟨.root, parts⟩) = ⟨.root, parts⟩ := by
  have htext : (toString ⟨.root, parts⟩).toList = '/' :: Text.glue '/' (parts.map (·.text.toList)) :=
    toList_toString_absolute (by decide) parts
  rw [ofString, htext, partsOf_slash]
  cases parts with
  | nil => rfl
  | cons first rest =>
    obtain ⟨c, more, hfirst⟩ := List.exists_cons_of_ne_nil first.text_ne_empty
    have hc : c ≠ '/' := fun h => first.slash_notMem (by simp [hfirst, h])
    obtain ⟨tail, htail⟩ : ∃ tail, Text.glue '/' ((first :: rest).map (·.text.toList)) = c :: tail := by
      cases rest with
      | nil => exact ⟨more, hfirst⟩
      | cons second others => exact ⟨_, congrArg (· ++ _) hfirst⟩
    rw [partsOf_glue _ (List.cons_ne_nil first rest), htail]
    simp [Anchor.ofText, hc]

theorem hasNull_ofString {text : String} (h : '\x00' ∉ text.toList) : (ofString text).hasNull = false := by
  rw [Bool.eq_false_iff, ne_eq, hasNull, List.any_eq_true]
  rintro ⟨part, hpart, hnull⟩
  have hmem : part.text.toList ∈ Lexical.steps text.toList := by
    rw [← map_partsOf]
    exact List.mem_map_of_mem hpart
  exact h (Text.subset_of_mem_pieces (List.mem_of_mem_filter hmem) (by simpa using hnull))

end FilePath

namespace Config

variable {resolve : FilePath → Except Failure FilePath} {arguments : List String}
  {known entries : List (String × FilePath)} {failure : Failure}

/-! ### What an argument gives -/

/-- The name that an argument gives: the text before its first `=` without blanks around it, or the default
name. -/
def nameOf (argument : String) : String :=
  if '=' ∈ argument.toList then String.ofList (Text.strip (argument.toList.takeWhile (· != '=')))
  else defaultEntryName

/-- The path that an argument gives: the text after its first `=`, or all of it, without blanks around
it. -/
def pathOf (argument : String) : String :=
  String.ofList (Text.strip
    (if '=' ∈ argument.toList then (argument.toList.dropWhile (· != '=')).tail else argument.toList))

/-- The entry that an argument gives, if its path can be resolved. -/
def entryOf (resolve : FilePath → Except Failure FilePath) (argument : String) :
    Except Failure (String × FilePath) :=
  (resolve (.ofString (pathOf argument))).map (nameOf argument, ·)

/-- The entry that an argument gives in a current directory where no links are on the way. -/
def entryFrom (cwd : FilePath) (argument : String) : String × FilePath :=
  (nameOf argument, cwd.resolve (.ofString (pathOf argument)))

theorem splitEntry_eq (argument : String) : splitEntry argument = (nameOf argument, pathOf argument) := by
  rw [splitEntry, nameOf, pathOf, Text.cut?_eq]
  by_cases hsign : '=' ∈ argument.toList
  · simp only [if_pos hsign]
  · simp only [if_neg hsign]

theorem fst_of_entryOf {argument : String} {entry : String × FilePath} (h : entryOf resolve argument = .ok entry) :
    entry.1 = nameOf argument := by
  obtain ⟨path, -, rfl⟩ := map_eq_ok_iff.1 h
  rfl

theorem resolve_of_entryOf {argument : String} (h : entryOf resolve argument = .error failure) :
    resolve (.ofString (pathOf argument)) = .error failure := by
  rw [entryOf] at h
  cases hpath : resolve (.ofString (pathOf argument)) <;> rw [hpath] at h <;> cases h
  rfl

theorem addEntries_cons (argument : String) : addEntries resolve (argument :: arguments) known
    = if nameOf argument ∈ known.map (·.1) then .error (.config (.duplicateEntry (nameOf argument)))
      else entryOf resolve argument >>= fun entry => addEntries resolve arguments (known ++ [entry]) := by
  have hany : known.any (·.1 = nameOf argument) = decide (nameOf argument ∈ known.map (·.1)) := by
    rw [Bool.eq_iff_iff]
    simp
  rw [addEntries, splitEntry_eq]
  simp only [hany, decide_eq_true_eq]
  split
  · rfl
  · rw [entryOf]
    cases resolve (.ofString (pathOf argument)) <;> rfl

/-! ### What arguments give -/

theorem addEntries_eq_ok_iff (hknown : (known.map (·.1)).Nodup) :
    addEntries resolve arguments known = .ok entries
      ↔ (known.map (·.1) ++ arguments.map nameOf).Nodup ∧
        ∃ given, arguments.mapM (entryOf resolve) = .ok given ∧ entries = known ++ given := by
  induction arguments generalizing known with
  | nil => simp [addEntries, hknown, pure, Except.pure, eq_comm]
  | cons argument rest ih =>
    rw [addEntries_cons]
    split
    · next hmem =>
      refine iff_of_false nofun fun h => ?_
      exact (List.nodup_append.1 h.1).2.2 _ hmem _ List.mem_cons_self rfl
    next hmem =>
    rw [List.mapM_cons]
    cases hentry : entryOf resolve argument with
    | error fault => simp [bind, Except.bind]
    | ok entry =>
      have hname := fst_of_entryOf hentry
      have hnodup : ((known ++ [entry]).map (·.1)).Nodup := by
        rw [List.map_append]
        exact hknown.append (List.nodup_singleton _) (by simpa [hname] using hmem)
      have hrest := ih hnodup
      simp only [List.map_append, List.map_cons, List.map_nil, hname, List.append_assoc, List.singleton_append]
        at hrest
      rw [List.map_cons]
      refine hrest.trans (and_congr_right fun _ => ?_)
      cases rest.mapM (entryOf resolve) with
      | error fault => simp [bind, Except.bind]
      | ok others => simp [bind, Except.bind, pure, Except.pure]

theorem addEntries_append (earlier later : List String) : addEntries resolve (earlier ++ later) known
    = addEntries resolve earlier known >>= fun between => addEntries resolve later between := by
  induction earlier generalizing known with
  | nil => rfl
  | cons argument rest ih =>
    rw [List.cons_append, addEntries_cons, addEntries_cons]
    split
    · rfl
    · rw [bind_assoc]
      exact congrArg _ (funext fun _ => ih)

theorem addEntries_singleton_eq_error_iff {argument : String} :
    addEntries resolve [argument] known = .error failure
      ↔ nameOf argument ∈ known.map (·.1) ∧ failure = .config (.duplicateEntry (nameOf argument)) ∨
        nameOf argument ∉ known.map (·.1) ∧ resolve (.ofString (pathOf argument)) = .error failure := by
  rw [addEntries_cons]
  split
  · next hmem => simp [hmem, eq_comm]
  next hmem =>
  have hends : ∀ entry : String × FilePath, ∃ entries, addEntries resolve [] (known ++ [entry]) = .ok entries :=
    fun entry => ⟨_, rfl⟩
  rw [bind_eq_error_iff_of_ok hends]
  simp only [hmem, false_and, not_false_eq_true, true_and, false_or]
  refine ⟨resolve_of_entryOf, fun h => ?_⟩
  rw [entryOf, h]
  rfl

/-- Arguments are refused at the first of them that is refused after those before it. -/
theorem addEntries_eq_error_iff_exists :
    addEntries resolve arguments known = .error failure
      ↔ ∃ earlier argument later between, arguments = earlier ++ argument :: later ∧
        addEntries resolve earlier known = .ok between ∧ addEntries resolve [argument] between = .error failure := by
  constructor
  · intro h
    induction arguments generalizing known with
    | nil => cases h
    | cons argument rest ih =>
      rw [← List.singleton_append, addEntries_append] at h
      obtain hfirst | ⟨next, hnext, h⟩ := bind_eq_error_iff.1 h
      · exact ⟨[], argument, rest, known, rfl, rfl, hfirst⟩
      · obtain ⟨earlier, other, later, between, rfl, hbetween, hother⟩ := ih h
        refine ⟨argument :: earlier, other, later, between, rfl, ?_, hother⟩
        rw [← List.singleton_append, addEntries_append, hnext]
        exact hbetween
  · rintro ⟨earlier, argument, later, between, rfl, hbetween, hfault⟩
    rw [← List.singleton_append, addEntries_append]
    refine bind_eq_error_iff.2 (.inr ⟨between, hbetween, ?_⟩)
    rw [addEntries_append]
    exact bind_eq_error_iff.2 (.inl hfault)

theorem map_fst_of_mapM {given : List (String × FilePath)} (h : arguments.mapM (entryOf resolve) = .ok given) :
    given.map (·.1) = arguments.map nameOf := by
  induction mapM_eq_ok_iff.1 h with
  | nil => rfl
  | cons hentry hrest ih => rw [List.map_cons, List.map_cons, fst_of_entryOf hentry, ih (mapM_eq_ok_iff.2 hrest)]

/-- The first argument is refused whose name an earlier one has or whose path cannot be resolved. -/
theorem addEntries_eq_error_iff (hknown : (known.map (·.1)).Nodup) :
    addEntries resolve arguments known = .error failure
      ↔ ∃ earlier argument later given, arguments = earlier ++ argument :: later ∧
        (known.map (·.1) ++ earlier.map nameOf).Nodup ∧ earlier.mapM (entryOf resolve) = .ok given ∧
        (nameOf argument ∈ known.map (·.1) ++ earlier.map nameOf ∧
            failure = .config (.duplicateEntry (nameOf argument)) ∨
          nameOf argument ∉ known.map (·.1) ++ earlier.map nameOf ∧
            resolve (.ofString (pathOf argument)) = .error failure) := by
  rw [addEntries_eq_error_iff_exists]
  constructor
  · rintro ⟨earlier, argument, later, between, rfl, hbetween, hfault⟩
    obtain ⟨hnodup, given, hgiven, rfl⟩ := (addEntries_eq_ok_iff hknown).1 hbetween
    rw [addEntries_singleton_eq_error_iff, List.map_append, map_fst_of_mapM hgiven] at hfault
    exact ⟨earlier, argument, later, given, rfl, hnodup, hgiven, hfault⟩
  · rintro ⟨earlier, argument, later, given, rfl, hnodup, hgiven, hfault⟩
    refine ⟨earlier, argument, later, _, rfl, (addEntries_eq_ok_iff hknown).2 ⟨hnodup, given, hgiven, rfl⟩, ?_⟩
    rwa [addEntries_singleton_eq_error_iff, List.map_append, map_fst_of_mapM hgiven]

theorem entriesOfArguments_eq_ok_iff {cwd : FilePath} :
    entriesOfArguments cwd arguments resolve = .ok entries
      ↔ (arguments.map nameOf).Nodup ∧ arguments.mapM (entryOf resolve) = .ok entries := by
  have hnone : (([] : List (String × FilePath)).map (·.1)).Nodup := List.nodup_nil
  refine (addEntries_eq_ok_iff hnone).trans ?_
  simp

theorem mem_of_mem_strip {c : Char} {text : List Char} (h : c ∈ Text.strip text) : c ∈ text := by
  have hback := List.mem_reverse.1 ((List.dropWhile_sublist _).subset (List.mem_reverse.1 h))
  exact (List.dropWhile_sublist _).subset hback

theorem hasNull_pathOf {argument : String} (h : '\x00' ∉ argument.toList) :
    (FilePath.ofString (pathOf argument)).hasNull = false := by
  refine FilePath.hasNull_ofString fun hmem => h ?_
  rw [pathOf, String.toList_ofList] at hmem
  have hpath := mem_of_mem_strip hmem
  split at hpath
  · exact (List.dropWhile_sublist _).subset (List.mem_of_mem_tail hpath)
  · exact hpath

theorem entryOf_of_clear {tree : FileTree} {links : Links} {argument : String} (hnull : '\x00' ∉ argument.toList)
    (hclear : links.Clear tree.current (.ofString (pathOf argument))) :
    entryOf (tree.resolveThrough links) argument = .ok (entryFrom tree.current argument) := by
  rw [entryOf, FileTree.resolveThrough_of_clear (hasNull_pathOf hnull) hclear]
  rfl

theorem addEntries_congr {argument other : String} (h : splitEntry argument = splitEntry other)
    (earlier later : List String) :
    addEntries resolve (earlier ++ argument :: later) known
      = addEntries resolve (earlier ++ other :: later) known := by
  simp only [addEntries_append, addEntries, h]

/-! ### Writing entries -/

def argumentOf (entry : String × FilePath) : String := entry.1 ++ "=" ++ entry.2.toString

/-- An entry that an argument can give: there is no `=` in its name and no blank around it, and its path is
in normal form, with no blank around it either. -/
structure Writable (entry : String × FilePath) : Prop where
  sign : '=' ∉ entry.1.toList
  name : Text.strip entry.1.toList = entry.1.toList
  anchor : entry.2.anchor = .root
  down : Component.parent ∉ entry.2.parts
  null : entry.2.hasNull = false
  path : Text.strip entry.2.toString.toList = entry.2.toString.toList

theorem splitEntry_argumentOf {entry : String × FilePath} (h : Writable entry) :
    splitEntry (argumentOf entry) = (entry.1, entry.2.toString) := by
  have htext : (argumentOf entry).toList = entry.1.toList ++ '=' :: entry.2.toString.toList := by
    have hsign : "=".toList = ['='] := rfl
    rw [argumentOf, String.toList_append, String.toList_append, hsign, List.append_assoc,
      List.singleton_append]
  have hpass : ∀ c ∈ entry.1.toList, (c != '=') = true := by
    intro c hc
    rw [bne_iff_ne]
    rintro rfl
    exact h.sign hc
  rw [splitEntry, Text.cut?_eq, htext, if_pos (by simp), List.takeWhile_append_of_pos hpass,
    List.dropWhile_append_of_pos hpass]
  simp [h.name, h.path]

theorem ofString_pathOf_argumentOf {entry : String × FilePath} (h : Writable entry) :
    FilePath.ofString (pathOf (argumentOf entry)) = entry.2 := by
  have hpath : pathOf (argumentOf entry) = entry.2.toString :=
    congrArg Prod.snd ((splitEntry_eq (argumentOf entry)).symm.trans (splitEntry_argumentOf h))
  have hroot : entry.2 = ⟨.root, entry.2.parts⟩ := by rw [← h.anchor]
  rw [hpath, hroot, FilePath.ofString_toString_rooted]

theorem entryOf_argumentOf {entry : String × FilePath} (h : Writable entry)
    (hpath : resolve entry.2 = .ok entry.2) : entryOf resolve (argumentOf entry) = .ok entry := by
  have hname : nameOf (argumentOf entry) = entry.1 :=
    congrArg Prod.fst ((splitEntry_eq (argumentOf entry)).symm.trans (splitEntry_argumentOf h))
  rw [entryOf, hname, ofString_pathOf_argumentOf h, hpath]
  rfl

theorem resolve_of_writable {cwd : FilePath} {entry : String × FilePath} (h : Writable entry) :
    cwd.resolve entry.2 = entry.2 := by
  have hroot : entry.2 = ⟨.root, entry.2.parts⟩ := by rw [← h.anchor]
  rw [hroot, FilePath.resolve_rooted h.down]

/-- Entries whose paths stay as they are come back from the arguments that they are written as. -/
theorem entriesOfArguments_argumentOf {cwd : FilePath} (hnodup : (entries.map (·.1)).Nodup)
    (hentries : ∀ entry ∈ entries, Writable entry ∧ resolve entry.2 = .ok entry.2) :
    entriesOfArguments cwd (entries.map argumentOf) resolve = .ok entries := by
  have hgiven : (entries.map argumentOf).mapM (entryOf resolve) = .ok entries := by
    rw [mapM_eq_ok_iff, List.forall₂_map_left_iff, List.forall₂_same]
    exact fun entry hentry => entryOf_argumentOf (hentries entry hentry).1 (hentries entry hentry).2
  exact entriesOfArguments_eq_ok_iff.2 ⟨map_fst_of_mapM hgiven ▸ hnodup, hgiven⟩

theorem splitEntry_bare {path : String} (h : '=' ∉ path.toList) :
    splitEntry path = splitEntry ("main=" ++ path) := by
  have htext : ("main=" ++ path).toList = defaultEntryName.toList ++ '=' :: path.toList := by
    rw [String.toList_append]
    rfl
  have hpass : ∀ c ∈ defaultEntryName.toList, (c != '=') = true :=
    List.all_eq_true.1 (by decide : (defaultEntryName.toList.all (· != '=')) = true)
  have hname : Text.strip defaultEntryName.toList = defaultEntryName.toList := by decide
  rw [splitEntry, splitEntry, Text.cut?_eq, Text.cut?_eq, htext, if_neg h, if_pos (by simp),
    List.takeWhile_append_of_pos hpass, List.dropWhile_append_of_pos hpass]
  simp [hname]

theorem entriesOfArguments_eq_error_iff {tree : FileTree} {links : Links}
    (hnull : ∀ argument ∈ arguments, '\x00' ∉ argument.toList) :
    entriesOfArguments tree.current arguments (tree.resolveThrough links) = .error failure
      ↔ ∃ earlier argument later given, arguments = earlier ++ argument :: later ∧
        (earlier.map nameOf).Nodup ∧ earlier.mapM (entryOf (tree.resolveThrough links)) = .ok given ∧
        (nameOf argument ∈ earlier.map nameOf ∧ failure = .config (.duplicateEntry (nameOf argument)) ∨
          nameOf argument ∉ earlier.map nameOf ∧ links.Loops tree (.ofString (pathOf argument)) failure) := by
  have hnone : (([] : List (String × FilePath)).map (·.1)).Nodup := List.nodup_nil
  refine (addEntries_eq_error_iff hnone).trans ?_
  refine exists₂_congr fun earlier argument => exists₂_congr fun later given =>
    and_congr_right fun hsplit => and_congr_right fun _ => and_congr_right fun _ => ?_
  rw [FileTree.resolveThrough_eq_error_iff (hasNull_pathOf (hnull argument (by simp [hsplit])))]
  rfl

/-- Entries whose paths meet no link are read back from the arguments that they are written as, and a path
alone stands for the default entry. Any arguments give their entries in order, or are refused for the first
name given again, unless an earlier path leads round in a circle of links. -/
theorem entries_of_arguments (tree : FileTree) (links : Links) :
    let resolve := tree.resolveThrough links
    (∀ entries : List (String × FilePath), (entries.map (·.1)).Nodup →
      (∀ entry ∈ entries, Writable entry ∧ links.Clear tree.current entry.2) →
      entriesOfArguments tree.current (entries.map argumentOf) resolve = .ok entries) ∧
    (∀ (earlier : List String) (path : String) (later : List String), '=' ∉ path.toList →
      entriesOfArguments tree.current (earlier ++ path :: later) resolve
        = entriesOfArguments tree.current (earlier ++ ("main=" ++ path) :: later) resolve) ∧
    ∀ arguments : List String, (∀ argument ∈ arguments, '\x00' ∉ argument.toList) →
      (∀ entries, entriesOfArguments tree.current arguments resolve = .ok entries ↔
        (arguments.map nameOf).Nodup ∧ arguments.mapM (entryOf resolve) = .ok entries) ∧
      (∀ failure, entriesOfArguments tree.current arguments resolve = .error failure ↔
        ∃ earlier argument later given, arguments = earlier ++ argument :: later ∧
          (earlier.map nameOf).Nodup ∧ earlier.mapM (entryOf resolve) = .ok given ∧
          (nameOf argument ∈ earlier.map nameOf ∧ failure = .config (.duplicateEntry (nameOf argument)) ∨
            nameOf argument ∉ earlier.map nameOf ∧
              links.Loops tree (.ofString (pathOf argument)) failure)) ∧
      ((∀ argument ∈ arguments, links.Clear tree.current (.ofString (pathOf argument))) →
        (∀ entries, entriesOfArguments tree.current arguments resolve = .ok entries ↔
          (arguments.map nameOf).Nodup ∧ entries = arguments.map (entryFrom tree.current)) ∧
        ∀ failure, entriesOfArguments tree.current arguments resolve = .error failure ↔
          ∃ earlier argument later, arguments = earlier ++ argument :: later ∧
            (earlier.map nameOf).Nodup ∧ nameOf argument ∈ earlier.map nameOf ∧
            failure = .config (.duplicateEntry (nameOf argument))) := by
  intro resolve
  refine ⟨fun entries hnodup hentries => ?_, fun earlier path later hpath => ?_, fun arguments hnull => ?_⟩
  · refine entriesOfArguments_argumentOf hnodup fun entry hentry => ⟨(hentries entry hentry).1, ?_⟩
    obtain ⟨hwritable, hclear⟩ := hentries entry hentry
    exact (FileTree.resolveThrough_of_clear hwritable.null hclear).trans
      (congrArg Except.ok (resolve_of_writable hwritable))
  · exact addEntries_congr (splitEntry_bare hpath) earlier later
  refine ⟨fun _ => entriesOfArguments_eq_ok_iff, fun _ => entriesOfArguments_eq_error_iff hnull, fun hclear => ?_⟩
  have hentry := fun argument hargument => entryOf_of_clear (hnull argument hargument) (hclear argument hargument)
  refine ⟨fun entries => ?_, fun failure => ?_⟩
  · rw [entriesOfArguments_eq_ok_iff, mapM_eq_map hentry, Except.ok.injEq, @eq_comm _ _ entries]
  rw [entriesOfArguments_eq_error_iff hnull]
  constructor
  · rintro ⟨earlier, argument, later, given, rfl, hnodup, -, ⟨hmem, rfl⟩ | ⟨-, hloops⟩⟩
    · exact ⟨earlier, argument, later, rfl, hnodup, hmem, rfl⟩
    · have hpath := hasNull_pathOf (hnull argument (by simp))
      have hfault := (FileTree.resolveThrough_eq_error_iff hpath).2 hloops
      rw [FileTree.resolveThrough_of_clear hpath (hclear argument (by simp))] at hfault
      cases hfault
  · rintro ⟨earlier, argument, later, rfl, hnodup, hmem, rfl⟩
    have hgiven := mapM_eq_map fun other hother => hentry other (List.mem_append_left _ hother)
    exact ⟨earlier, argument, later, _, rfl, hnodup, hgiven, .inl ⟨hmem, rfl⟩⟩

/-- Two entries with `=` in one path, a path alone, and a name that comes back with a blank before it. The one
link is met by none of these paths. -/
theorem entries_of_arguments_signs :
    let tree : FileTree := ⟨.root, []⟩
    let links : Links := [([⟨"bin", by decide⟩], .ofString "usr/bin")]
    entriesOfArguments tree.current ["app=/proj/a=b.py", "lib=/proj/lib.py"] (tree.resolveThrough links)
      = .ok [("app", .ofString "/proj/a=b.py"), ("lib", .ofString "/proj/lib.py")] ∧
    entriesOfArguments tree.current ["app=a.py", "lib.py"] (tree.resolveThrough links)
      = entriesOfArguments tree.current ["app=a.py", "main=lib.py"] (tree.resolveThrough links) ∧
    entriesOfArguments tree.current ["lib.py", "app=a.py", " main=b.py"] (tree.resolveThrough links)
      = .error (.config (.duplicateEntry "main")) := by
  intro tree links
  obtain ⟨hback, hbare, hany⟩ := entries_of_arguments tree links
  refine ⟨?_, hbare ["app=a.py"] "lib.py" [] (by decide), ?_⟩
  · refine hback [("app", .ofString "/proj/a=b.py"), ("lib", .ofString "/proj/lib.py")] (by decide) ?_
    have hfirst : Writable ("app", .ofString "/proj/a=b.py") :=
      ⟨by decide, by decide, by decide, by decide, by decide, by decide⟩
    have hsecond : Writable ("lib", .ofString "/proj/lib.py") :=
      ⟨by decide, by decide, by decide, by decide, by decide, by decide⟩
    have hclear : links.Clear tree.current (.ofString "/proj/a=b.py") ∧
        links.Clear tree.current (.ofString "/proj/lib.py") := by decide +kernel
    simp [hfirst, hsecond, hclear]
  · obtain ⟨-, -, hclear⟩ := hany ["lib.py", "app=a.py", " main=b.py"] (by decide)
    exact ((hclear (by decide +kernel)).2 _).2
      ⟨["lib.py", "app=a.py"], " main=b.py", [], rfl, by decide, by decide, rfl⟩

/-- A path from `//` comes back as one from `/`, a path through a link as the one that it leads to, and a link
to itself is refused. -/
theorem entries_of_arguments_moved :
    let tree : FileTree := ⟨.root, []⟩
    let moved : Links := [([⟨"bin", by decide⟩], .ofString "usr/bin")]
    let looped : Links := [([⟨"bin", by decide⟩], .ofString "bin")]
    entriesOfArguments tree.current [argumentOf ("app", .ofString "//x/a.py")] (tree.resolveThrough [])
      = .ok [("app", .ofString "/x/a.py")] ∧
    FilePath.ofString "/x/a.py" ≠ .ofString "//x/a.py" ∧
    entriesOfArguments tree.current [argumentOf ("app", .ofString "/bin/a.py")] (tree.resolveThrough moved)
      = .ok [("app", .ofString "/usr/bin/a.py")] ∧
    entriesOfArguments tree.current [argumentOf ("app", .ofString "/bin")] (tree.resolveThrough looped)
      = .error (.raised (loopRaised (.ofString "/bin"))) := by
  refine ⟨?_, ?_, ?_, ?_⟩
  · rfl
  · decide +kernel
  · rfl
  · rfl

end Config
end Bundler
