import Bundler.Console.Table
import Bundler.Proofs.Console.Literal
import Mathlib.Data.List.DropRight

/-!
# What the cells of a table show

A line is left whole in a column just when it has room there (`clipped_eq_self_iff`), so a cell shows its text as
it is exactly if the text is literal and has room (`exists_shown_iff`). A table is made column by column, but
drawn row by row (`lines_eq_drawnByRow`), and on a console that is wide enough a row of literal texts is one line
(`printedRow_of_fits`).
-/

namespace Bundler

namespace Console

variable {words : Vocabulary} {width : Nat} {line text : List Char} {split : List Char → List (List Char)}

/-! ### Words -/

theorem dropWhile_eq_drop (p : Char → Bool) (text : List Char) :
    text.drop (text.takeWhile p).length = text.dropWhile p := by
  have hsplit := (drop_length_takeWhile p text).symm.trans (List.takeWhile_append_dropWhile (p := p)).symm
  exact List.append_cancel_left hsplit

theorem dropWhile_ne_nil {p : Char → Bool} (h : text.dropWhile p ≠ []) :
    (text.dropWhile p).dropWhile p ≠ [] ∧ (text.dropWhile p).takeWhile (!p ·) ≠ [] := by
  obtain ⟨c, rest, hrest⟩ := List.exists_cons_of_ne_nil h
  have hc : p c = false := by
    have hhead := List.head?_dropWhile_not p text
    rw [hrest] at hhead
    simpa using hhead
  simp [hrest, hc]

theorem wordsOf_of_blank (h : text.dropWhile Text.isBlank = []) (left : Nat) : wordsOf left text = [] := by
  cases left with
  | zero => rfl
  | succ left =>
    rw [wordsOf, dropWhile_eq_drop, h]
    rfl

theorem flatten_wordsOf {left : Nat} (hlength : text.length ≤ left)
    (h : text = [] ∨ text.dropWhile Text.isBlank ≠ []) : (wordsOf left text).flatten = text := by
  induction left generalizing text with
  | zero =>
    obtain rfl := List.length_eq_zero_iff.1 (Nat.le_zero.1 hlength)
    rfl
  | succ left ih =>
    obtain rfl | hsome := h
    · rfl
    obtain ⟨-, hbody⟩ := dropWhile_ne_nil hsome
    set rest := text.dropWhile Text.isBlank with hrest
    have hshorter (more : Nat) : (rest.drop ((rest.takeWhile (!Text.isBlank ·)).length + more)).length ≤ left := by
      have hle : rest.length ≤ text.length := (List.dropWhile_suffix Text.isBlank).length_le
      have hpos := List.length_pos_iff.2 hbody
      rw [List.length_drop]
      omega
    rw [wordsOf, dropWhile_eq_drop, ← hrest, if_neg hbody, List.flatten_cons, ih (hshorter _)]
    · rw [← List.drop_drop, dropWhile_eq_drop, dropWhile_eq_drop, List.append_assoc, List.append_assoc,
        List.takeWhile_append_dropWhile, List.takeWhile_append_dropWhile, hrest, List.takeWhile_append_dropWhile]
    · rw [← List.drop_drop, dropWhile_eq_drop, dropWhile_eq_drop]
      rcases eq_or_ne ((rest.dropWhile (!Text.isBlank ·)).dropWhile Text.isBlank) [] with hnone | hmore
      · exact .inl hnone
      · exact .inr (dropWhile_ne_nil hmore).1

/-! ### Lines broken at their words -/

theorem withoutEndBlanks_isPrefix (text : List Char) : withoutEndBlanks text <+: text :=
  List.rdropWhile_prefix Text.isBlank text

theorem linesOfWords_of_cells_le {texts : List (List Char)}
    (h : Text.cells line + Text.cells texts.flatten ≤ width) :
    linesOfWords width split line (Text.cells line) texts = [line ++ texts.flatten] := by
  induction texts generalizing line with
  | nil => simp [linesOfWords]
  | cons word rest ih =>
    have hneeded := (Shrinks.of_sublist (withoutEndBlanks_isPrefix word).sublist).cells_le
    rw [List.flatten_cons, Text.cells_append, ← Nat.add_assoc] at h
    rw [linesOfWords, if_pos (Nat.le_trans (Nat.add_le_add_left hneeded _) (Nat.le_of_add_right_le h)),
      ← Text.cells_append, ih (by rwa [Text.cells_append]), List.flatten_cons, List.append_assoc]

theorem broken_of_cells_le (h : Text.cells line ≤ width) : broken width split line = [dropExcess width line] := by
  rw [broken]
  split
  · rfl
  next hwords =>
  have hflatten : (wordsOf line.length line).flatten = line :=
    flatten_wordsOf (Nat.le_refl _) (.inr fun hblank => hwords (wordsOf_of_blank hblank _))
  have hlines : linesOfWords width split [] (Text.cells []) (wordsOf line.length line)
      = [[] ++ (wordsOf line.length line).flatten] := linesOfWords_of_cells_le (by simpa [hflatten] using h)
  rw [hflatten] at hlines
  exact congrArg (List.map (dropExcess width)) hlines

/-- A line keeps what it has if there is room for its characters, or no blank at its end. -/
theorem dropExcess_eq_self_iff :
    dropExcess width line = line ↔ withoutEndBlanks line = line ∨ line.length ≤ width := by
  have hprefix := withoutEndBlanks_isPrefix line
  have hsame : withoutEndBlanks line = line ↔ line.length ≤ (withoutEndBlanks line).length :=
    ⟨fun h => Nat.le_of_eq (congrArg List.length h).symm, fun h => hprefix.eq_of_length_le h⟩
  rw [dropExcess, List.take_eq_self_iff, hsame]
  have := hprefix.length_le
  omega

theorem linesOfWords_ne_nil (width : Nat) (split : List Char → List (List Char)) (line : List Char) (used : Nat)
    (texts : List (List Char)) : linesOfWords width split line used texts ≠ [] := by
  induction texts generalizing line used with
  | nil => exact List.cons_ne_nil _ _
  | cons word rest ih =>
    rw [linesOfWords]
    split
    · exact ih _ _
    · dsimp only
      split
      · exact List.append_ne_nil_of_right_ne_nil _ (ih _ _)
      · exact List.append_ne_nil_of_right_ne_nil _ (ih _ _)

theorem clipped_ne_nil (width : Nat) (line : List Char) : clipped width line ≠ [] := by
  rw [clipped, broken, ne_eq, List.map_eq_nil_iff, List.map_eq_nil_iff]
  split
  · exact List.cons_ne_nil _ _
  · exact linesOfWords_ne_nil _ _ _ _ _

/-! ### Room in a column -/

theorem cells_fitting_le (width : Nat) (text : List Char) : Text.cells (fitting width text) ≤ width := by
  induction text generalizing width with
  | nil => exact Nat.zero_le _
  | cons c rest ih =>
    rw [fitting]
    split
    · exact Nat.zero_le _
    · next hroom =>
      have hrest := ih (width - Text.cellsOf c)
      rw [Text.cells_cons]
      omega

theorem fitting_of_cells_le (h : Text.cells text ≤ width) : fitting width text = text := by
  induction text generalizing width with
  | nil => rfl
  | cons c rest ih =>
    rw [Text.cells_cons] at h
    rw [fitting, if_neg (by omega), ih (by omega)]

theorem cells_clip_le (h : 0 < width) (line : List Char) : Text.cells (clip width line) ≤ width := by
  have hblank : Text.cellsOf ' ' = 1 := by decide
  have hellipsis : Text.cellsOf '…' = 1 := by decide +kernel
  rw [clip]
  split
  · assumption
  have hkept : Text.cells (if width ≤ 1 then [] else fitting (width - 1) line) ≤ width - 1 := by
    split
    · exact Nat.zero_le _
    · exact cells_fitting_le _ _
  simp only [Text.cells_append, Text.cells_replicate, Text.cells_cons, Text.cells_nil, hblank, hellipsis]
  omega

/-- The line has room in a width: its characters have, and it ends without a blank that would stick out. -/
structure HasRoom (width : Nat) (line : List Char) : Prop where
  cells : Text.cells line ≤ width
  ending : withoutEndBlanks line = line ∨ line.length ≤ width

theorem dropExcess_isPrefix (width : Nat) (line : List Char) : dropExcess width line <+: line :=
  List.take_prefix _ line

theorem clipped_of_cells_le (h : Text.cells line ≤ width) : clipped width line = [dropExcess width line] := by
  have hcells := (Shrinks.of_sublist (dropExcess_isPrefix width line).sublist).cells_le
  rw [clipped, broken_of_cells_le h, List.map_singleton, clip, if_pos (Nat.le_trans hcells h)]

theorem cells_le_of_mem_clipped {part : List Char} (h : 0 < width) (hpart : part ∈ clipped width line) :
    Text.cells part ≤ width := by
  obtain ⟨_, -, rfl⟩ := List.mem_map.1 hpart
  exact cells_clip_le h _

/-- A line is left whole just when it has room. -/
theorem clipped_eq_self_iff (h : 0 < width) : clipped width line = [line] ↔ HasRoom width line := by
  constructor
  · intro hline
    have hcells := cells_le_of_mem_clipped h (hline ▸ List.mem_singleton_self line)
    rw [clipped_of_cells_le hcells, List.singleton_inj, dropExcess_eq_self_iff] at hline
    exact ⟨hcells, hline⟩
  · rintro ⟨hcells, hending⟩
    rw [clipped_of_cells_le hcells, dropExcess_eq_self_iff.2 hending]

theorem subset_of_mem_linesOfWords {texts : List (List Char)} {part : List Char} {used : Nat}
    (h : part ∈ linesOfWords width (fun word => [word]) line used texts) : part ⊆ line ++ texts.flatten := by
  induction texts generalizing line used with
  | nil => simp [List.mem_singleton.1 h]
  | cons word rest ih =>
    rw [linesOfWords] at h
    split at h
    · simpa using ih h
    · have hcases : part ∈ (if line = [] then [] else [line])
          ∨ part ∈ linesOfWords width (fun word => [word]) word (Text.cells word) rest := by
        simpa using h
      rcases hcases with hbefore | hrest
      · split at hbefore
        · cases hbefore
        · simp [List.mem_singleton.1 hbefore]
      · exact List.Subset.trans (ih hrest) (List.subset_append_right _ _)

theorem subset_of_mem_broken {part : List Char} (h : part ∈ broken width (fun word => [word]) line) :
    part ⊆ line := by
  obtain ⟨whole, hwhole, rfl⟩ := List.mem_map.1 h
  refine List.Subset.trans (dropExcess_isPrefix width whole).subset ?_
  split at hwhole
  · exact List.mem_singleton.1 hwhole ▸ List.Subset.refl _
  next hwords =>
  have hflatten : (wordsOf line.length line).flatten = line :=
    flatten_wordsOf (Nat.le_refl _) (.inr fun hblank => hwords (wordsOf_of_blank hblank _))
  simpa [hflatten] using subset_of_mem_linesOfWords hwhole

theorem fitting_isPrefix (width : Nat) (text : List Char) : fitting width text <+: text := by
  induction text generalizing width with
  | nil => exact List.prefix_rfl
  | cons c rest ih =>
    rw [fitting]
    split
    · exact List.nil_prefix
    · exact List.cons_prefix_cons.2 ⟨rfl, ih _⟩

/-- What is new in a line that is cut is an ellipsis and blanks. -/
theorem isLayout_of_mem_clipped (hplain : ∀ c ∈ line, isLayout c = false) {part : List Char}
    (hpart : part ∈ clipped width line) : ∀ c ∈ part, isLayout c = false := by
  obtain ⟨whole, hwhole, rfl⟩ := List.mem_map.1 hpart
  have hsubset : whole ⊆ line := subset_of_mem_broken hwhole
  intro c hc
  rw [clip] at hc
  split at hc
  · exact hplain c (hsubset hc)
  simp only [List.mem_append, List.mem_singleton] at hc
  obtain (hkept | hblank) | rfl := hc
  · split at hkept
    · cases hkept
    · exact hplain c (hsubset ((fitting_isPrefix _ _).subset hkept))
  · rw [List.eq_of_mem_replicate hblank]
    decide
  · decide

/-! ### Cells -/

/-- A column wide enough for text shows one as it is exactly if the text is literal and has room. -/
theorem exists_shown_iff {message : String} (hwidth : Table.padding < width) :
    (∃ shown, Console.shown words message = .ok shown ∧ Table.cellLines width shown = [message.toList])
      ↔ Literal words message.toList ∧ HasRoom (width - Table.padding) message.toList := by
  have hroom : 0 < width - Table.padding := Nat.sub_pos_of_lt hwidth
  have hcell : ∀ shown, Table.cellLines width shown = (lines shown).flatMap (clipped (width - Table.padding)) :=
    fun shown => if_neg (Nat.not_le.2 hwidth)
  constructor
  · rintro ⟨shown, hshown, hlines⟩
    rw [hcell] at hlines
    obtain ⟨line, hline, hclipped⟩ : ∃ line, lines shown = [line] ∧
        clipped (width - Table.padding) line = [message.toList] := by
      cases hsplit : lines shown with
      | nil => simp [hsplit] at hlines
      | cons line others =>
        rw [hsplit, List.flatMap_cons, List.append_eq_singleton_iff] at hlines
        obtain ⟨hnil, -⟩ | ⟨hclipped, hothers⟩ := hlines
        · exact absurd hnil (clipped_ne_nil _ _)
        · refine ⟨line, ?_, hclipped⟩
          rcases others with _ | ⟨other, more⟩
          · rfl
          · rw [List.flatMap_cons, List.append_eq_nil_iff] at hothers
            exact absurd hothers.1 (clipped_ne_nil _ _)
    have hplain : ∀ c ∈ message.toList, isLayout c = false :=
      isLayout_of_mem_clipped (isLayout_of_mem_lines (hline ▸ List.mem_singleton_self _))
        (hclipped ▸ List.mem_singleton_self _)
    have hshrinks := shrinks_shown hshown
    -- what is shown has no character of the layout either, so it is its own line
    have hown : ∀ c ∈ shown, isLayout c = false := fun c hc => (hshrinks.mem_or c hc).elim (hplain c) id
    obtain rfl : line = shown := by simpa [lines_of_plain hown, eq_comm] using hline
    -- it is no wider than the message, which had room, so that nothing but blanks can be gone
    have hcells := cells_le_of_mem_clipped hroom (hclipped ▸ List.mem_singleton_self _)
    rw [clipped_of_cells_le (Nat.le_trans hshrinks.cells_le hcells), List.singleton_inj] at hclipped
    have hsame : dropExcess (width - Table.padding) line = line :=
      (dropExcess_isPrefix _ line).eq_of_length_le (hclipped ▸ hshrinks.length_le)
    obtain rfl : line = message.toList := hsame.symm.trans hclipped
    obtain ⟨htags, hescapes, hemoji⟩ := shown_eq_self_iff.1 hshown
    exact ⟨⟨htags, hescapes, hemoji, hplain⟩, hcells, dropExcess_eq_self_iff.1 hsame⟩
  · rintro ⟨hliteral, hfits⟩
    refine ⟨message.toList, shown_eq_self_iff.2 ⟨hliteral.tags, hliteral.escapes, hliteral.emoji⟩, ?_⟩
    rw [hcell, lines_of_plain hliteral.line, List.flatMap_singleton, (clipped_eq_self_iff hroom).2 hfits]

end Console
/-! ### Tables -/

namespace Table

variable {words : Console.Vocabulary} {table : Table} {cell : String → List Char} {text : String}
  {row : List String} {width : Nat}

def texts (table : Table) : List String := table.headings ++ table.rows.flatten

/-- Every row has a text for each heading. -/
def Regular (table : Table) : Prop := ∀ row ∈ table.rows, row.length = table.headings.length

/-- The texts of a column, given by its heading and its place. -/
def column (table : Table) (head : String × Nat) : List String :=
  head.1 :: table.rows.map fun row => row.getD head.2 ""

/-- What the columns of a table show, told from what its texts show. -/
def shownColumns (table : Table) (cell : String → List Char) : List (List (List Char)) :=
  table.headings.zipIdx.map fun head => (table.column head).map cell

def widths (table : Table) (cell : String → List Char) (width : Nat) : List Nat :=
  widthsWithin (width - borders table.headings.length) (table.shownColumns cell)

def printedRow (width : Nat) (widths : List Nat) (cells : List (List Char)) : List String :=
  (rowLines '│' false widths cells).map fun line => String.ofList (Console.fitting width line)

/-- A table drawn row by row, from what its texts show. -/
def drawnByRow (table : Table) (cell : String → List Char) (width : Nat) : List String :=
  let widths := table.widths cell width
  let above := titleLines table.title (total widths + borders table.headings.length)
    ++ border '┏' '┳' '┓' '━' widths :: rowLines '┃' true widths (table.headings.map cell)
    ++ [border '┡' '╇' '┩' '━' widths]
  above.map (fun line => String.ofList (Console.fitting width line))
    ++ table.rows.flatMap (fun row => printedRow width widths (row.map cell))
    ++ [String.ofList (Console.fitting width (border '└' '┴' '┘' '─' widths))]

/-- The line of a row whose texts stand in one line each. -/
def rowText (bar : Char) (widths : List Nat) (row : List String) : List Char :=
  bar :: (row.zip widths).flatMap fun (text, width) => padded width text.toList ++ [bar]

theorem exists_mem_column_iff (h : table.Regular) :
    (∃ head ∈ table.headings.zipIdx, text ∈ table.column head) ↔ text ∈ table.texts := by
  constructor
  · rintro ⟨⟨heading, index⟩, hhead, htext⟩
    obtain ⟨hindex, hheading⟩ := List.mem_zipIdx' hhead
    rcases List.mem_cons.1 htext with rfl | hbody
    · exact List.mem_append_left _ (hheading ▸ List.getElem_mem hindex)
    · obtain ⟨row, hrow, rfl⟩ := List.mem_map.1 hbody
      have hlength : index < row.length := h row hrow ▸ hindex
      refine List.mem_append_right _ (List.mem_flatten.2 ⟨row, hrow, ?_⟩)
      simp [hlength]
  · intro htext
    rcases List.mem_append.1 htext with hheading | hbody
    · obtain ⟨index, hindex, rfl⟩ := List.getElem_of_mem hheading
      exact ⟨(_, index), List.mk_mem_zipIdx_iff_getElem?.2 (List.getElem?_eq_getElem hindex), .head _⟩
    · obtain ⟨row, hrow, hmem⟩ := List.mem_flatten.1 hbody
      obtain ⟨index, hindex, rfl⟩ := List.getElem_of_mem hmem
      have hlength : index < table.headings.length := h row hrow ▸ hindex
      refine ⟨(table.headings[index], index),
        List.mk_mem_zipIdx_iff_getElem?.2 (List.getElem?_eq_getElem hlength), ?_⟩
      refine List.mem_cons_of_mem _ (List.mem_map.2 ⟨row, hrow, ?_⟩)
      simp [hindex]

theorem columns_eq_shownColumns (h : table.Regular)
    (hcell : ∀ text ∈ table.texts, Console.shown words text = .ok (cell text)) :
    table.columns words = .ok (table.shownColumns cell) :=
  mapM_eq_map fun _ hhead => mapM_eq_map fun text htext =>
    hcell text ((exists_mem_column_iff h).1 ⟨_, hhead, htext⟩)

/-- The headings are what stands at the top of the columns. -/
theorem map_getD_zero (table : Table) (cell : String → List Char) :
    (table.shownColumns cell).map (·.getD 0 []) = table.headings.map cell := by
  exact List.ext_getElem (by simp [shownColumns]) fun place _ _ => by simp [shownColumns, column]

/-- A row is what stands at its place in the columns. -/
theorem map_getD_succ (h : table.Regular) {index : Nat} (hrow : table.rows[index]? = some row) :
    (table.shownColumns cell).map (·.getD (index + 1) []) = row.map cell := by
  have hlength : row.length = table.headings.length := h row (List.mem_of_getElem? hrow)
  refine List.ext_getElem (by simp [shownColumns, hlength]) fun place hplace hplace' => ?_
  have hat : place < row.length := by simpa using hplace'
  simp [shownColumns, column, hrow, hat]

theorem le_foldl_max {values : List Nat} {value : Nat} (h : value ∈ values) (start : Nat) :
    value ≤ values.foldl max start := by
  induction values generalizing start with
  | nil => cases h
  | cons first rest ih =>
    have hstart : ∀ (values : List Nat) (start : Nat), start ≤ values.foldl max start := by
      intro values
      induction values with
      | nil => exact fun start => Nat.le_refl start
      | cons first rest ih => exact fun start => Nat.le_trans (Nat.le_max_left start first) (ih _)
    rcases List.mem_cons.1 h with rfl | hrest
    · exact Nat.le_trans (Nat.le_max_right start value) (hstart rest _)
    · exact ih hrest _

/-- All columns are as long as the table is high. -/
theorem foldl_max_length (hheadings : table.headings ≠ []) (cell : String → List Char) :
    ((table.shownColumns cell).map (·.length)).foldl max 0 = table.rows.length + 1 := by
  have hsame : ∀ count height : Nat, (List.replicate count height).foldl max height = height := by
    intro count height
    induction count with
    | zero => rfl
    | succ count ih => rw [List.replicate_succ, List.foldl_cons, Nat.max_self, ih]
  have hlengths : (table.shownColumns cell).map (·.length)
      = List.replicate table.headings.length (table.rows.length + 1) := by
    refine List.ext_getElem (by simp [shownColumns]) fun place _ _ => by simp [shownColumns, column]
  obtain ⟨count, hcount⟩ := Nat.exists_eq_succ_of_ne_zero (mt List.length_eq_zero_iff.1 hheadings)
  rw [hlengths, hcount, List.replicate_succ, List.foldl_cons, Nat.zero_max, hsame]

/-- The lines of a table whose texts can be shown. -/
theorem lines_eq_drawnByRow (h : table.Regular) (hheadings : table.headings ≠ [])
    (hcell : ∀ text ∈ table.texts, Console.shown words text = .ok (cell text)) :
    table.lines words width = .ok (table.drawnByRow cell width) := by
  have hbody : ∀ draw : List (List Char) → List (List Char),
      (List.range table.rows.length).flatMap
        (fun index => draw ((table.shownColumns cell).map (·.getD (index + 1) [])))
        = table.rows.flatMap fun row => draw (row.map cell) := by
    intro draw
    rw [List.flatMap_def, List.flatMap_def]
    refine congrArg List.flatten (List.ext_getElem (by simp) fun index hindex hindex' => ?_)
    rw [List.length_map] at hindex'
    simp only [List.getElem_map, List.getElem_range, map_getD_succ h (List.getElem?_eq_getElem hindex')]
  have hcolumns : (table.shownColumns cell).length = table.headings.length := by simp [shownColumns]
  rw [lines, columns_eq_shownColumns h hcell]
  refine congrArg Except.ok ?_
  simp only [drawn, foldl_max_length hheadings, Nat.add_sub_cancel, map_getD_zero, hcolumns]
  rw [hbody]
  simp [drawnByRow, widths, printedRow, List.map_flatMap]

/-! ### Rows -/

/-- Every text of a row is shown as it is and has room in its column. -/
def Stands (words : Console.Vocabulary) (widths : List Nat) (row : List String) : Prop :=
  ∀ entry ∈ row.zip widths, padding < entry.2 ∧ Console.Literal words entry.1.toList ∧
    Console.HasRoom (entry.2 - padding) entry.1.toList

theorem rowLines_of_stands {widths : List Nat} (h : Stands words widths row)
    (hcell : ∀ text ∈ row, Console.shown words text = .ok (cell text)) (bar : Char) (bottom : Bool) :
    rowLines bar bottom widths (row.map cell) = [rowText bar widths row] := by
  have hcells : ∀ entry ∈ row.zip widths, cellLines entry.2 (cell entry.1) = [entry.1.toList] := by
    intro entry hentry
    obtain ⟨hwidth, hliteral, hroom⟩ := h entry hentry
    obtain ⟨shown, hshown, hlines⟩ := (Console.exists_shown_iff hwidth).2 ⟨hliteral, hroom⟩
    obtain rfl := Except.ok.inj ((hcell entry.1 (List.of_mem_zip hentry).1).symm.trans hshown)
    exact hlines
  have hcolumns : ((row.map cell).zip widths).map (fun entry => (entry.2, cellLines entry.2 entry.1))
      = (row.zip widths).map fun entry => (entry.2, [entry.1.toList]) := by
    rw [List.zip_map_left, List.map_map]
    exact List.map_congr_left fun entry hentry => congrArg (Prod.mk entry.2) (hcells entry hentry)
  have hheight : ∀ entries : List (String × Nat),
      ((entries.map fun entry => (entry.2, [entry.1.toList])).map (·.2.length)).foldl max 1 = 1 := by
    intro entries
    induction entries with
    | nil => rfl
    | cons entry rest ih => simpa using ih
  rw [rowLines, hcolumns, hheight]
  cases bottom <;> simp [rowText, List.flatMap_map]

/-! ### Consoles that are wide enough -/

theorem total_cons (width : Nat) (widths : List Nat) : total (width :: widths) = width + total widths := rfl

theorem le_total_of_mem {widths : List Nat} (h : width ∈ widths) : width ≤ total widths := by
  induction h with
  | head => exact Nat.le_add_right _ _
  | tail other _ ih => exact Nat.le_trans ih (Nat.le_add_left _ other)

/-- The console has room for the table as it is. -/
def Fits (table : Table) (cell : String → List Char) (width : Nat) : Prop :=
  total ((table.shownColumns cell).map natural) + borders table.headings.length ≤ width

theorem widths_of_fits (h : table.Fits cell width) :
    table.widths cell width = (table.shownColumns cell).map natural := by
  have hroom : total ((table.shownColumns cell).map natural) ≤ width - borders table.headings.length :=
    Nat.le_sub_of_add_le h
  have hmeasured : (table.shownColumns cell).map
      (fun cells => max 1 (measured (width - borders table.headings.length) cells))
      = (table.shownColumns cell).map natural := by
    refine List.map_congr_left fun cells hcells => ?_
    have hnatural := Nat.le_trans (le_total_of_mem (List.mem_map_of_mem hcells)) hroom
    have hpadding : padding ≤ natural cells := Nat.le_add_left _ _
    have hpositive : 0 < padding := by decide
    rw [measured]
    split
    · rw [Nat.max_eq_right (by omega)]
      omega
    · rw [Nat.min_eq_left hnatural]
      omega
  rw [widths, widthsWithin]
  simp only [hmeasured, if_pos hroom]

/-- Nothing in the text ends a line, and it does not end in a blank. -/
structure Compact (text : List Char) : Prop where
  lines : ∀ c ∈ text, endsLine c = false
  ending : Console.withoutEndBlanks text = text

theorem widthOf_of_literal {text : List Char} (hliteral : Console.Literal words text) (h : Compact text) :
    widthOf text = Text.cells text := by
  have hwidest : ∀ (text : List Char) (current : Nat), (∀ c ∈ text, endsLine c = false) →
      widestFrom 0 current text = current + Text.cells text := by
    intro text
    induction text with
    | nil => simp [widestFrom]
    | cons c rest ih =>
      intro current hends
      rw [List.forall_mem_cons] at hends
      rw [widestFrom, if_neg (by simp [hends.1]), ih _ hends.2, Text.cells_cons, Nat.add_assoc]
  have hkept : text.filter (!Console.isDropped ·) = text :=
    List.filter_eq_self.2 fun c hc => by simp [(Console.isLayout_eq_false_iff.1 (hliteral.line c hc)).2.2]
  rw [widthOf, hkept, hwidest text 0 h.lines, Nat.zero_add]

theorem cells_padded {line : List Char} (hwidth : padding < width) (h : Text.cells line ≤ width - padding) :
    Text.cells (padded width line) = width := by
  have hblank : Text.cellsOf ' ' = 1 := by decide
  simp only [padded, Text.cells_cons, Text.cells_append, Text.cells_replicate, Text.cells_nil, hblank]
  simp only [padding] at hwidth h ⊢
  omega

/-- A row of texts that stand as they are is as wide as the columns and the borders. -/
theorem cells_rowText {widths : List Nat} (h : Stands words widths row) (hlength : row.length = widths.length) :
    Text.cells (rowText '│' widths row) = total widths + borders widths.length := by
  have hbar : Text.cellsOf '│' = 1 := by decide +kernel
  induction row generalizing widths with
  | nil =>
    obtain rfl := List.length_eq_zero_iff.1 hlength.symm
    simp [rowText, borders, hbar, total]
  | cons text rest ih =>
    obtain ⟨width, others, rfl⟩ := List.exists_cons_of_length_eq_add_one hlength.symm
    rw [Stands, List.zip_cons_cons, List.forall_mem_cons] at h
    obtain ⟨⟨hwidth, -, hroom⟩, hothers⟩ := h
    have hrest := ih hothers (Nat.succ.inj hlength)
    simp only [rowText, Text.cells_cons, List.zip_cons_cons, List.flatMap_cons, Text.cells_append,
      Text.cells_nil, hbar, cells_padded hwidth hroom.cells, total_cons, List.length_cons, borders] at hrest ⊢
    omega

theorem widthOf_le_natural {cells : List (List Char)} {shown : List Char} (h : shown ∈ cells) :
    widthOf shown + padding ≤ natural cells :=
  Nat.add_le_add_right (le_foldl_max (List.mem_map_of_mem h) 0) padding

/-- In columns of their natural widths, the literal texts of a row have room. -/
theorem stands_of_regular (h : table.Regular) (hheadings : ∀ heading ∈ table.headings, 0 < widthOf (cell heading))
    (hcell : ∀ text ∈ row, Console.shown words text = .ok (cell text)) (hrow : row ∈ table.rows)
    (hliteral : ∀ text ∈ row, Console.Literal words text.toList ∧ Compact text.toList) :
    Stands words ((table.shownColumns cell).map natural) row := by
  have hlength : row.length = table.headings.length := h row hrow
  intro entry hentry
  obtain ⟨index, hindex, rfl⟩ := List.getElem_of_mem hentry
  have hat : index < row.length := by
    rw [List.length_zip] at hindex
    exact Nat.lt_of_lt_of_le hindex (Nat.min_le_left _ _)
  have hhead : index < table.headings.length := hlength ▸ hat
  obtain ⟨hown, hcompact⟩ := hliteral _ (List.getElem_mem hat)
  have hsame : cell row[index] = row[index].toList := by
    have hself := Console.shown_eq_self_iff.2 ⟨hown.tags, hown.escapes, hown.emoji⟩
    exact Except.ok.inj ((hcell _ (List.getElem_mem hat)).symm.trans hself)
  have hcolumn : ∀ text ∈ table.column (table.headings[index], index),
      widthOf (cell text) + padding ≤ natural ((table.column (table.headings[index], index)).map cell) :=
    fun text htext => widthOf_le_natural (List.mem_map_of_mem htext)
  have hheading := hcolumn _ List.mem_cons_self
  have htext := hcolumn row[index] (List.mem_cons_of_mem _ (List.mem_map.2 ⟨row, hrow, by simp [hat]⟩))
  have hpos := hheadings _ (List.getElem_mem hhead)
  rw [hsame, widthOf_of_literal hown hcompact] at htext
  have hplace : (row.zip ((table.shownColumns cell).map natural))[index]
      = (row[index], natural ((table.column (table.headings[index], index)).map cell)) := by
    simp [shownColumns]
  rw [hplace]
  dsimp only at hheading ⊢
  exact ⟨by omega, hown, by omega, .inl hcompact.ending⟩

/-- On a console that is wide enough, a row of literal texts stands in one line as it is. -/
theorem printedRow_of_fits (h : table.Regular) (hfits : table.Fits cell width)
    (hheadings : ∀ heading ∈ table.headings, 0 < widthOf (cell heading))
    (hcell : ∀ text ∈ row, Console.shown words text = .ok (cell text)) (hrow : row ∈ table.rows)
    (hliteral : ∀ text ∈ row, Console.Literal words text.toList ∧ Compact text.toList) :
    printedRow width (table.widths cell width) (row.map cell)
      = [String.ofList (rowText '│' (table.widths cell width) row)] := by
  have hlength : row.length = ((table.shownColumns cell).map natural).length := by
    simp [shownColumns, h row hrow]
  have hstands := stands_of_regular h hheadings hcell hrow hliteral
  have hcells : Text.cells (rowText '│' ((table.shownColumns cell).map natural) row) ≤ width := by
    rw [cells_rowText hstands hlength, ← hlength, h row hrow]
    exact hfits
  rw [widths_of_fits hfits, printedRow, rowLines_of_stands hstands hcell, List.map_singleton,
    Console.fitting_of_cells_le hcells]

/-- A table is not drawn if one of its texts cannot be shown. -/
theorem exists_lines_eq_error (h : table.Regular) {fault : Console.MarkupFault} (htext : text ∈ table.texts)
    (hfault : Console.shown words text = .error fault) (width : Nat) :
    ∃ other ∈ table.texts, ∃ first, Console.shown words other = .error first ∧
      table.lines words width = .error first := by
  cases hcolumns : table.columns words with
  | ok columns =>
    -- each text stands in a column, and all of those were shown
    obtain ⟨head, hhead, hmem⟩ := (exists_mem_column_iff h).2 htext
    obtain ⟨cells, -, hcells⟩ := exists_of_forall₂ (mapM_eq_ok_iff.1 hcolumns).flip hhead
    obtain ⟨found, -, hfound⟩ := exists_of_forall₂ (mapM_eq_ok_iff.1 hcells).flip hmem
    cases hfault.symm.trans hfound
  | error first =>
    obtain ⟨_, head, _, hsplit, -, hcolumn⟩ := mapM_eq_first_error_iff.1 hcolumns
    obtain ⟨_, other, _, hsplit', -, hother⟩ := mapM_eq_first_error_iff.1 hcolumn
    have hhead : head ∈ table.headings.zipIdx := by simp [hsplit]
    have hmem : other ∈ table.column head := by
      rw [column, hsplit']
      simp
    refine ⟨other, (exists_mem_column_iff h).1 ⟨head, hhead, hmem⟩, first, hother, ?_⟩
    rw [lines, hcolumns]
    rfl

end Table
end Bundler
