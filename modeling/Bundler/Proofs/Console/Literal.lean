import Bundler.Console.Basic
import Bundler.Proofs.Attempt
import Bundler.Proofs.Console.Markup
import Bundler.Proofs.Text.Pieces

/-!
# Texts that are shown as they are

Showing a text never makes it longer or wider: a tag and the backslash before a bracket go away, and an emoji
is no longer and no wider than its name. So a text is shown as it is exactly if there are no tags, escaped
brackets and names of emoji in it (`shown_eq_self_iff`).
-/

namespace Bundler

namespace Console

variable {words : Vocabulary} {chars rest text : List Char} {tags : List OpenTag} {found : List Piece}

/-- What is shown of a text: it is not longer and not wider, and what is new in it is shown as it is. -/
structure Shrinks (text shown : List Char) : Prop where
  length_le : shown.length ≤ text.length
  cells_le : Text.cells shown ≤ Text.cells text
  mem_or : ∀ c ∈ shown, c ∈ text ∨ isLayout c = false

namespace Shrinks

theorem refl (text : List Char) : Shrinks text text := ⟨Nat.le_refl _, Nat.le_refl _, fun _ hc => .inl hc⟩

theorem trans {first second third : List Char} (h : Shrinks first second) (h' : Shrinks second third) :
    Shrinks first third :=
  ⟨Nat.le_trans h'.length_le h.length_le, Nat.le_trans h'.cells_le h.cells_le,
    fun c hc => (h'.mem_or c hc).elim (h.mem_or c) .inr⟩

theorem append {text shown text' shown' : List Char} (h : Shrinks text shown) (h' : Shrinks text' shown') :
    Shrinks (text ++ text') (shown ++ shown') where
  length_le := by
    rw [List.length_append, List.length_append]
    exact Nat.add_le_add h.length_le h'.length_le
  cells_le := by
    rw [Text.cells_append, Text.cells_append]
    exact Nat.add_le_add h.cells_le h'.cells_le
  mem_or c hc := by
    rw [List.mem_append]
    rcases List.mem_append.1 hc with hc | hc
    · exact (h.mem_or c hc).imp_left .inl
    · exact (h'.mem_or c hc).imp_left .inr

theorem of_sublist {text shown : List Char} (h : shown.Sublist text) : Shrinks text shown where
  length_le := h.length_le
  cells_le := by
    induction h with
    | slnil => exact Nat.le_refl _
    | cons c _ ih => exact Nat.le_trans ih (by simp)
    | cons_cons c _ ih => simpa using ih
  mem_or c hc := .inl (h.subset hc)

theorem cons {text shown : List Char} (h : Shrinks text shown) (c : Char) : Shrinks (c :: text) (c :: shown) :=
  (refl [c]).append h

end Shrinks

/-! ### Emoji -/

theorem eq_of_upToColon? {name after : List Char} (h : upToColon? chars = some (name, after)) :
    chars = name ++ ':' :: after :=
  Text.eq_of_cut? (Option.eq_some_of_filter_eq_some h)

theorem shrinks_withEmojiFrom (words : Vocabulary) (left : Nat) (text : List Char) :
    Shrinks text (withEmojiFrom words left text) := by
  fun_induction withEmojiFrom words left text with
  | case1 text => exact .refl text
  | case2 => exact .refl []
  | case3 left rest _ ih => exact ih.cons ':'
  | case4 left rest name after hcut ih =>
    obtain rfl := eq_of_upToColon? hcut
    have hname : Shrinks (':' :: name ++ [':']) ((words.emoji name).getD (':' :: name ++ [':'])) := by
      cases hemoji : words.emoji name with
      | none => exact .refl _
      | some emoji =>
        obtain ⟨hlength, hcells, hplain⟩ := words.emoji_spec name emoji hemoji
        have hcolon : Text.cellsOf ':' = 1 := by decide
        refine ⟨by simpa using hlength, ?_, fun c hc => .inr (hplain c hc)⟩
        simp only [Option.getD_some, List.cons_append, Text.cells_cons, Text.cells_append, hcolon, Text.cells_nil]
        omega
    simpa using hname.append ih
  | case5 left c rest _ ih => exact ih.cons c

theorem shrinks_withEmoji (words : Vocabulary) (text : List Char) : Shrinks text (withEmoji words text) :=
  shrinks_withEmojiFrom words text.length text

/-! ### Brackets -/

theorem shrinks_plain (text : List Char) : Shrinks text (plain text) := by
  fun_induction plain text with
  | case1 rest ih => exact (Shrinks.of_sublist (List.sublist_cons_self _ _)).trans (ih.cons '[')
  | case2 c rest _ ih => exact ih.cons c
  | case3 => exact .refl []

theorem plain_eq_self (h : ¬['\\', '['] <:+: text) : plain text = text := by
  fun_induction plain text with
  | case1 rest _ => exact absurd ⟨[], rest, rfl⟩ h
  | case2 c rest _ ih => rw [ih fun hrest => h (hrest.trans (List.suffix_cons c rest).isInfix)]
  | case3 => rfl

theorem length_plain_lt (h : ['\\', '['] <:+: text) : (plain text).length < text.length := by
  fun_induction plain text with
  | case1 rest _ => exact Nat.succ_lt_succ (Nat.lt_succ_of_le (shrinks_plain rest).length_le)
  | case2 c rest hother ih =>
    rcases List.infix_cons_iff.1 h with ⟨after, hafter⟩ | hrest
    · obtain ⟨rfl, rfl⟩ := List.cons.inj hafter
      exact absurd rfl (hother after rfl)
    · exact Nat.succ_lt_succ (ih hrest)
  | case3 => simp at h

theorem withEmoji_plain_eq_iff :
    withEmoji words (plain text) = text ↔ ¬['\\', '['] <:+: text ∧ withEmoji words text = text := by
  constructor
  · intro h
    have hescaped : ¬['\\', '['] <:+: text := by
      intro hinfix
      have hshorter := (shrinks_withEmoji words (plain text)).length_le
      rw [h] at hshorter
      exact Nat.not_lt.2 hshorter (length_plain_lt hinfix)
    rw [plain_eq_self hescaped] at h
    exact ⟨hescaped, h⟩
  · rintro ⟨hescaped, h⟩
    rw [plain_eq_self hescaped, h]

/-! ### Tags -/

/-- No tag stands in the text, neither a plain one nor an escaped one. -/
def Untagged (text : List Char) : Prop := ∀ rest, rest <:+ text → tag? rest = none

theorem untagged_cons_iff {c : Char} : Untagged (c :: rest) ↔ tag? (c :: rest) = none ∧ Untagged rest := by
  simp only [Untagged, List.suffix_cons_iff, or_imp, forall_and, forall_eq]

def Piece.content : Piece → List Char
  | .text chars => chars
  | .tag .. => []

theorem shrinks_strip {shown : List Char} (h : strip words tags found = .ok shown) :
    Shrinks (found.flatMap Piece.content) shown := by
  induction found generalizing tags shown with
  | nil =>
    obtain rfl := Except.ok.inj h
    exact .refl []
  | cons piece found ih =>
    cases piece with
    | text text =>
      rw [strip, bind_eq_ok_iff] at h
      obtain ⟨later, hlater, hshown⟩ := h
      obtain rfl := Except.ok.inj hshown
      exact ((shrinks_plain text).trans (shrinks_withEmoji words _)).append (ih hlater)
    | tag position inside =>
      rw [strip.eq_def] at h
      simp only at h
      split at h
      · split at h
        · cases h
        · split at h
          · cases h
          · exact ih h
      · exact ih h

def leftOf (slashes : Nat) (inside : List Char) : List Char :=
  List.replicate (slashes / 2) '\\' ++ if slashes % 2 = 1 then '[' :: (inside ++ [']']) else []

theorem length_leftOf_lt (slashes : Nat) (inside : List Char) :
    (leftOf slashes inside).length < (List.replicate slashes '\\' ++ '[' :: (inside ++ [']'])).length := by
  rw [leftOf]
  split <;> simp <;> omega

theorem leftOf_sublist (slashes : Nat) (inside : List Char) :
    (leftOf slashes inside).Sublist (List.replicate slashes '\\' ++ '[' :: (inside ++ [']'])) := by
  refine List.Sublist.append (List.replicate_sublist_replicate _ |>.2 (Nat.div_le_self slashes 2)) ?_
  split
  · exact List.Sublist.refl _
  · exact List.nil_sublist _

theorem pieces_of_none {c : Char} (fuel position : Nat) (text : List Char)
    (h : tag? (c :: rest) = none) :
    pieces (fuel + 1) position text (c :: rest) = pieces fuel (position + 1) (c :: text) rest := by
  rw [pieces]
  simp only [h]

theorem content_pieces_of_some {slashes : Nat} {inside left : List Char} (fuel position : Nat)
    (text : List Char) (h : tag? chars = some (slashes, inside, left)) :
    (pieces (fuel + 1) position text chars).flatMap Piece.content
      = text.reverse ++ (leftOf slashes inside
        ++ (pieces fuel (position + slashes + inside.length + 2) [] left).flatMap Piece.content) := by
  rw [pieces_of_some fuel position text h, leftOf]
  split <;> simp [Piece.content]

theorem shrinks_pieces (fuel position : Nat) (text chars : List Char) :
    Shrinks (text.reverse ++ chars) ((pieces fuel position text chars).flatMap Piece.content) := by
  induction fuel generalizing position text chars with
  | zero =>
    have hcontent : (pieces 0 position text chars).flatMap Piece.content = text.reverse ++ [] := rfl
    rw [hcontent]
    exact (Shrinks.refl _).append (.of_sublist (List.nil_sublist _))
  | succ fuel ih =>
    rcases htag : tag? chars with _ | ⟨slashes, inside, left⟩
    · rcases chars with _ | ⟨c, rest⟩
      · simpa [pieces, Piece.content] using Shrinks.refl text.reverse
      · rw [pieces_of_none fuel position text htag]
        simpa using ih (position + 1) (c :: text) rest
    · rw [content_pieces_of_some fuel position text htag, (tag?_eq_some_iff.1 htag).2]
      refine (Shrinks.refl _).append ?_
      have hleft := (Shrinks.of_sublist (leftOf_sublist slashes inside)).append
        (ih (position + slashes + inside.length + 2) [] left)
      simpa using hleft

theorem length_content_lt {fuel : Nat} (hfuel : chars.length < fuel) (h : ¬Untagged chars) (position : Nat)
    (text : List Char) :
    ((pieces fuel position text chars).flatMap Piece.content).length < text.length + chars.length := by
  induction fuel generalizing position text chars with
  | zero => exact absurd hfuel (Nat.not_lt_zero _)
  | succ fuel ih =>
    rcases htag : tag? chars with _ | ⟨slashes, inside, left⟩
    · rcases chars with _ | ⟨c, rest⟩
      · exact absurd (fun rest hrest => List.suffix_nil.1 hrest ▸ rfl) h
      · rw [pieces_of_none fuel position text htag]
        rw [untagged_cons_iff, not_and] at h
        have hrest := ih (Nat.lt_of_succ_lt_succ hfuel) (h htag) (position + 1) (c :: text)
        simp only [List.length_cons] at hrest ⊢
        omega
    · rw [content_pieces_of_some fuel position text htag]
      have hlength := congrArg List.length (tag?_eq_some_iff.1 htag).2
      have hleft := length_leftOf_lt slashes inside
      have hrest := (shrinks_pieces fuel (position + slashes + inside.length + 2) [] left).length_le
      simp only [List.length_append, List.length_replicate, List.length_cons, List.length_nil,
        List.length_reverse] at hlength hleft hrest ⊢
      omega

theorem pieces_of_untagged {fuel : Nat} (hfuel : chars.length < fuel) (h : Untagged chars) (position : Nat)
    (text : List Char) : pieces fuel position text chars = [.text (text.reverse ++ chars)] := by
  induction fuel generalizing position text chars with
  | zero => exact absurd hfuel (Nat.not_lt_zero _)
  | succ fuel ih =>
    rcases chars with _ | ⟨c, rest⟩
    · simp [pieces]
    · rw [untagged_cons_iff] at h
      rw [pieces_of_none fuel position text h.1, ih (Nat.lt_of_succ_lt_succ hfuel) h.2]
      simp

/-! ### Messages -/

theorem untagged_of_notMem (h : '[' ∉ text) : Untagged text := by
  rintro rest ⟨before, rfl⟩
  rcases htag : tag? rest with _ | ⟨slashes, inside, left⟩
  · rfl
  · rw [(tag?_eq_some_iff.1 htag).2] at h
    exact absurd (by simp) h

theorem shrinks_shown {message : String} {shown : List Char} (h : Console.shown words message = .ok shown) :
    Shrinks message.toList shown := by
  rw [Console.shown] at h
  split at h
  · simpa using (shrinks_pieces _ 0 [] message.toList).trans (shrinks_strip h)
  · obtain rfl := Except.ok.inj h
    exact shrinks_withEmoji words _

/-- A message is shown as it is where it has no tags, no escaped brackets and no names of emoji. -/
theorem shown_eq_self_iff {message : String} :
    Console.shown words message = .ok message.toList ↔ Untagged message.toList ∧
      ¬['\\', '['] <:+: message.toList ∧ withEmoji words message.toList = message.toList := by
  by_cases hopening : '[' ∈ message.toList
  · have hfuel : message.toList.length < message.length + 1 := by
      rw [String.length_toList]
      exact Nat.lt_succ_self _
    rw [Console.shown, if_pos (List.contains_iff_mem.2 hopening)]
    by_cases htags : Untagged message.toList
    · have hpieces : strip words [] (pieces (message.length + 1) 0 [] message.toList)
          = .ok (withEmoji words (plain message.toList)) := by
        rw [pieces_of_untagged hfuel htags]
        simp [strip, bind, Except.bind, pure, Except.pure]
      rw [hpieces, Except.ok.injEq, and_iff_right htags, withEmoji_plain_eq_iff]
    · refine iff_of_false (fun h => ?_) fun h => htags h.1
      have hless := length_content_lt hfuel htags 0 []
      have hshorter := (shrinks_strip h).length_le
      simp only [List.length_nil] at hless
      omega
  · have hescaped : ¬['\\', '['] <:+: message.toList := fun h => hopening (h.subset (by simp))
    rw [Console.shown, if_neg (by simpa using hopening), Except.ok.injEq,
      and_iff_right (untagged_of_notMem hopening), and_iff_right hescaped]

/-! ### Lines -/

theorem expandTabs_of_notMem (h : '\t' ∉ text) (column : Nat) : expandTabs column text = text := by
  fun_induction expandTabs column text with
  | case1 => rfl
  | case2 => simp at h
  | case3 column c rest _ ih => rw [ih fun hrest => h (.tail _ hrest)]

theorem mem_or_of_mem_expandTabs {c : Char} {column : Nat} (h : c ∈ expandTabs column text) :
    c = ' ' ∨ c ∈ text ∧ c ≠ '\t' := by
  fun_induction expandTabs column text with
  | case1 => cases h
  | case2 column rest spaces ih =>
    rcases List.mem_append.1 h with hspace | hrest
    · exact .inl (List.eq_of_mem_replicate hspace)
    · exact (ih hrest).imp_right fun hmem => ⟨.tail _ hmem.1, hmem.2⟩
  | case3 column d rest hother ih =>
    rcases List.mem_cons.1 h with rfl | hrest
    · exact .inr ⟨.head _, hother⟩
    · exact (ih hrest).imp_right fun hmem => ⟨.tail _ hmem.1, hmem.2⟩

theorem isLayout_eq_false_iff {c : Char} :
    isLayout c = false ↔ c ≠ '\n' ∧ c ≠ '\t' ∧ isDropped c = false := by
  simp [isLayout, and_assoc]

/-- A text of characters that are shown themselves is one line. -/
theorem lines_of_plain (h : ∀ c ∈ text, isLayout c = false) : lines text = [text] := by
  have hkept : text.filter (!isDropped ·) = text :=
    List.filter_eq_self.2 fun c hc => by simp [(isLayout_eq_false_iff.1 (h c hc)).2.2]
  have hline : '\n' ∉ text := fun hc => (isLayout_eq_false_iff.1 (h _ hc)).1 rfl
  have htab : '\t' ∉ text := fun hc => (isLayout_eq_false_iff.1 (h _ hc)).2.1 rfl
  rw [lines, hkept, Text.pieces_of_notMem hline, List.map_singleton, expandTabs_of_notMem htab]

theorem isLayout_of_mem_lines {line : List Char} (hline : line ∈ lines text) :
    ∀ c ∈ line, isLayout c = false := by
  intro c hc
  obtain ⟨piece, hpiece, rfl⟩ := List.mem_map.1 hline
  rcases mem_or_of_mem_expandTabs hc with rfl | ⟨hmem, htab⟩
  · decide
  · have hkept := (List.mem_filter.1 (Text.subset_of_mem_pieces hpiece hmem)).2
    have hnext : c ≠ '\n' := fun heq => Text.notMem_of_mem_pieces piece hpiece (heq ▸ hmem)
    exact isLayout_eq_false_iff.2 ⟨hnext, htab, by simpa using hkept⟩

/-- The text is shown as it is: there are no tags in it, no escaped brackets, no names of emoji, and no
character that is not shown itself. -/
structure Literal (words : Vocabulary) (text : List Char) : Prop where
  tags : Untagged text
  escapes : ¬['\\', '['] <:+: text
  emoji : withEmoji words text = text
  line : ∀ c ∈ text, isLayout c = false

end Console
end Bundler
