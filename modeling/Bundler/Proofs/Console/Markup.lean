import Bundler.Console.Markup
import Mathlib.Data.List.Infix
import Mathlib.Data.List.TakeWhile

/-!
# The tags of a message

Which tags a message holds (`Tags`), and what each does to the open ones (`afterTag`). A message is
shown when every tag in it finds the one that it closes (`Shows`). An escaped text holds no tag
(`tags_escape`), and any text without a closing tag may stand between the marks of a path
(`Shows.marked_text`).
-/

namespace Bundler.Console

variable {chars rest inside left text : List Char} {slashes : Nat} {tags own : List (List Char)}

/-! ### Tags at the start of a text -/

/-- What stands between the brackets of a tag: it starts like one and has no bracket in it. -/
structure IsInside (inside : List Char) : Prop where
  start : ∃ c rest, inside = c :: rest ∧ startsTag c = true
  opening : '[' ∉ inside
  closing : ']' ∉ inside

theorem IsInside.takeWhile (h : IsInside inside) (left : List Char) :
    (inside ++ ']' :: left).takeWhile (fun c => c != '[' && c != ']') = inside := by
  rw [List.takeWhile_append_of_pos, List.takeWhile_cons_of_neg (by simp), List.append_nil]
  intro c hc
  have hopening : c ≠ '[' := fun heq => h.opening (heq ▸ hc)
  have hclosing : c ≠ ']' := fun heq => h.closing (heq ▸ hc)
  simp [hopening, hclosing]

theorem drop_length_takeWhile (p : Char → Bool) (chars : List Char) :
    chars = chars.takeWhile p ++ chars.drop (chars.takeWhile p).length := by
  conv_lhs => rw [← List.take_append_drop (chars.takeWhile p).length chars]
  rw [← List.prefix_iff_eq_take.1 (List.takeWhile_prefix p)]

theorem tagAfter?_eq_some_iff :
    tagAfter? chars = some (inside, left) ↔ IsInside inside ∧ chars = inside ++ ']' :: left := by
  constructor
  · intro h
    rcases chars with _ | ⟨c, chars⟩
    · cases h
    have hsplit := drop_length_takeWhile (fun c => c != '[' && c != ']') (c :: chars)
    rw [tagAfter?] at h
    split at h
    · next hstart =>
      simp only at h
      split at h
      · next found hdrop =>
        cases h
        rw [hdrop] at hsplit
        refine ⟨⟨?_, fun hmem => ?_, fun hmem => ?_⟩, hsplit⟩
        · rcases hwhile : (c :: chars).takeWhile fun c => c != '[' && c != ']' with _ | ⟨d, rest⟩
          · rw [hwhile, List.nil_append] at hsplit
            cases hsplit
            cases hstart
          · rw [hwhile] at hsplit
            cases hsplit
            exact ⟨_, _, rfl, hstart⟩
        · have hbracket := List.mem_takeWhile_imp hmem
          cases hbracket
        · have hbracket := List.mem_takeWhile_imp hmem
          cases hbracket
      · cases h
    · cases h
  · rintro ⟨hinside, rfl⟩
    obtain ⟨c, rest, rfl, hstart⟩ := hinside.start
    have htake := hinside.takeWhile left
    rw [List.cons_append] at htake ⊢
    rw [tagAfter?, if_pos hstart]
    simp only [htake]
    rw [← List.cons_append, List.drop_left]
    rfl

theorem tag?_eq_some_iff : tag? chars = some (slashes, inside, left) ↔
    IsInside inside ∧ chars = List.replicate slashes '\\' ++ '[' :: (inside ++ ']' :: left) := by
  constructor
  · intro h
    have hsplit := drop_length_takeWhile (· = '\\') chars
    have hslashes : chars.takeWhile (· = '\\')
        = List.replicate (chars.takeWhile (· = '\\')).length '\\' :=
      List.eq_replicate_iff.2 ⟨rfl, fun c hc => by simpa using List.mem_takeWhile_imp hc⟩
    rw [tag?] at h
    simp only at h
    split at h
    · next found hdrop =>
      rw [Option.map_eq_some_iff] at h
      obtain ⟨⟨inside', left'⟩, htag, heq⟩ := h
      cases heq
      obtain ⟨hinside, rfl⟩ := tagAfter?_eq_some_iff.1 htag
      rw [hdrop] at hsplit
      exact ⟨hinside, hsplit.trans (congrArg (· ++ _) hslashes)⟩
    · cases h
  · rintro ⟨hinside, rfl⟩
    have htake : (List.replicate slashes '\\' ++ '[' :: (inside ++ ']' :: left)).takeWhile (· = '\\')
        = List.replicate slashes '\\' := by
      rw [List.takeWhile_append_of_pos, List.takeWhile_cons_of_neg (by decide), List.append_nil]
      intro c hc
      simpa using (List.mem_replicate.1 hc).2
    rw [tag?]
    have htag : tagAfter? (inside ++ ']' :: left) = some (inside, left) :=
      tagAfter?_eq_some_iff.2 ⟨hinside, rfl⟩
    simp only [htake, List.length_replicate, List.drop_left' List.length_replicate, htag,
      Option.map_some]

theorem IsInside.tag?_eq (h : IsInside inside) (slashes : Nat) (left : List Char) :
    tag? (List.replicate slashes '\\' ++ '[' :: (inside ++ ']' :: left)) = some (slashes, inside, left) :=
  tag?_eq_some_iff.2 ⟨h, rfl⟩

/-- A tag that starts in a text before a bracket ends in that text. -/
theorem exists_left_of_inside {front : List Char} (hinside : IsInside inside)
    (h : front ++ '[' :: rest = inside ++ ']' :: left) :
    ∃ more, front = inside ++ ']' :: more ∧ left = more ++ '[' :: rest := by
  rcases List.append_eq_append_iff.1 h with ⟨gap, hgap, hrest⟩ | ⟨gap, hgap, hrest⟩
  · rcases gap with _ | ⟨c, gap⟩
    · cases hrest
    · cases hrest
      exact absurd (hgap ▸ by simp) hinside.opening
  · rcases gap with _ | ⟨c, gap⟩
    · cases hrest
    · cases hrest
      exact ⟨gap, hgap, rfl⟩

/-- A tag that starts in a text before a bracket ends in that text, or is the tag of the bracket. -/
theorem tag?_append_open (h : tag? (text ++ '[' :: rest) = some (slashes, inside, left)) :
    text = List.replicate slashes '\\' ∨
      ∃ more, tag? text = some (slashes, inside, more) ∧ left = more ++ '[' :: rest := by
  obtain ⟨hinside, heq⟩ := tag?_eq_some_iff.1 h
  rcases List.append_eq_append_iff.1 heq with ⟨gap, hgap, hrest⟩ | ⟨gap, hgap, hrest⟩
  · rcases gap with _ | ⟨c, gap⟩
    · exact .inl (by simpa using hgap.symm)
    · cases hrest
      have hmem : '[' ∈ List.replicate slashes '\\' := hgap ▸ by simp
      cases List.eq_of_mem_replicate hmem
  · rcases gap with _ | ⟨c, gap⟩
    · exact .inl (by simpa using hgap)
    · obtain ⟨rfl, hafter⟩ := List.cons.inj hrest
      obtain ⟨more, rfl, rfl⟩ := exists_left_of_inside hinside hafter.symm
      exact .inr ⟨more, tag?_eq_some_iff.2 ⟨hinside, hgap⟩, rfl⟩

/-- A tag that starts in a text before a backslash ends in that text. -/
theorem tag?_append_slash (h : tag? (text ++ ['\\']) = some (slashes, inside, left)) :
    ∃ more, tag? text = some (slashes, inside, more) ∧ left = more ++ ['\\'] := by
  obtain ⟨hinside, heq⟩ := tag?_eq_some_iff.1 h
  have hend : List.replicate slashes '\\' ++ '[' :: (inside ++ ']' :: left)
      = (List.replicate slashes '\\' ++ '[' :: inside) ++ ']' :: left := by simp
  rcases List.eq_nil_or_concat left with rfl | ⟨more, last, rfl⟩
  · have hlast := (List.append_inj' (heq.trans hend) rfl).2
    cases hlast
  · have hmore : text ++ ['\\']
        = (List.replicate slashes '\\' ++ '[' :: (inside ++ ']' :: more)) ++ [last] := by
      rw [heq]
      simp
    obtain ⟨htext, hlast⟩ := List.append_inj' hmore rfl
    cases hlast
    exact ⟨more, tag?_eq_some_iff.2 ⟨hinside, htext⟩, by simp⟩

theorem tag?_of_ne {c : Char} (hslash : c ≠ '\\') (hopening : c ≠ '[') : tag? (c :: rest) = none := by
  rw [tag?, List.takeWhile_cons_of_neg (by simpa using hslash)]
  simp only [List.length_nil, List.drop_zero]
  split
  · next heq =>
    cases heq
    exact absurd rfl hopening
  · rfl

/-! ### The tags of a whole text -/

/-- A text without opening brackets and backslashes, which has no part in a tag. -/
def Bare (text : List Char) : Prop := ∀ c ∈ text, c ≠ '\\' ∧ c ≠ '['

@[simp] theorem bare_append_iff : Bare (text ++ rest) ↔ Bare text ∧ Bare rest :=
  List.forall_mem_append

@[simp] theorem bare_toString (n : Nat) : Bare (toString n).toList := by
  intro c hc
  rw [Nat.toString_eq_ofList_toDigits, String.toList_ofList] at hc
  have hdigit := Nat.isDigit_of_mem_toDigits (by decide) (by decide) hc
  exact ⟨fun heq => by simp [heq] at hdigit, fun heq => by simp [heq] at hdigit⟩

/-- The tags of a text, in order, without those that are escaped. -/
inductive Tags : List Char → List (List Char) → Prop
  | nil : Tags [] []
  | plain {c : Char} {rest : List Char} {tags : List (List Char)} (hplain : tag? (c :: rest) = none)
      (hrest : Tags rest tags) : Tags (c :: rest) tags
  | escaped {chars inside left : List Char} {slashes : Nat} {tags : List (List Char)}
      (htag : tag? chars = some (slashes, inside, left)) (hodd : slashes % 2 = 1)
      (hleft : Tags left tags) : Tags chars tags
  | tag {chars inside left : List Char} {slashes : Nat} {tags : List (List Char)}
      (htag : tag? chars = some (slashes, inside, left)) (heven : slashes % 2 ≠ 1)
      (hleft : Tags left tags) : Tags chars (inside :: tags)

namespace Tags

theorem exists_tags (chars : List Char) : ∃ tags, Tags chars tags := by
  induction hlength : chars.length using Nat.strong_induction_on generalizing chars with
  | _ length ih =>
    rcases chars with _ | ⟨c, rest⟩
    · exact ⟨[], .nil⟩
    subst hlength
    rcases htag : tag? (c :: rest) with _ | ⟨slashes, inside, left⟩
    · obtain ⟨tags, htags⟩ := ih _ (Nat.lt_succ_self _) rest rfl
      exact ⟨tags, .plain htag htags⟩
    · have hshorter : left.length < (c :: rest).length := by
        rw [(tag?_eq_some_iff.1 htag).2]
        simp only [List.length_append, List.length_replicate, List.length_cons]
        omega
      obtain ⟨tags, htags⟩ := ih _ hshorter left rfl
      by_cases hodd : slashes % 2 = 1
      · exact ⟨tags, .escaped htag hodd htags⟩
      · exact ⟨inside :: tags, .tag htag hodd htags⟩

theorem infix_of_mem (h : Tags chars tags) {inside : List Char} (hmem : inside ∈ tags) :
    '[' :: inside <:+: chars := by
  have hleft : ∀ {chars slashes found left}, tag? chars = some (slashes, found, left) →
      left <:+: chars := by
    intro chars slashes found left htag
    rw [(tag?_eq_some_iff.1 htag).2]
    exact ⟨List.replicate slashes '\\' ++ '[' :: (found ++ [']']), [], by simp⟩
  induction h with
  | nil => cases hmem
  | plain _ _ ih => exact (ih hmem).trans (List.suffix_cons _ _).isInfix
  | escaped htag _ _ ih => exact (ih hmem).trans (hleft htag)
  | @tag chars found left slashes tags htag _ _ ih =>
    rcases List.mem_cons.1 hmem with rfl | hmem
    · rw [(tag?_eq_some_iff.1 htag).2]
      exact ⟨List.replicate slashes '\\', ']' :: left, by simp⟩
    · exact (ih hmem).trans (hleft htag)

theorem bare_append (htext : Bare text) (hrest : Tags rest tags) : Tags (text ++ rest) tags := by
  induction text with
  | nil => exact hrest
  | cons c text ih =>
    obtain ⟨⟨hslash, hopening⟩, htext⟩ := List.forall_mem_cons.1 htext
    exact .plain (tag?_of_ne hslash hopening) (ih htext)

theorem open_append (hinside : IsInside inside) (hrest : Tags rest tags) :
    Tags ('[' :: (inside ++ ']' :: rest)) (inside :: tags) :=
  .tag (hinside.tag?_eq 0 rest) (by decide) hrest

/-- Before a tag, a text has the tags that it has alone; it may escape the tag that follows. -/
theorem append_open (htext : Tags text own) (hinside : IsInside inside) (hrest : Tags rest tags) :
    Tags (text ++ '[' :: (inside ++ ']' :: rest)) (own ++ tags) ∨
      Tags (text ++ '[' :: (inside ++ ']' :: rest)) (own ++ inside :: tags) := by
  have hslashes : ∀ slashes, Tags (List.replicate slashes '\\' ++ '[' :: (inside ++ ']' :: rest)) tags ∨
      Tags (List.replicate slashes '\\' ++ '[' :: (inside ++ ']' :: rest)) (inside :: tags) := by
    intro slashes
    have htag := hinside.tag?_eq slashes rest
    by_cases hodd : slashes % 2 = 1
    · exact .inl (.escaped htag hodd hrest)
    · exact .inr (.tag htag hodd hrest)
  have hfront : ∀ {text slashes found more}, tag? text = some (slashes, found, more) →
      tag? (text ++ '[' :: (inside ++ ']' :: rest))
        = some (slashes, found, more ++ '[' :: (inside ++ ']' :: rest)) := by
    intro text slashes found more htag
    obtain ⟨hfound, rfl⟩ := tag?_eq_some_iff.1 htag
    exact tag?_eq_some_iff.2 ⟨hfound, by simp⟩
  induction htext with
  | nil => exact hslashes 0
  | @plain c text own hplain htext ih =>
    rcases htag : tag? (c :: text ++ '[' :: (inside ++ ']' :: rest)) with _ | ⟨slashes, found, left⟩
    · exact ih.imp (.plain htag) (.plain htag)
    · rcases tag?_append_open htag with hall | ⟨more, hmore, -⟩
      · have hnone : own = [] := by
          refine List.eq_nil_iff_forall_not_mem.2 fun inside hmem => ?_
          have hbracket := ((Tags.plain hplain htext).infix_of_mem hmem).subset List.mem_cons_self
          rw [hall] at hbracket
          cases List.eq_of_mem_replicate hbracket
        rw [hall, hnone]
        exact hslashes slashes
      · cases hplain.symm.trans hmore
  | escaped htag hodd _ ih => exact ih.imp (.escaped (hfront htag) hodd) (.escaped (hfront htag) hodd)
  | tag htag heven _ ih => exact ih.imp (.tag (hfront htag) heven) (.tag (hfront htag) heven)

/-- A backslash at the end makes no tag. -/
theorem append_slash (htext : Tags text own) : Tags (text ++ ['\\']) own := by
  have hfront : ∀ {text slashes inside more}, tag? text = some (slashes, inside, more) →
      tag? (text ++ ['\\']) = some (slashes, inside, more ++ ['\\']) := by
    intro text slashes inside more htag
    obtain ⟨hinside, rfl⟩ := tag?_eq_some_iff.1 htag
    exact tag?_eq_some_iff.2 ⟨hinside, by simp⟩
  induction htext with
  | nil => exact .plain rfl .nil
  | @plain c text own hplain _ ih =>
    refine .plain ?_ ih
    rcases htag : tag? (c :: (text ++ ['\\'])) with _ | ⟨slashes, inside, left⟩
    · rfl
    · rw [← List.cons_append] at htag
      obtain ⟨more, hmore, -⟩ := tag?_append_slash htag
      cases hplain.symm.trans hmore
  | escaped htag hodd _ ih => exact .escaped (hfront htag) hodd ih
  | tag htag heven _ ih => exact .tag (hfront htag) heven ih

end Tags

/-! ### Escaping -/

theorem escapeTags_of_none {c : Char} (fuel : Nat) (h : tag? (c :: rest) = none) :
    escapeTags (fuel + 1) (c :: rest) = c :: escapeTags fuel rest := by
  rw [escapeTags]
  simp only [h]

/-- Where no tag starts, a character of the escaped text is one of the text itself. -/
theorem exists_of_escapeTags_eq_cons {fuel : Nat} {c : Char} (htag : tag? chars = none)
    (h : escapeTags fuel chars = c :: left) :
    ∃ fuel' rest, chars = c :: rest ∧ escapeTags fuel' rest = left := by
  rcases fuel with _ | fuel
  · cases h
  rcases chars with _ | ⟨d, rest⟩
  · cases h
  rw [escapeTags_of_none fuel htag] at h
  obtain ⟨rfl, hrest⟩ := List.cons.inj h
  exact ⟨fuel, rest, rfl, hrest⟩

theorem escapeTags_of_some (fuel : Nat) (h : tag? chars = some (slashes, inside, left)) :
    escapeTags (fuel + 1) chars = List.replicate (2 * slashes + 1) '\\'
      ++ '[' :: (inside ++ ']' :: escapeTags fuel left) := by
  rcases chars with _ | ⟨c, rest⟩
  · cases h
  · rw [escapeTags]
    simp only [h, List.append_assoc, List.cons_append]

/-- What comes before a closing bracket, without an opening one, stands so in the text itself. -/
theorem exists_more_of_escapeTags {fuel : Nat} (hopening : '[' ∉ inside)
    (h : escapeTags fuel chars = inside ++ ']' :: left) : ∃ more, chars = inside ++ ']' :: more := by
  induction fuel generalizing chars inside with
  | zero => simp [escapeTags] at h
  | succ fuel ih =>
    rcases htag : tag? chars with _ | ⟨slashes, found, after⟩
    · rcases chars with _ | ⟨c, rest⟩
      · simp [escapeTags] at h
      rw [escapeTags_of_none fuel htag] at h
      rcases inside with _ | ⟨d, inside⟩
      · cases h
        exact ⟨rest, rfl⟩
      · obtain ⟨rfl, hrest⟩ := List.cons.inj h
        obtain ⟨more, rfl⟩ := ih (fun hmem => hopening (.tail _ hmem)) hrest
        exact ⟨more, rfl⟩
    · rw [escapeTags_of_some fuel htag] at h
      -- the first bracket of an escaped tag is its opening one
      rcases List.append_eq_append_iff.1 h with ⟨gap, hgap, hrest⟩ | ⟨gap, hgap, hrest⟩
      · rcases gap with _ | ⟨d, gap⟩
        · cases hrest
        · obtain ⟨rfl, -⟩ := List.cons.inj hrest
          exact absurd (hgap ▸ by simp) hopening
      · rcases gap with _ | ⟨d, gap⟩
        · cases hrest
        · obtain ⟨rfl, -⟩ := List.cons.inj hrest
          have hmem : ']' ∈ List.replicate (2 * slashes + 1) '\\' := hgap ▸ by simp
          cases List.eq_of_mem_replicate hmem

/-- The escaped form of a text starts with a tag only where the text does. -/
theorem tag?_escapeTags {fuel : Nat} (h : tag? chars = none) : tag? (escapeTags fuel chars) = none := by
  have hstart : ∀ slashes inside left, tag? (escapeTags fuel chars) ≠ some (slashes, inside, left) := by
    intro slashes
    induction slashes generalizing fuel chars with
    | zero =>
      intro inside left htag
      obtain ⟨hinside, heq⟩ := tag?_eq_some_iff.1 htag
      obtain ⟨fuel', rest, rfl, hrest⟩ := exists_of_escapeTags_eq_cons h heq
      obtain ⟨more, rfl⟩ := exists_more_of_escapeTags hinside.opening hrest
      cases h.symm.trans (hinside.tag?_eq 0 more)
    | succ slashes ih =>
      intro inside left htag
      obtain ⟨hinside, heq⟩ := tag?_eq_some_iff.1 htag
      obtain ⟨fuel', rest, rfl, hrest⟩ := exists_of_escapeTags_eq_cons h heq
      rcases hnext : tag? rest with _ | ⟨slashes', inside', left'⟩
      · exact ih hnext inside left (tag?_eq_some_iff.2 ⟨hinside, hrest⟩)
      · obtain ⟨hinside', rfl⟩ := tag?_eq_some_iff.1 hnext
        cases h.symm.trans (hinside'.tag?_eq (slashes' + 1) left')
  rcases htag : tag? (escapeTags fuel chars) with _ | ⟨slashes, inside, left⟩
  · rfl
  · exact absurd htag (hstart slashes inside left)

theorem tags_escapeTags (fuel : Nat) (chars : List Char) : Tags (escapeTags fuel chars) [] := by
  induction fuel generalizing chars with
  | zero => exact .nil
  | succ fuel ih =>
    rcases htag : tag? chars with _ | ⟨slashes, inside, left⟩
    · rcases chars with _ | ⟨c, rest⟩
      · exact .nil
      · have hplain : tag? (escapeTags (fuel + 1) (c :: rest)) = none := tag?_escapeTags htag
        rw [escapeTags_of_none fuel htag] at hplain ⊢
        exact .plain hplain (ih rest)
    · rw [escapeTags_of_some fuel htag]
      have hinside := (tag?_eq_some_iff.1 htag).1
      exact .escaped (hinside.tag?_eq _ _) (by omega) (ih left)

theorem tags_escape (text : String) : Tags (escape text).toList [] := by
  have htags := tags_escapeTags (text.length + 1) text.toList
  unfold escape
  dsimp only
  split
  · simpa using htags
  · simpa using htags.append_slash
  · simpa using htags

/-! ### What can be shown -/

variable {words : Vocabulary} {opened after : List OpenTag}

/-- The tags that are open after a tag, if it finds one to close and can close it. -/
def afterTag (words : Vocabulary) (opened : List OpenTag) (inside : List Char) : Option (List OpenTag) :=
  match inside.takeWhile (· != '=') with
  | '/' :: name =>
    ((closing? words name opened).filter fun found => (found.1.fault? words).isNone).map (·.2)
  | name => some (openedBy words inside name :: opened)

theorem strip_tag (h : afterTag words opened inside = some after) (position : Nat)
    (found : List Piece) : strip words opened (.tag position inside :: found) = strip words after found := by
  unfold afterTag at h
  rw [strip.eq_def]
  generalize hword : inside.takeWhile (· != '=') = word at h
  simp only [hword]
  by_cases hslash : ∃ name, word = '/' :: name
  · obtain ⟨name, rfl⟩ := hslash
    obtain ⟨⟨closed, left⟩, hfound, rfl⟩ := Option.map_eq_some_iff.1 h
    obtain ⟨hclosing, hfault⟩ := Option.filter_eq_some_iff.1 hfound
    simp only [hclosing, Option.isNone_iff_eq_none.1 hfault]
  · have hafter : after = openedBy words inside word :: opened := by
      split at h
      · exact absurd ⟨_, rfl⟩ hslash
      · exact (Option.some.inj h).symm
    rw [hafter]
    split
    · exact absurd ⟨_, rfl⟩ hslash
    · rfl

theorem exists_strip_text {found : List Piece} (h : ∃ shown, strip words opened found = .ok shown)
    (text : List Char) : ∃ shown, strip words opened (.text text :: found) = .ok shown := by
  obtain ⟨shown, hshown⟩ := h
  exact ⟨withEmoji words (plain text) ++ shown, by simp [strip, hshown, bind, Except.bind, pure, Except.pure]⟩

theorem pieces_of_some (fuel position : Nat) (text : List Char)
    (h : tag? chars = some (slashes, inside, left)) :
    pieces (fuel + 1) position text chars
      = .text text.reverse :: .text (List.replicate (slashes / 2) '\\') ::
          (if slashes % 2 = 1 then .text ('[' :: inside ++ [']']) else .tag (position + slashes) inside)
          :: pieces fuel (position + slashes + inside.length + 2) [] left := by
  rcases chars with _ | ⟨c, rest⟩
  · cases h
  · rw [pieces]
    simp only [h]
    split <;> rfl

theorem exists_strip_pieces {fuel position : Nat} (h : Tags chars tags) (hfuel : chars.length < fuel)
    (hafter : tags.foldlM (afterTag words) opened = some after) (text : List Char) :
    ∃ shown, strip words opened (pieces fuel position text chars) = .ok shown := by
  have hshorter : ∀ {chars slashes inside left}, tag? chars = some (slashes, inside, left) →
      left.length < chars.length := by
    intro chars slashes inside left htag
    rw [(tag?_eq_some_iff.1 htag).2]
    simp only [List.length_append, List.length_cons]
    omega
  obtain ⟨fuel, rfl⟩ := Nat.exists_eq_add_one_of_ne_zero (by omega : fuel ≠ 0)
  induction h generalizing fuel position opened text with
  | nil => exact exists_strip_text ⟨[], rfl⟩ _
  | plain hplain _ ih =>
    rw [List.length_cons] at hfuel
    rw [pieces]
    simp only [hplain]
    obtain ⟨fuel, rfl⟩ := Nat.exists_eq_add_one_of_ne_zero (by omega : fuel ≠ 0)
    exact ih hafter _ fuel (by omega)
  | escaped htag hodd _ ih =>
    have hless := hshorter htag
    obtain ⟨fuel, rfl⟩ := Nat.exists_eq_add_one_of_ne_zero (by omega : fuel ≠ 0)
    rw [pieces_of_some _ _ _ htag, if_pos hodd]
    refine exists_strip_text (exists_strip_text (exists_strip_text ?_ _) _) _
    exact ih hafter _ fuel (by omega)
  | tag htag heven _ ih =>
    have hless := hshorter htag
    obtain ⟨fuel, rfl⟩ := Nat.exists_eq_add_one_of_ne_zero (by omega : fuel ≠ 0)
    rw [List.foldlM_cons, Option.bind_eq_bind, Option.bind_eq_some_iff] at hafter
    obtain ⟨between, hbetween, hafter⟩ := hafter
    rw [pieces_of_some _ _ _ htag, if_neg heven]
    refine exists_strip_text (exists_strip_text ?_ _) _
    rw [strip_tag hbetween]
    exact ih hafter _ fuel (by omega)

/-- Whatever the words mean and whatever tags are open, every tag of the text finds the one that it
closes. -/
def Shows (chars : List Char) : Prop :=
  ∃ tags, Tags chars tags ∧ ∀ words opened, ∃ after, tags.foldlM (afterTag words) opened = some after

theorem Shows.exists_shown {message : String} (h : Shows message.toList) (words : Vocabulary) :
    ∃ text, shown words message = .ok text := by
  obtain ⟨tags, htags, hopened⟩ := h
  obtain ⟨after, hafter⟩ := hopened words []
  rw [shown]
  split
  · exact exists_strip_pieces htags (by rw [String.length_toList]; omega) hafter []
  · exact ⟨_, rfl⟩

theorem Shows.bare_append (htext : Bare text) (h : Shows rest) : Shows (text ++ rest) := by
  obtain ⟨tags, htags, hopened⟩ := h
  exact ⟨tags, htags.bare_append htext, hopened⟩

theorem shows_nil : Shows [] := ⟨[], .nil, fun _ opened => ⟨opened, rfl⟩⟩

theorem Bare.shows (htext : Bare text) : Shows text := by
  rw [← List.append_nil text]
  exact shows_nil.bare_append htext

/-- Tags that close nothing only open others. -/
theorem exists_suffix_of_foldlM (hopen : ∀ inside ∈ tags, inside.head? ≠ some '/') (words : Vocabulary)
    (opened : List OpenTag) :
    ∃ after, tags.foldlM (afterTag words) opened = some after ∧ opened <:+ after := by
  induction tags generalizing opened with
  | nil => exact ⟨opened, rfl, List.suffix_refl _⟩
  | cons inside tags ih =>
    rw [List.forall_mem_cons] at hopen
    obtain ⟨tag, htag⟩ : ∃ tag, afterTag words opened inside = some (tag :: opened) := by
      unfold afterTag
      split
      · next name hslash =>
        have hhead := congrArg List.head? hslash
        rw [List.head?_takeWhile] at hhead
        exact absurd (Option.eq_some_of_filter_eq_some hhead) hopen.1
      · exact ⟨_, rfl⟩
    obtain ⟨after, hafter, hsuffix⟩ := ih hopen.2 (tag :: opened)
    refine ⟨after, ?_, (List.suffix_cons _ _).trans hsuffix⟩
    rw [List.foldlM_cons, htag]
    exact hafter

theorem exists_take? {wanted : OpenTag} (hmem : wanted ∈ opened) :
    ∃ found left, take? wanted.name opened = some (found, left) ∧ found.name = wanted.name := by
  induction opened with
  | nil => cases hmem
  | cons tag rest ih =>
    rw [take?]
    by_cases heq : tag.name = wanted.name
    · rw [if_pos heq]
      exact ⟨tag, rest, rfl, heq⟩
    · rw [if_neg heq]
      have hrest : wanted ∈ rest := (List.mem_cons.1 hmem).resolve_left fun h => heq (h ▸ rfl)
      obtain ⟨found, left, hfound, hname⟩ := ih hrest
      exact ⟨found, tag :: left, by rw [hfound]; rfl, hname⟩

/-- A word between brackets opens a style, and the word after a slash closes it. It is not the name of a
handler, so nothing can be wrong with it then. -/
structure IsMark (word : List Char) : Prop where
  opening : IsInside word
  closing : IsInside ('/' :: word)
  whole : '=' ∉ word
  slash : word.head? ≠ some '/'
  handler : (Text.strip word).head? ≠ some '@'
  named : Text.strip word ≠ []

theorem isMark_path : IsMark "path".toList where
  opening := ⟨⟨_, _, rfl, rfl⟩, by decide, by decide⟩
  closing := ⟨⟨_, _, rfl, rfl⟩, by decide, by decide⟩
  whole := by decide
  slash := by decide
  handler := by decide
  named := by decide

theorem isMark_code : IsMark "code".toList where
  opening := ⟨⟨_, _, rfl, rfl⟩, by decide, by decide⟩
  closing := ⟨⟨_, _, rfl, rfl⟩, by decide, by decide⟩
  whole := by decide
  slash := by decide
  handler := by decide
  named := by decide

namespace IsMark

variable {word : List Char}

theorem takeWhile_eq (h : IsMark word) : word.takeWhile (· != '=') = word :=
  List.takeWhile_eq_self_iff.2 fun _ hc => bne_iff_ne.2 fun heq => h.whole (heq ▸ hc)

theorem opens (h : IsMark word) (words : Vocabulary) (opened : List OpenTag) :
    afterTag words opened word = some (openedBy words word word :: opened) := by
  unfold afterTag
  rw [h.takeWhile_eq]
  split
  · exact absurd rfl h.slash
  · rfl

/-- The tag that the word opens is found by the word after a slash, under whatever else was opened. -/
theorem exists_closes (h : IsMark word) (words : Vocabulary) (hmem : openedBy words word word ∈ opened) :
    ∃ after, afterTag words opened ('/' :: word) = some after := by
  obtain ⟨found, left, hfound, hname⟩ := exists_take? hmem
  have hfault : found.fault? words = none := by
    rw [OpenTag.fault?, if_neg]
    rintro ⟨hhead, -⟩
    rw [hname] at hhead
    exact h.handler (words.handler_of_style word hhead)
  have htake : ('/' :: word).takeWhile (· != '=') = '/' :: word := by
    rw [List.takeWhile_cons_of_pos (by decide), h.takeWhile_eq]
  refine ⟨left, ?_⟩
  unfold afterTag
  rw [htake]
  simp only [closing?, if_neg h.named]
  change take? (words.style word) opened = _ at hfound
  simp [hfound, hfault]

end IsMark

/-- A text whose own tags close nothing may stand between marks. -/
theorem Shows.marked {word : List Char} (hword : IsMark word) (htext : Tags text own)
    (hopen : ∀ inside ∈ own, inside.head? ≠ some '/') (h : Shows rest) :
    Shows ('[' :: (word ++ ']' :: (text ++ '[' :: ('/' :: word ++ ']' :: rest)))) := by
  obtain ⟨tags, htags, hopened⟩ := h
  rcases htext.append_open hword.closing htags with hescaped | hclosed
  · refine ⟨_, hescaped.open_append hword.opening, fun words opened => ?_⟩
    obtain ⟨after, hafter, -⟩ := exists_suffix_of_foldlM hopen words (openedBy words word word :: opened)
    obtain ⟨last, hlast⟩ := hopened words after
    exact ⟨last, by simp [hword.opens, hafter, hlast]⟩
  · refine ⟨_, hclosed.open_append hword.opening, fun words opened => ?_⟩
    obtain ⟨after, hafter, hsuffix⟩ :=
      exists_suffix_of_foldlM hopen words (openedBy words word word :: opened)
    obtain ⟨left, hleft⟩ := hword.exists_closes words (hsuffix.subset List.mem_cons_self)
    obtain ⟨last, hlast⟩ := hopened words left
    exact ⟨last, by simp [hword.opens, hafter, hleft, hlast]⟩

/-- A closing tag may stand in the text. -/
def MayClose (text : List Char) : Prop := ['[', '/'] <:+: text

instance (text : List Char) : Decidable (MayClose text) := inferInstanceAs (Decidable (_ <:+: _))

theorem Shows.marked_text {word : List Char} (hword : IsMark word) (htext : ¬MayClose text)
    (h : Shows rest) : Shows ('[' :: (word ++ ']' :: (text ++ '[' :: ('/' :: word ++ ']' :: rest)))) := by
  obtain ⟨own, hown⟩ := Tags.exists_tags text
  refine h.marked hword hown fun inside hmem hslash => htext ?_
  obtain ⟨after, rfl⟩ := List.head?_eq_some_iff.1 hslash
  exact (List.prefix_append ['[', '/'] after).isInfix.trans (hown.infix_of_mem hmem)

end Bundler.Console
