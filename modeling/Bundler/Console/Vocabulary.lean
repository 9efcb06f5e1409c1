import Bundler.Text.Blank
import Bundler.Text.Cells
import Bundler.Text.Pieces

/-!
# Names in messages

A name between colons stands for an emoji: `:bug:`. After a dash it may say whether the emoji is
meant as text or as a picture. A name between square brackets stands for a style, or for a handler if it
starts with an at sign. What the names mean is left open: a `Vocabulary` says it, and keeps to the laws
that showing a text relies on. `Vocabulary.standard` knows some of the emoji, the short names of styles, and
no handler whose parameters are wrong.
-/

namespace Bundler.Console

/-- A control that no console shows. -/
def isDropped (c : Char) : Bool :=
  c = '\x07' || c = '\x08' || c = '\x0b' || c = '\x0c' || c = '\r'

/-- A character that is not shown itself, but moves what follows it or is left out. -/
def isLayout (c : Char) : Bool := c = '\n' || c = '\t' || isDropped c

/-- The names that messages may use: what a name between colons stands for, the form by which the names of
styles are compared, and what is wrong with the parameters of a handler. An emoji is no longer and no wider
than its name between colons, and only a handler's name is compared as one. -/
structure Vocabulary where
  emoji : List Char → Option (List Char)
  style : List Char → String
  handler : List Char → Option String
  emoji_spec : ∀ name text, emoji name = some text →
    text.length ≤ name.length + 2 ∧ Text.cells text ≤ Text.cells name + 2 ∧ ∀ c ∈ text, isLayout c = false
  handler_of_style : ∀ name, (style name).toList.head? = some '@' → (Text.strip name).head? = some '@'

/-- Emoji and their names, those that file names are likely to hold. -/
def emojiNames : List (String × String) :=
  [("+1", "👍"), ("-1", "👎"), ("100", "💯"), ("__1", "👎"), ("a", "🅰"), ("ab", "🆎"),
   ("abc", "🔤"), ("alien", "👽"), ("ant", "🐜"), ("art", "🎨"), ("atm", "🏧"), ("axe", "🪓"),
   ("b", "🅱"), ("bat", "🦇"), ("bear", "🐻"), ("bed", "🛏"), ("bee", "🐝"), ("bell", "🔔"),
   ("blue_heart", "💙"), ("book", "📖"), ("books", "📚"), ("boom", "💥"), ("bow", "🙇"),
   ("boy", "👦"), ("broken_heart", "💔"), ("bug", "🐛"), ("bulb", "💡"), ("bus", "🚌"),
   ("calendar", "📆"), ("camera", "📷"), ("car", "🚗"), ("cat", "🐱"), ("cd", "💿"), ("cl", "🆑"),
   ("clap", "👏"), ("clipboard", "📋"), ("clock1", "🕐"), ("computer", "💻"),
   ("construction", "🚧"), ("cop", "👮"), ("cow", "🐮"), ("cross_mark", "❌"), ("cry", "😢"),
   ("dna", "🧬"), ("dog", "🐶"), ("dvd", "📀"), ("ear", "👂"), ("egg", "🍳"), ("elf", "🧝"),
   ("email", "✉"), ("end", "🔚"), ("ewe", "🐑"), ("exclamation", "❗"), ("eye", "👁"),
   ("eyes", "👀"), ("fax", "📠"), ("file_folder", "📁"), ("fire", "🔥"), ("floppy_disk", "💾"),
   ("fog", "🌫"), ("gear", "⚙"), ("gem", "💎"), ("ghost", "👻"), ("green_circle", "🟢"),
   ("green_heart", "💚"), ("grin", "😁"), ("gun", "🔫"), ("hammer", "🔨"), ("heart", "❤"),
   ("heavy_check_mark", "✔"), ("hourglass", "⌛"), ("hundred_points", "💯"), ("ice", "🧊"),
   ("id", "🆔"), ("imp", "👿"), ("information", "ℹ"), ("information_source", "ℹ"),
   ("joy", "😂"), ("key", "🔑"), ("keyboard", "⌨"), ("leg", "🦵"), ("leo", "♌"), ("link", "🔗"),
   ("lock", "🔒"), ("m", "Ⓜ"), ("mag", "🔍"), ("man", "👨"), ("memo", "📝"), ("new", "🆕"),
   ("ng", "🆖"), ("no_entry", "⛔"), ("o", "⭕"), ("o2", "🅾"), ("ok", "🆗"), ("om", "🕉"),
   ("on", "🔛"), ("one", "1️⃣"), ("open_file_folder", "📂"), ("owl", "🦉"), ("ox", "🐂"),
   ("package", "📦"), ("page_facing_up", "📄"), ("paperclip", "📎"), ("party_popper", "🎉"),
   ("pen", "🖊"), ("phone", "☎"), ("pie", "🥧"), ("pig", "🐷"), ("pile_of_poo", "💩"),
   ("poop", "💩"), ("pushpin", "📌"), ("question", "❓"), ("ram", "🐏"), ("rat", "🐀"),
   ("recycle", "♻"), ("red_circle", "🔴"), ("red_heart", "❤"), ("robot", "🤖"),
   ("rocket", "🚀"), ("sa", "🈂"), ("six", "6️⃣"), ("ski", "🎿"), ("skull", "💀"),
   ("smile", "😄"), ("smiley", "😃"), ("snake", "🐍"), ("sob", "😭"), ("sos", "🆘"),
   ("sparkles", "✨"), ("star", "⭐"), ("star2", "🌟"), ("stop_sign", "🛑"), ("sun", "☀"),
   ("tada", "🎉"), ("tea", "🍵"), ("ten", "🔟"), ("thumbs_down", "👎"), ("thumbs_up", "👍"),
   ("thumbsdown", "👎"), ("thumbsup", "👍"), ("tm", "™"), ("top", "🔝"), ("turtle", "🐢"),
   ("tv", "📺"), ("two", "2️⃣"), ("unlock", "🔓"), ("up", "🆙"), ("v", "✌"), ("vhs", "📼"),
   ("vs", "🆚"), ("warning", "⚠"), ("wastebasket", "🗑"), ("wave", "👋"), ("wc", "🚾"),
   ("whale", "🐳"), ("white_check_mark", "✅"), ("wrench", "🔧"), ("x", "❌"), ("yen", "💴"),
   ("yum", "😋"), ("zap", "⚡"), ("zzz", "💤")]

/-- The name of a variant, and the character that asks for it. -/
def variants : List (String × Char) := [("-text", '\ufe0e'), ("-emoji", '\ufe0f')]

def emojiNamed? (name : List Char) : Option (List Char) :=
  let asked := variants.find? fun (ending, _) => ending.toList.isSuffixOf name
  let bare := match asked with
    | some (ending, _) => name.take (name.length - ending.length)
    | none => name
  (emojiNames.lookup (String.ofList (bare.map Char.toLower))).map fun text =>
    text.toList ++ (asked.map (·.2)).toList

theorem emojiNames_spec {entry : String × String} (h : entry ∈ emojiNames) :
    entry.2.toList.length ≤ entry.1.toList.length + 2 ∧
      Text.cells entry.2.toList ≤ Text.cells entry.1.toList + 2 ∧ ∀ c ∈ entry.2.toList, isLayout c = false := by
  -- one character has at most two cells, so that few texts are measured
  have hall : (emojiNames.all fun entry => decide (entry.2.toList.length ≤ entry.1.toList.length + 2)
      && ((decide (entry.2.toList.length = 1) || decide (Text.cells entry.2.toList ≤ Text.cells entry.1.toList + 2))
      && entry.2.toList.all (!isLayout ·))) = true := by decide +kernel
  have hentry := List.all_eq_true.1 hall entry h
  simp only [Bool.and_eq_true, Bool.or_eq_true, decide_eq_true_eq] at hentry
  obtain ⟨hlength, hcells, hplain⟩ := hentry
  refine ⟨hlength, hcells.elim (fun hone => ?_) id, by simpa using hplain⟩
  obtain ⟨c, hc⟩ := List.length_eq_one_iff.1 hone
  rw [hc, Text.cells_cons, Text.cells_nil]
  exact Nat.le_trans (Text.cellsOf_le_two c) (Nat.le_add_left 2 _)

theorem variants_spec {variant : String × Char} (h : variant ∈ variants) :
    0 < variant.1.toList.length ∧ Text.cellsOf variant.2 ≤ Text.cells variant.1.toList ∧
      isLayout variant.2 = false := by
  have hall : (variants.all fun variant => decide (0 < variant.1.toList.length)
      && (decide (Text.cellsOf variant.2 ≤ Text.cells variant.1.toList)
      && !isLayout variant.2)) = true := by decide +kernel
  simpa using List.all_eq_true.1 hall variant h

/-- A character is in small letters already, or it is a capital of ASCII and the small one lies 32 behind it. -/
theorem toLower_eq_or (c : Char) :
    c.toLower = c ∨ 65 ≤ c.toNat ∧ c.toNat ≤ 90 ∧ c.toLower.toNat = c.toNat + 32 := by
  by_cases hupper : c.val ≥ 'A'.val ∧ c.val ≤ 'Z'.val
  · have hge : 65 ≤ c.toNat := hupper.1
    have hle : c.toNat ≤ 90 := hupper.2
    refine .inr ⟨hge, hle, ?_⟩
    have hcode : c.toLower.toNat = (c.val + ('a'.val - 'A'.val)).toNat := congrArg Char.toNat (dif_pos hupper)
    have hshift : ('a'.val - 'A'.val).toNat = 32 := rfl
    rw [hcode, UInt32.toNat_add, hshift]
    exact Nat.mod_eq_of_lt (by simp only [Char.toNat] at hle; omega)
  · exact .inl (dif_neg hupper)

theorem cellsOf_toLower (c : Char) : Text.cellsOf c.toLower = Text.cellsOf c := by
  obtain hsame | ⟨hge, hle, hlower⟩ := toLower_eq_or c
  · rw [hsame]
  have hone : ∀ d : Char, 32 ≤ d.toNat → d.toNat < 127 → Text.cellsOf d = 1 := by
    intro d hlow hhigh
    rw [Text.cellsOf, if_neg (Nat.not_lt.2 hlow), if_pos hhigh]
  rw [hone c (by omega) (by omega), hone c.toLower (by omega) (by omega)]

theorem cells_map_toLower (text : List Char) : Text.cells (text.map Char.toLower) = Text.cells text := by
  induction text with
  | nil => rfl
  | cons c rest ih => simp [cellsOf_toLower, ih]

theorem emojiNamed?_spec {name emoji : List Char} (h : emojiNamed? name = some emoji) :
    emoji.length ≤ name.length + 2 ∧ Text.cells emoji ≤ Text.cells name + 2 ∧
      ∀ c ∈ emoji, isLayout c = false := by
  have hlookup : ∀ {bare : List Char} {text : String},
      emojiNames.lookup (String.ofList (bare.map Char.toLower)) = some text →
      text.toList.length ≤ bare.length + 2 ∧ Text.cells text.toList ≤ Text.cells bare + 2 ∧
        ∀ c ∈ text.toList, isLayout c = false := by
    intro bare text hfound
    obtain ⟨before, after, hsplit, -⟩ := List.lookup_eq_some_iff.1 hfound
    have hmem : (String.ofList (bare.map Char.toLower), text) ∈ emojiNames := by simp [hsplit]
    simpa only [String.toList_ofList, List.length_map, cells_map_toLower] using emojiNames_spec hmem
  rw [emojiNamed?] at h
  cases hasked : variants.find? fun variant => variant.1.toList.isSuffixOf name with
  | none =>
    simp only [hasked, Option.map_eq_some_iff] at h
    obtain ⟨text, htext, rfl⟩ := h
    simpa using hlookup htext
  | some variant =>
    obtain ⟨ending, mark⟩ := variant
    simp only [hasked, Option.map_eq_some_iff] at h
    obtain ⟨text, htext, rfl⟩ := h
    obtain ⟨hlength, hcells, hplain⟩ := hlookup htext
    obtain ⟨hpos, hmark, hshown⟩ := variants_spec (List.mem_of_find?_eq_some hasked)
    have hending := List.find?_some hasked
    obtain ⟨bare, rfl⟩ := List.isSuffixOf_iff_suffix.1 hending
    have hbare : (bare ++ ending.toList).take ((bare ++ ending.toList).length - ending.length) = bare := by
      rw [List.length_append, String.length_toList, Nat.add_sub_cancel]
      exact List.take_left
    dsimp only at hpos hmark hshown hlength hcells ⊢
    rw [hbare] at hlength hcells
    refine ⟨?_, ?_, ?_⟩
    · simp only [Option.map_some, Option.toList_some, List.length_append, List.length_singleton]
      omega
    · simp only [Option.map_some, Option.toList_some, Text.cells_append, Text.cells_cons, Text.cells_nil]
      omega
    · simpa [or_imp, forall_and, hshown] using hplain

def shortStyles : List (String × String) :=
  [("b", "bold"), ("d", "dim"), ("i", "italic"), ("u", "underline"), ("r", "reverse"),
   ("c", "conceal"), ("s", "strike"), ("uu", "underline2"), ("o", "overline")]

/-- The name of a style in small letters, written out if it is a short one. -/
def styleName (chars : List Char) : String :=
  let name := String.ofList ((Text.strip chars).map Char.toLower)
  (shortStyles.lookup name).getD name

theorem eq_at_of_toLower {c : Char} (h : c.toLower = '@') : c = '@' := by
  obtain hsame | ⟨hge, hle, hlower⟩ := toLower_eq_or c
  · exact hsame.symm.trans h
  · rw [h] at hlower
    have hat : ('@' : Char).toNat = 64 := rfl
    omega

/-- No short name and no style that it stands for is that of a handler. -/
theorem head?_strip_of_styleName {chars : List Char} (h : (styleName chars).toList.head? = some '@') :
    (Text.strip chars).head? = some '@' := by
  rw [styleName] at h
  cases hshort : shortStyles.lookup (String.ofList ((Text.strip chars).map Char.toLower)) with
  | some style =>
    obtain ⟨before, after, hsplit, -⟩ := List.lookup_eq_some_iff.1 hshort
    have hnone : ∀ entry ∈ shortStyles, entry.2.toList.head? ≠ some '@' := by decide
    rw [hshort] at h
    have hmem : (String.ofList ((Text.strip chars).map Char.toLower), style) ∈ shortStyles := by simp [hsplit]
    exact absurd h (hnone _ hmem)
  | none =>
    rw [hshort, Option.getD_none, String.toList_ofList, List.head?_map, Option.map_eq_some_iff] at h
    obtain ⟨c, hc, hlower⟩ := h
    rw [hc, eq_at_of_toLower hlower]

/-- The names of the tables, in small letters. -/
def Vocabulary.standard : Vocabulary where
  emoji := emojiNamed?
  style := styleName
  handler _ := none
  emoji_spec _ _ := emojiNamed?_spec
  handler_of_style _ := head?_strip_of_styleName

/-- The characters up to the next colon, if no blank comes first, and those after it. -/
def upToColon? (chars : List Char) : Option (List Char × List Char) :=
  (Text.cut? ':' chars).filter fun (name, _) => !name.any Text.isBlank

/-- The text with emoji in the place of their names. The number bounds the characters left. -/
def withEmojiFrom (words : Vocabulary) : Nat → List Char → List Char
  | 0, chars => chars
  | _, [] => []
  | left + 1, ':' :: rest =>
    match upToColon? rest with
    | none => ':' :: withEmojiFrom words left rest
    | some (name, after) =>
      (words.emoji name).getD (':' :: name ++ [':']) ++ withEmojiFrom words left after
  | left + 1, c :: rest => c :: withEmojiFrom words left rest

/-- The text with emoji in the place of their names. -/
def withEmoji (words : Vocabulary) (text : List Char) : List Char :=
  withEmojiFrom words text.length text

end Bundler.Console
