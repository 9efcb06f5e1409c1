import Bundler.Data.Toml
import Bundler.Proofs.Attempt

/-!
# Values of documents

A caller can put values into a configuration that no text stands for. A document that is read from a text
holds none of them (`isNative_of_parse`).
-/

namespace Bundler.Data

variable {α β ε : Type}

/-- Nothing in the value is foreign. -/
inductive Value.IsNative : Value ε → Prop
  | null : IsNative .null
  | bool (value : Bool) : IsNative (.bool value)
  | int (value : Int) : IsNative (.int value)
  | float (value : Real) : IsNative (.float value)
  | string (value : String) : IsNative (.string value)
  | moment (value : Moment) : IsNative (.moment value)
  | list {items : List (Value ε)} (h : ∀ item ∈ items, IsNative item) : IsNative (.list items)
  | table {fields : List (String × Value ε)} (h : ∀ field ∈ fields, IsNative field.2) :
    IsNative (.table fields)

open Value (IsNative)

def NativeFields (fields : List (String × Value ε)) : Prop := ∀ field ∈ fields, field.2.IsNative

variable {fields : List (String × Value ε)} {item : Value ε} {name : String}

theorem nativeFields_of_table (h : (Value.table fields).IsNative) : NativeFields fields := by
  cases h with
  | table h => exact h

theorem isNative_of_list {items : List (Value ε)} (h : (Value.list items).IsNative) :
    ∀ item ∈ items, item.IsNative := by
  cases h with
  | list h => exact h

theorem nativeFields_nil : NativeFields ([] : List (String × Value ε)) := nofun

theorem NativeFields.of_fieldOf? (hfields : NativeFields fields) (h : fieldOf? name fields = some item) :
    item.IsNative := by
  obtain ⟨field, hfound, rfl⟩ := Option.map_eq_some_iff.1 h
  exact hfields field (List.mem_of_find?_eq_some hfound)

theorem NativeFields.setField (hfields : NativeFields fields) (hitem : item.IsNative) :
    NativeFields (setField name item fields) := by
  induction fields with
  | nil => exact List.forall_mem_singleton.2 hitem
  | cons first rest ih =>
    rw [NativeFields, List.forall_mem_cons] at hfields
    rw [Data.setField]
    split
    · exact List.forall_mem_cons.2 ⟨hitem, hfields.2⟩
    · exact List.forall_mem_cons.2 ⟨hfields.1, ih hfields.2⟩

theorem NativeFields.append (hfields : NativeFields fields) (hitem : item.IsNative) :
    NativeFields (fields ++ [(name, item)]) :=
  List.forall_mem_append.2 ⟨hfields, List.forall_mem_singleton.2 hitem⟩

namespace Toml

/-! ### Readers -/

def Gives (property : α → Prop) (reader : Reader α) : Prop :=
  ∀ chars result rest, reader chars = .ok (result, rest) → property result

variable {property : α → Prop} {other : β → Prop}

theorem gives_pure {result : α} (h : property result) : Gives property (pure result) := by
  intro chars found rest hread
  cases hread
  exact h

theorem gives_stop (reason : Reason) : Gives property (stop reason) := by
  intro chars result rest hread
  cases hread

theorem gives_bind {reader : Reader β} {next : β → Reader α} (hreader : Gives other reader)
    (hnext : ∀ found, other found → Gives property (next found)) : Gives property (reader >>= next) := by
  intro chars result rest hread
  obtain ⟨⟨found, middle⟩, hfound, hread⟩ := bind_eq_ok_iff.1 hread
  exact hnext found (hreader chars found middle hfound) middle result rest hread

theorem gives_of_next {reader : Reader β} {next : β → Reader α}
    (hnext : ∀ found, Gives property (next found)) : Gives property (reader >>= next) :=
  gives_bind (fun _ _ _ _ => trivial) fun found (_ : True) => hnext found

/-! ### Values -/

theorem isNative_words {word : List Char × Value ε} (h : word ∈ words) : word.2.IsNative := by
  simp only [words, List.mem_cons, List.not_mem_nil, or_false] at h
  obtain rfl | rfl := h
  · exact .bool _
  · exact .bool _

theorem isNative_numberWords {word : List Char × Value ε} (h : word ∈ numberWords) :
    word.2.IsNative := by
  simp only [numberWords, List.mem_cons, List.not_mem_nil, or_false] at h
  obtain rfl | rfl | rfl | rfl | rfl | rfl := h <;> exact .float _

theorem isNative_number? {chars rest : List Char} (h : number? chars = some (.ok (item, rest))) :
    item.IsNative := by
  unfold number? at h
  split at h
  split at h
  split at h
  · cases h
  split at h
  split at h
  · simp only at h
    split at h
    · cases h
    · cases h
      exact .int _
  · cases h
    exact .float _

theorem gives_simpleValue : Gives (@IsNative ε) simpleValue := by
  unfold simpleValue
  refine gives_of_next fun chars => ?_
  split
  · next word found hfind =>
    exact gives_of_next fun _ => gives_pure (isNative_words (List.mem_of_find?_eq_some hfind))
  split
  · split
    · exact gives_of_next fun _ => gives_pure (.moment _)
    · exact gives_stop _
  split
  · exact gives_of_next fun _ => gives_pure (.moment _)
  split
  · exact gives_of_next fun _ => gives_pure (.int _)
  split
  · next value rest hnumber =>
    exact gives_of_next fun _ => gives_pure (isNative_number? hnumber)
  · intro chars result rest hread
    cases hread
  split
  · next word found hfind =>
    exact gives_of_next fun _ => gives_pure (isNative_numberWords (List.mem_of_find?_eq_some hfind))
  · exact gives_stop _

/-! ### Tables -/

theorem nativeFields_addField {changed : List (String × Value ε)} (hitem : item.IsNative)
    (hfields : NativeFields fields) (h : addField name item fields = .ok changed) :
    NativeFields changed := by
  unfold addField at h
  split at h
  · cases h
  · cases h
    exact hfields.append hitem

theorem nativeFields_addElement {changed : List (String × Value ε)} (hfields : NativeFields fields)
    (h : addElement name fields = .ok changed) : NativeFields changed := by
  have hempty : (Value.table ([] : List (String × Value ε))).IsNative := .table nativeFields_nil
  unfold addElement at h
  split at h
  · cases h
    exact hfields.append (.list (List.forall_mem_singleton.2 hempty))
  · next items hfield =>
    cases h
    exact hfields.setField (.list (List.forall_mem_append.2
      ⟨isNative_of_list (hfields.of_fieldOf? hfield), List.forall_mem_singleton.2 hempty⟩))
  · cases h

/-- A change that leaves nothing foreign in one table leaves nothing foreign in the table around it. -/
theorem nativeFields_changeTable {throughLists : Bool} {path : Key}
    {change : List (String × Value ε) → Except Blocked (List (String × Value ε))}
    {changed : List (String × Value ε)}
    (hchange : ∀ fields changed, NativeFields fields → change fields = .ok changed →
      NativeFields changed)
    (hfields : NativeFields fields) (h : changeTable throughLists change path fields = .ok changed) :
    NativeFields changed := by
  induction path generalizing fields changed with
  | nil => exact hchange fields changed hfields h
  | cons step path ih =>
    rw [changeTable] at h
    split at h
    · obtain ⟨inner, hinner, h⟩ := bind_eq_ok_iff.1 h
      cases h
      exact hfields.setField (.table (ih nativeFields_nil hinner))
    · next inner hfield =>
      obtain ⟨table, htable, h⟩ := bind_eq_ok_iff.1 h
      cases h
      exact hfields.setField (.table (ih (nativeFields_of_table (hfields.of_fieldOf? hfield)) htable))
    · next items hfield =>
      have hitems := isNative_of_list (hfields.of_fieldOf? hfield)
      split at h
      · next inner hlast =>
        obtain ⟨table, htable, h⟩ := bind_eq_ok_iff.1 h
        cases h
        have hinner := nativeFields_of_table (hitems _ (List.mem_of_getLast? hlast))
        refine hfields.setField (.list (List.forall_mem_append.2 ⟨fun item hitem => ?_, ?_⟩))
        · exact hitems item (List.dropLast_subset items hitem)
        · exact List.forall_mem_singleton.2 (.table (ih hinner htable))
      · cases h
    · cases h

/-- The four readers of values call one another, so what they read is followed together. -/
theorem gives_values (fuel : Nat) :
    Gives (@IsNative ε) (value fuel) ∧
      Gives (fun items => ∀ item ∈ items, @IsNative ε item) (elements fuel) ∧
      Gives (fun read => @IsNative ε read.2) (pair fuel) ∧
      ∀ marks found, NativeFields found → Gives (@NativeFields ε) (inlineFields fuel marks found) := by
  induction fuel with
  | zero =>
    exact ⟨gives_stop _, gives_stop _, gives_stop _, fun _ _ _ => gives_stop _⟩
  | succ fuel ih =>
    obtain ⟨hvalue, helements, hpair, hinline⟩ := ih
    refine ⟨?_, ?_, ?_, fun marks found hfound => ?_⟩
    · rw [value]
      refine gives_of_next fun chars => ?_
      split
      · simp only
        split <;> exact gives_of_next fun _ => gives_pure (.string _)
      · simp only
        split <;> exact gives_of_next fun _ => gives_pure (.string _)
      · refine gives_of_next fun _ => gives_of_next fun _ => ?_
        exact gives_bind helements fun items hitems => gives_pure (.list hitems)
      · refine gives_of_next fun _ => gives_of_next fun _ => gives_of_next fun closed => ?_
        split
        · exact gives_of_next fun _ => gives_pure (.table nativeFields_nil)
        · exact gives_bind (hinline [] [] nativeFields_nil) fun fields hfields =>
            gives_pure (.table hfields)
      · exact gives_simpleValue
    · rw [elements]
      refine gives_of_next fun closed => ?_
      split
      · exact gives_of_next fun _ => gives_pure nofun
      refine gives_bind hvalue fun item hitem => gives_of_next fun _ => gives_of_next fun _ => ?_
      refine gives_of_next fun closed => ?_
      split
      · exact gives_of_next fun _ => gives_pure (List.forall_mem_singleton.2 hitem)
      refine gives_of_next fun more => ?_
      split
      · refine gives_of_next fun _ => gives_of_next fun _ => gives_of_next fun _ => ?_
        exact gives_bind helements fun items hitems =>
          gives_pure (List.forall_mem_cons.2 ⟨hitem, hitems⟩)
      · exact gives_stop _
    · rw [pair]
      refine gives_of_next fun path => gives_of_next fun equals => ?_
      split
      · refine gives_of_next fun _ => gives_of_next fun _ => ?_
        exact gives_bind hvalue fun item hitem => gives_pure hitem
      · exact gives_stop _
    · rw [inlineFields]
      refine gives_bind hpair fun read hitem => ?_
      simp only
      split
      · exact gives_stop _
      split
      · exact gives_stop _
      · exact gives_stop _
      next changed hchanged =>
      have hchanged : NativeFields changed :=
        nativeFields_changeTable (fun _ _ => nativeFields_addField hitem) hfound hchanged
      refine gives_of_next fun _ => gives_of_next fun closed => ?_
      split
      · exact gives_of_next fun _ => gives_pure hchanged
      refine gives_of_next fun more => ?_
      split
      · exact gives_of_next fun _ => gives_of_next fun _ => hinline _ _ hchanged
      · exact gives_stop _

/-! ### Documents -/

/-- The table built so far has nothing foreign. -/
def Document.IsNative (document : Document ε) : Prop := NativeFields document.fields

variable {document : Document ε}

theorem gives_readField (h : document.IsNative) : Gives Document.IsNative (readField document) := by
  unfold readField
  refine gives_of_next fun _ => gives_bind (gives_values _).2.2.1 fun read hitem => ?_
  simp only
  split
  · exact gives_stop _
  split
  · exact gives_stop _
  split
  · exact gives_stop _
  · next changed hchanged =>
    exact gives_pure (nativeFields_changeTable (fun _ _ => nativeFields_addField hitem) h hchanged)

theorem gives_readTable (h : document.IsNative) : Gives Document.IsNative (readTable document) := by
  unfold readTable
  refine gives_of_next fun _ => gives_of_next fun _ => gives_of_next fun path => ?_
  split
  · exact gives_stop _
  split
  · exact gives_stop _
  next changed hchanged =>
  refine gives_of_next fun closed => ?_
  split
  · refine gives_of_next fun _ => gives_pure (nativeFields_changeTable ?_ h hchanged)
    intro fields changed hfields hsame
    cases hsame
    exact hfields
  · exact gives_stop _

theorem gives_readElement (h : document.IsNative) : Gives Document.IsNative (readElement document) := by
  unfold readElement
  refine gives_of_next fun _ => gives_of_next fun _ => gives_of_next fun path => ?_
  split
  · exact gives_stop _
  split
  · exact gives_stop _
  next changed hchanged =>
  refine gives_of_next fun closed => ?_
  split
  · exact gives_of_next fun _ =>
      gives_pure (nativeFields_changeTable (fun _ _ => nativeFields_addElement) h hchanged)
  · exact gives_stop _

theorem gives_readStatement (h : document.IsNative) :
    Gives Document.IsNative (readStatement document) := by
  unfold readStatement
  refine gives_of_next fun chars => ?_
  split
  · exact gives_pure h
  · simp only
    split
    · exact gives_readElement h
    · exact gives_readTable h
  · split
    · exact gives_readField h
    · exact gives_stop _
  · exact gives_pure h

theorem gives_readLines {fuel : Nat} (h : document.IsNative) :
    Gives Document.IsNative (readLines fuel document) := by
  induction fuel generalizing document with
  | zero => exact gives_pure h
  | succ fuel ih =>
    rw [readLines]
    refine gives_of_next fun _ => gives_of_next fun chars => ?_
    split
    · exact gives_pure h
    · exact gives_of_next fun _ => ih h
    refine gives_bind (gives_readStatement h) fun read hread => ?_
    refine gives_of_next fun _ => gives_of_next fun _ => gives_of_next fun chars => ?_
    split
    · exact gives_pure hread
    · exact gives_of_next fun _ => ih hread
    · exact gives_stop _

theorem isNative_of_parse {text : String} (h : parse text = .ok fields) : NativeFields fields := by
  unfold parse at h
  simp only at h
  split at h
  · next document rest hread =>
    cases h
    have hempty : ({} : Document ε).IsNative := nativeFields_nil
    exact gives_readLines hempty _ _ _ hread
  all_goals cases h

end Toml
end Bundler.Data
