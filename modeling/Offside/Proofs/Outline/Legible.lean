import Mathlib.Data.List.Basic
import Offside.Outline.Basic

/-!
# Legible outlines

An outline is **legible** if its heads, labels and fields are words, without a space, a line break
or a colon in them, and its numbers can be written. So it can be written itself, and the heading of
a node, which is its head and its fields with spaces between, falls apart into these again.
-/

namespace Offside

/-! ### Taking texts apart -/

/-- Texts without a character in them are told from what joins them with that character between. -/
theorem Text.eq_of_intercalate_eq {separator : String} {c : Char} (hsep : separator.toList = [c])
    {texts texts' : List String} (hne : texts ≠ []) (hne' : texts' ≠ [])
    (htexts : ∀ text ∈ texts, c ∉ text.toList) (htexts' : ∀ text ∈ texts', c ∉ text.toList)
    (h : String.intercalate separator texts = String.intercalate separator texts') :
    texts = texts' := by
  have hsplit : ∀ texts : List String, texts ≠ [] → (∀ text ∈ texts, c ∉ text.toList) →
      (String.intercalate separator texts).toList.splitOn c = texts.map String.toList := by
    intro texts hne htexts
    rw [String.toList_intercalate, hsep]
    refine List.splitOn_intercalate c ?_ (List.map_eq_nil_iff.not.mpr hne)
    exact List.forall_mem_map.mpr htexts
  have hlists := hsplit texts hne htexts
  rw [h, hsplit texts' hne' htexts'] at hlists
  exact List.map_injective_iff.mpr (fun _ _ => String.toList_injective) hlists.symm

/-- A list without an element in it is told from what follows that element. -/
private theorem Text.append_cons_inj {c : Char} {front front' back back' : List Char}
    (hfront : c ∉ front) (hfront' : c ∉ front') (h : front ++ c :: back = front' ++ c :: back') :
    front = front' ∧ back = back' := by
  have htake : ∀ front back : List Char, c ∉ front →
      (front ++ c :: back).takeWhile (· != c) = front := by
    intro front back hfront
    rw [List.takeWhile_append_of_pos fun a ha => bne_iff_ne.mpr (ne_of_mem_of_not_mem ha hfront),
      List.takeWhile_cons_of_neg (by simp), List.append_nil]
  have hfronts := htake front back hfront
  rw [h, htake front' back' hfront'] at hfronts
  obtain rfl := hfronts
  exact ⟨rfl, (List.cons.inj (List.append_cancel_left h)).2⟩

private theorem Text.mem_of_mem_intercalate {c : Char} {separator : List Char}
    {pieces : List (List Char)}
    (h : c ∈ separator.intercalate pieces) : c ∈ separator ∨ ∃ piece ∈ pieces, c ∈ piece := by
  induction pieces with
  | nil => cases h
  | cons piece pieces ih =>
    cases pieces with
    | nil =>
      rw [List.intercalate_singleton] at h
      exact .inr ⟨piece, List.mem_singleton_self piece, h⟩
    | cons next pieces =>
      rw [List.intercalate_cons_cons, List.mem_append, List.mem_append] at h
      rcases h with (h | h) | h
      · exact .inr ⟨piece, List.mem_cons_self, h⟩
      · exact .inl h
      · refine (ih h).imp_right ?_
        rintro ⟨other, hother, hc⟩
        exact ⟨other, List.mem_cons_of_mem _ hother, hc⟩

/-- Lists that one function takes to the same list, another one does too, if it does so with their
elements. -/
theorem map_eq_of_map_eq {α β γ : Type} {f : α → β} {g : α → γ} {l l' : List α}
    (himp : ∀ a ∈ l, ∀ a' ∈ l', f a = f a' → g a = g a') (h : l.map f = l'.map f) :
    l.map g = l'.map g := by
  induction l generalizing l' with
  | nil =>
    obtain rfl := List.map_eq_nil_iff.mp h.symm
    rfl
  | cons a l ih =>
    cases l' with
    | nil => cases h
    | cons a' l' =>
      obtain ⟨hfirst, hrest⟩ := List.cons.inj h
      have hmore := ih (fun b hb b' hb' =>
        himp b (List.mem_cons_of_mem _ hb) b' (List.mem_cons_of_mem _ hb')) hrest
      rw [List.map_cons, List.map_cons, hmore,
        himp a List.mem_cons_self a' List.mem_cons_self hfirst]

namespace Outline

/-! ### Legible outlines -/

/-- Whether a text is a word: there is something, and no space, line break or colon in it. -/
def isWord (text : String) : Bool :=
  !text.toList.isEmpty && text.toList.all fun c => c != ' ' && c != '\n' && c != ':'

/-- Whether a text can be the key of a field: a word without an equals sign. -/
def isKey (text : String) : Bool :=
  isWord text && text.toList.all (· != '=')

/-- Whether what a field says can be written as a word. -/
def isLegibleValue (value : FieldValue) : Bool :=
  value.isWritable && isWord value.render

mutual

/-- Whether an outline is **legible**. -/
def isLegible : Outline → Bool
  | node head fields parts =>
    isWord head && fields.all (fun field => isKey field.1 && isLegibleValue field.2) &&
      areLegible parts

/-- Whether the parts below a node are legible, and their labels are words. -/
def areLegible : List (Option String × Outline) → Bool
  | [] => true
  | (label, part) :: rest => label.all isWord && isLegible part && areLegible rest

end

/-- A field with its text in its place. -/
def spelledField (field : String × FieldValue) : String × FieldValue :=
  (field.1, .text field.2.render)

mutual

/-- An outline with the text of its numbers in their place. -/
def spelled : Outline → Outline
  | node head fields parts => node head (fields.map spelledField) (spelledParts parts)

/-- Parts with the text of their numbers in their place. -/
def spelledParts : List (Option String × Outline) → List (Option String × Outline)
  | [] => []
  | (label, part) :: rest => (label, spelled part) :: spelledParts rest

end

/-- A word has characters, and no space, line end or colon is among them. -/
theorem isWord_iff {text : String} :
    isWord text = true ↔
      text.toList ≠ [] ∧ ∀ c ∈ text.toList, c ≠ ' ' ∧ c ≠ '\n' ∧ c ≠ ':' := by
  simp [isWord, and_assoc]

private theorem isKey_iff {text : String} :
    isKey text = true ↔ isWord text = true ∧ '=' ∉ text.toList := by
  rw [isKey, Bool.and_eq_true, List.all_eq_true]
  refine and_congr_right fun _ => ⟨fun h hc => bne_iff_ne.mp (h _ hc) rfl, fun h c hc => ?_⟩
  exact bne_iff_ne.mpr (ne_of_mem_of_not_mem hc h)

theorem isLegible_node {head : String} {fields : List (String × FieldValue)}
    {parts : List (Option String × Outline)} :
    (node head fields parts).isLegible = true ↔
      isWord head = true ∧
        (∀ field ∈ fields, isKey field.1 = true ∧ isLegibleValue field.2 = true) ∧
        areLegible parts = true := by
  simp [isLegible, and_assoc]

theorem areLegible_cons {label : Option String} {part : Outline}
    {rest : List (Option String × Outline)} :
    areLegible ((label, part) :: rest) = true ↔
      (∀ text ∈ label, isWord text = true) ∧ part.isLegible = true ∧ areLegible rest = true := by
  rw [areLegible, Bool.and_eq_true, Bool.and_eq_true, and_assoc, Option.all_eq_true]
  rfl

section Parts

variable {head key label : String} {value : FieldValue} {part : Outline}
  {parts : List (Option String × Outline)}

theorem isLegible_node_nil (hhead : isWord head = true) (hparts : areLegible parts = true) :
    (node head [] parts).isLegible = true :=
  isLegible_node.mpr ⟨hhead, List.forall_mem_nil _, hparts⟩

theorem isLegible_node_singleton (hhead : isWord head = true) (hkey : isKey key = true)
    (hvalue : isLegibleValue value = true) (hparts : areLegible parts = true) :
    (node head [(key, value)] parts).isLegible = true :=
  isLegible_node.mpr ⟨hhead, List.forall_mem_singleton.mpr ⟨hkey, hvalue⟩, hparts⟩

theorem areLegible_some (hlabel : isWord label = true) (hpart : part.isLegible = true)
    (hparts : areLegible parts = true) : areLegible ((some label, part) :: parts) = true :=
  areLegible_cons.mpr ⟨fun _ h => Option.some.inj h ▸ hlabel, hpart, hparts⟩

end Parts

mutual

/-- A legible outline can be written. -/
theorem isWritable_of_isLegible : ∀ outline : Outline, outline.isLegible = true →
    outline.isWritable = true
  | node head fields parts, h => by
    obtain ⟨-, hfields, hparts⟩ := isLegible_node.mp h
    refine Bool.and_eq_true_iff.mpr ⟨List.all_eq_true.mpr fun field hfield => ?_,
      areWritable_of_areLegible parts hparts⟩
    exact (Bool.and_eq_true_iff.mp (hfields field hfield).2).1

/-- Parts that are legible can be written. -/
theorem areWritable_of_areLegible : ∀ parts : List (Option String × Outline),
    areLegible parts = true → areWritable parts = true
  | [], _ => rfl
  | (label, part) :: rest, h => by
    obtain ⟨-, hpart, hrest⟩ := areLegible_cons.mp h
    exact Bool.and_eq_true_iff.mpr
      ⟨isWritable_of_isLegible part hpart, areWritable_of_areLegible rest hrest⟩

end

/-! ### Headings -/

/-- A field as it is written. -/
def fieldText (field : String × FieldValue) : String :=
  field.1 ++ "=" ++ field.2.render

/-- What the line of a node says: its head and its fields. -/
def heading (head : String) (fields : List (String × FieldValue)) : String :=
  String.intercalate " " (head :: fields.map fieldText)

section Fields

variable {field field' : String × FieldValue}
  (hfield : isKey field.1 = true ∧ isLegibleValue field.2 = true)

include hfield

/-- A field is written as one word. -/
private theorem isWord_fieldText : isWord (fieldText field) = true := by
  have hkey := isWord_iff.mp (isKey_iff.mp hfield.1).1
  have hvalue := isWord_iff.mp (Bool.and_eq_true_iff.mp hfield.2).2
  refine isWord_iff.mpr ⟨by simp [fieldText], fun c hc => ?_⟩
  rw [fieldText, String.toList_append, String.toList_append, List.append_assoc] at hc
  rcases List.mem_append.mp hc with hc | hc
  · exact hkey.2 c hc
  · rcases List.mem_cons.mp hc with rfl | hc
    · decide
    · exact hvalue.2 c hc

/-- A field falls apart into its key and the text of its value. -/
private theorem spelledField_eq_of_fieldText_eq
    (hfield' : isKey field'.1 = true ∧ isLegibleValue field'.2 = true)
    (h : fieldText field = fieldText field') : spelledField field = spelledField field' := by
  have hlists : field.1.toList ++ '=' :: field.2.render.toList =
      field'.1.toList ++ '=' :: field'.2.render.toList := by
    have hlists := congrArg String.toList h
    rwa [fieldText, fieldText, String.toList_append, String.toList_append, String.toList_append,
      String.toList_append, List.append_assoc, List.append_assoc] at hlists
  obtain ⟨hkeys, hvalues⟩ :=
    Text.append_cons_inj (isKey_iff.mp hfield.1).2 (isKey_iff.mp hfield'.1).2 hlists
  rw [spelledField, spelledField, String.toList_injective hkeys, String.toList_injective hvalues]

end Fields

section Headings

variable {head head' : String} {fields fields' : List (String × FieldValue)}
  (hhead : isWord head = true)
  (hfields : ∀ field ∈ fields, isKey field.1 = true ∧ isLegibleValue field.2 = true)

include hhead hfields

private theorem isWord_of_mem_heading : ∀ text ∈ head :: fields.map fieldText, isWord text = true :=
  List.forall_mem_cons.mpr
    ⟨hhead, List.forall_mem_map.mpr fun field hfield => isWord_fieldText (hfields field hfield)⟩

/-- A heading falls apart into its words. -/
theorem heading_inj (hhead' : isWord head' = true)
    (hfields' : ∀ field ∈ fields', isKey field.1 = true ∧ isLegibleValue field.2 = true)
    (h : heading head fields = heading head' fields') :
    head = head' ∧ fields.map spelledField = fields'.map spelledField := by
  have hspace : ∀ text, isWord text = true → ' ' ∉ text.toList :=
    fun text htext hc => ((isWord_iff.mp htext).2 _ hc).1 rfl
  have hwords := Text.eq_of_intercalate_eq rfl (List.cons_ne_nil _ _) (List.cons_ne_nil _ _)
    (fun text htext => hspace text (isWord_of_mem_heading hhead hfields text htext))
    (fun text htext => hspace text (isWord_of_mem_heading hhead' hfields' text htext)) h
  obtain ⟨hhead, hwords⟩ := List.cons.inj hwords
  refine ⟨hhead, map_eq_of_map_eq (fun field hfield field' hfield' heq => ?_) hwords⟩
  exact spelledField_eq_of_fieldText_eq (hfields field hfield) (hfields' field' hfield') heq

/-- A heading begins with a character that is no space, and has no line break or colon in it. -/
theorem toList_heading : (∃ c cs, (heading head fields).toList = c :: cs ∧ c ≠ ' ') ∧
    ∀ c ∈ (heading head fields).toList, c ≠ '\n' ∧ c ≠ ':' := by
  have hwords := isWord_of_mem_heading hhead hfields
  obtain ⟨hne, hchars⟩ := isWord_iff.mp hhead
  rw [heading, String.toList_intercalate, List.map_cons]
  constructor
  · obtain ⟨c, cs, hcs⟩ := List.exists_cons_of_ne_nil hne
    have hc : c ≠ ' ' := (hchars c (hcs ▸ List.mem_cons_self)).1
    cases fields with
    | nil =>
      rw [List.map_nil, List.map_nil, List.intercalate_singleton]
      exact ⟨c, cs, hcs, hc⟩
    | cons field fields =>
      rw [List.map_cons, List.map_cons, List.intercalate_cons_cons, hcs]
      exact ⟨c, _, rfl, hc⟩
  · intro c hc
    rw [← List.map_cons] at hc
    rcases Text.mem_of_mem_intercalate hc with hc | ⟨_, hpiece, hc⟩
    · obtain rfl := List.mem_singleton.mp hc
      decide
    · obtain ⟨text, htext, rfl⟩ := List.mem_map.mp hpiece
      exact ((isWord_iff.mp (hwords text htext)).2 c hc).2

end Headings

end Outline

end Offside
