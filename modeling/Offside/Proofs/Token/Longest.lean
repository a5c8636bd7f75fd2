import Offside.Proofs.Token.FirstWord
import Offside.Proofs.Token.Joined
import Mathlib.Data.List.Forall2

/-!
# Longest lexemes

A line comes apart by **maximal munch**: white space is skipped, and elsewhere the longest lexeme is
taken that begins there. `Munches` says this by the classification of texts alone. The scanner does
not look for lexemes in this way: it decides by one character how far a lexeme can go (`extent`),
and classifies what it has cut out. Both come to the same (`scanAt_by_munch`), because a lexeme that
begins with a given character is a lexeme by its shape, and no lexeme goes on beyond the extent.
-/

namespace Offside

/-- A text is **legal** when it is a lexeme of some kind. -/
def Kind.IsLegal (text : List Char) : Prop :=
  (classify (.ofList text)).isSome = true

instance (text : List Char) : Decidable (Kind.IsLegal text) :=
  inferInstanceAs (Decidable (_ = true))

namespace TokenLine

/-- The **longest lexeme** that a text begins with. -/
structure IsLongest (lexeme text : List Char) : Prop where
  front : lexeme <+: text
  legal : Kind.IsLegal lexeme
  longest : ∀ other, other <+: text → Kind.IsLegal other → other.length ≤ lexeme.length

/-- A text that begins at the given offset **munches** to its longest lexemes, each with its offset.
Where a character begins no lexeme there is no going on, and that character is `stuck`. -/
inductive Munches : Nat → List Char → List (Nat × List Char) → (stuck : Option (Nat × Char)) → Prop
  | done (offset : Nat) : Munches offset [] [] none
  | skip {offset : Nat} {c : Char} {cs : List Char} {cuts : List (Nat × List Char)}
      {stuck : Option (Nat × Char)} :
    Text.isBlank c = true → Munches (offset + 1) cs cuts stuck → Munches offset (c :: cs) cuts stuck
  | take {offset : Nat} {c : Char} {cs lexeme : List Char} {cuts : List (Nat × List Char)}
      {stuck : Option (Nat × Char)} :
    Text.isBlank c = false → IsLongest lexeme (c :: cs) →
      Munches (offset + lexeme.length) ((c :: cs).drop lexeme.length) cuts stuck →
        Munches offset (c :: cs) ((offset, lexeme) :: cuts) stuck
  | stuck {offset : Nat} {c : Char} {cs : List Char} :
    Text.isBlank c = false → (∀ front, front <+: c :: cs → ¬ Kind.IsLegal front) →
      Munches offset (c :: cs) [] (some (offset, c))

/-! ### Munching is definite -/

private theorem IsLongest.eq {lexeme lexeme' text : List Char} (h : IsLongest lexeme text)
    (h' : IsLongest lexeme' text) : lexeme = lexeme' := by
  have hlength : lexeme.length = lexeme'.length :=
    Nat.le_antisymm (h'.longest lexeme h.front h.legal) (h.longest lexeme' h'.front h'.legal)
  exact (List.prefix_of_prefix_length_le h.front h'.front (Nat.le_of_eq hlength)).eq_of_length
    hlength

namespace Munches

variable {offset : Nat} {text : List Char} {cuts cuts' : List (Nat × List Char)}
  {stuck stuck' : Option (Nat × Char)}

/-- A text munches in one way. -/
theorem eq (h : Munches offset text cuts stuck) (h' : Munches offset text cuts' stuck') :
    cuts' = cuts ∧ stuck' = stuck := by
  induction h generalizing cuts' stuck' with
  | done =>
    cases h'
    exact ⟨rfl, rfl⟩
  | skip hblank _ ih =>
    cases h' with
    | skip _ hrest => exact ih hrest
    | take hnot | stuck hnot => rw [hblank] at hnot; cases hnot
  | take hnot hlongest _ ih =>
    cases h' with
    | skip hblank => rw [hblank] at hnot; cases hnot
    | take _ hlongest' hrest =>
      obtain rfl := hlongest.eq hlongest'
      obtain ⟨rfl, rfl⟩ := ih hrest
      exact ⟨rfl, rfl⟩
    | stuck _ hnone => exact absurd hlongest.legal (hnone _ hlongest.front)
  | stuck hnot hnone =>
    cases h' with
    | skip hblank => rw [hblank] at hnot; cases hnot
    | take _ hlongest => exact absurd hlongest.legal (hnone _ hlongest.front)
    | stuck => exact ⟨rfl, rfl⟩

/-- Every lexeme stands in the text at its offset. -/
theorem stands (h : Munches offset text cuts stuck) :
    ∀ cut ∈ cuts, offset ≤ cut.1 ∧ cut.2 <+: text.drop (cut.1 - offset) := by
  induction h with
  | done | stuck => exact List.forall_mem_nil _
  | @skip offset c cs cuts stuck _ _ ih =>
    intro cut hcut
    obtain ⟨hle, hfront⟩ := ih cut hcut
    refine ⟨Nat.le_of_succ_le hle, ?_⟩
    rwa [show cut.1 - offset = cut.1 - (offset + 1) + 1 by omega, List.drop_succ_cons]
  | @take offset c cs lexeme cuts stuck _ hlongest _ ih =>
    refine List.forall_mem_cons.mpr ⟨⟨Nat.le_refl offset, ?_⟩, fun cut hcut => ?_⟩
    · rw [Nat.sub_self]
      exact hlongest.front
    · obtain ⟨hle, hfront⟩ := ih cut hcut
      rw [List.drop_drop] at hfront
      refine ⟨by omega, ?_⟩
      rwa [show cut.1 - offset = lexeme.length + (cut.1 - (offset + lexeme.length)) by omega]

/-- Lexemes follow each other without an overlap. -/
private theorem pairwise (h : Munches offset text cuts stuck) :
    cuts.Pairwise fun cut next => cut.1 + cut.2.length ≤ next.1 := by
  induction h with
  | done | stuck => exact .nil
  | skip _ _ ih => exact ih
  | take _ _ hrest ih =>
    exact List.pairwise_cons.mpr ⟨fun next hnext => (hrest.stands next hnext).1, ih⟩

/-- What is stuck is the character of the text at its offset. -/
private theorem getElem?_of_stuck {place : Nat} {c : Char}
    (h : Munches offset text cuts (some (place, c))) :
    offset ≤ place ∧ text[place - offset]? = some c := by
  generalize hstuck : some (place, c) = stuck at h
  induction h with
  | done => cases hstuck
  | @skip offset d cs cuts stuck _ _ ih =>
    obtain ⟨hle, hc⟩ := ih hstuck
    refine ⟨Nat.le_of_succ_le hle, ?_⟩
    rwa [show place - offset = place - (offset + 1) + 1 by omega, List.getElem?_cons_succ]
  | @take offset d cs lexeme cuts stuck _ _ _ ih =>
    obtain ⟨hle, hc⟩ := ih hstuck
    rw [List.getElem?_drop] at hc
    refine ⟨by omega, ?_⟩
    rwa [show place - offset = lexeme.length + (place - (offset + lexeme.length)) by omega]
  | @stuck offset d cs =>
    cases hstuck
    exact ⟨Nat.le_refl _, by rw [Nat.sub_self]; rfl⟩

/-- **Between lexemes** there is white space, up to the character that is stuck. -/
private theorem blank_or_mem (h : Munches offset text cuts stuck) {i : Nat} {c : Char}
    (hc : text[i]? = some c) (hbefore : ∀ place ∈ stuck, offset + i < place.1) :
    Text.isBlank c = true ∨
      ∃ cut ∈ cuts, cut.1 ≤ offset + i ∧ offset + i < cut.1 + cut.2.length := by
  induction h generalizing i with
  | done => cases hc
  | @skip offset d cs cuts stuck hblank _ ih =>
    cases i with
    | zero =>
      cases hc
      exact .inl hblank
    | succ i =>
      have hplace : offset + (i + 1) = offset + 1 + i := by omega
      rw [hplace] at hbefore ⊢
      exact ih hc hbefore
  | @take offset d cs lexeme cuts stuck _ _ _ ih =>
    by_cases hwithin : i < lexeme.length
    · exact .inr ⟨_, List.mem_cons_self, Nat.le_add_right offset i, Nat.add_lt_add_left hwithin _⟩
    · obtain ⟨j, rfl⟩ := Nat.exists_eq_add_of_le (Nat.le_of_not_lt hwithin)
      rw [← Nat.add_assoc] at hbefore ⊢
      have hrest : ((d :: cs).drop lexeme.length)[j]? = some c := List.getElem?_drop.trans hc
      exact (ih hrest hbefore).imp_right fun ⟨cut, hcut, hplace⟩ =>
        ⟨cut, List.mem_cons_of_mem _ hcut, hplace⟩
  | @stuck offset d cs =>
    exact absurd (hbefore _ rfl) (Nat.not_lt.mpr (Nat.le_add_right offset i))

end Munches

/-! ### How far a lexeme goes -/

variable {c : Char} {cs : List Char}

/-- No lexeme goes on beyond the extent of its first character. -/
private theorem length_le_of_isLegal {other : List Char} (hfront : other <+: c :: cs)
    (hlegal : Kind.IsLegal other) : other.length ≤ extent c cs + 1 := by
  obtain ⟨kind, hkind⟩ := Option.isSome_iff_exists.mp hlegal
  have hshape := isLexeme_of_classify hkind
  rw [String.toList_ofList] at hshape
  cases other with
  | nil => exact Nat.zero_le _
  | cons d rest =>
    obtain ⟨rfl, back, rfl⟩ := List.cons_prefix_cons.mp hfront
    rw [List.length_cons, Nat.add_le_add_iff_right]
    -- a run that goes through the rest of the lexeme is as long as that
    have hrun : ∀ p : Char → Bool, rest.all p = true →
        rest.length ≤ ((rest ++ back).takeWhile p).length := by
      intro p hall
      rw [List.takeWhile_append_of_pos (List.all_eq_true.mp hall), List.length_append]
      exact Nat.le_add_right _ _
    rw [isLexeme] at hshape
    rw [extent.eq_def]
    split at hshape
    · next hdigit =>
      rw [if_pos hdigit]
      exact hrun _ hshape
    · next hdigit =>
      rw [if_neg hdigit]
      split at hshape
      · next halpha =>
        rw [if_pos halpha]
        exact hrun _ hshape
      · next halpha =>
        rw [if_neg halpha]
        rw [Bool.and_eq_true] at hshape
        rcases isOperatorRest_iff.mp hshape.2 with rfl | ⟨e, rfl, hpair, -⟩
        · exact Nat.zero_le _
        · rw [List.singleton_append]
          exact Nat.le_of_eq (if_pos hpair).symm

private theorem isLegal_of_isNumeral {text : List Char} (h : Kind.isNumeral text = true) :
    Kind.IsLegal text := by
  have hkind := Kind.classify_eq_integer_iff.mpr ((String.toList_ofList (l := text)).symm ▸ h)
  exact Option.isSome_of_eq_some hkind

private theorem isLegal_of_isName {text : List Char} (h : Kind.isName text = true) :
    Kind.IsLegal text := by
  rw [Kind.IsLegal, Kind.classify, String.toList_ofList]
  split
  · rfl
  · rw [if_pos h]
    split <;> rfl

private theorem extent_le_length (c : Char) (cs : List Char) : extent c cs ≤ cs.length := by
  rw [extent.eq_def]
  split
  · exact (List.takeWhile_prefix _).length_le
  · split
    · exact (List.takeWhile_prefix _).length_le
    · split
      · split
        · exact Nat.le_add_left _ _
        · exact Nat.zero_le _
      · exact Nat.zero_le _

/-- Operators of two characters are lexemes. -/
private theorem isLegal_of_isPair {d : Char} (h : isPair c d = true) : Kind.IsLegal [c, d] := by
  unfold isPair at h
  split at h
  case h_7 => cases h
  all_goals decide

/-- What is cut out is a lexeme, if it is more than one character. -/
private theorem extent_eq_zero_of_not_isLegal (h : ¬ Kind.IsLegal (c :: cs.take (extent c cs))) :
    extent c cs = 0 := by
  by_cases hdigit : c.isDigit = true
  · refine absurd (isLegal_of_isNumeral ?_) h
    have htake : cs.take (extent c cs) = cs.takeWhile Char.isDigit := by
      rw [extent.eq_def, if_pos hdigit]
      exact (List.prefix_iff_eq_take.mp (List.takeWhile_prefix Char.isDigit)).symm
    rw [htake, Kind.isNumeral, List.isEmpty_cons, List.all_cons, hdigit, List.all_takeWhile]
    rfl
  by_cases halpha : c.isAlpha = true
  · refine absurd (isLegal_of_isName ?_) h
    rw [take_extent_of_isAlpha halpha, Kind.isName, halpha, List.all_takeWhile]
    rfl
  cases cs with
  | nil => rw [extent.eq_def, if_neg hdigit, if_neg halpha]
  | cons d cs =>
    have hextent : extent c (d :: cs) = if isPair c d then 1 else 0 := by
      rw [extent.eq_def, if_neg hdigit, if_neg halpha]
    by_cases hpair : isPair c d = true
    · rw [hextent, if_pos hpair] at h
      exact absurd (isLegal_of_isPair hpair) h
    · rw [hextent, if_neg hpair]

/-- **What is cut out** where a character begins a lexeme is the longest one. -/
theorem isLongest_take_extent (h : Kind.IsLegal (c :: cs.take (extent c cs))) :
    IsLongest (c :: cs.take (extent c cs)) (c :: cs) where
  front := (List.prefix_cons_inj c).mpr (List.take_prefix _ _)
  legal := h
  longest other hfront hlegal := by
    have hle := length_le_of_isLegal hfront hlegal
    have hlength := hfront.length_le
    rw [List.length_cons] at hlength ⊢
    rw [List.length_take]
    omega

/-- Where what is cut out is no lexeme, no front of the text is one. -/
private theorem not_isLegal_of_front (h : ¬ Kind.IsLegal (c :: cs.take (extent c cs)))
    {front : List Char} (hfront : front <+: c :: cs) : ¬ Kind.IsLegal front := by
  intro hlegal
  have hextent := extent_eq_zero_of_not_isLegal h
  have hle := length_le_of_isLegal hfront hlegal
  rw [hextent] at hle h
  cases front with
  | nil => exact absurd hlegal (by decide)
  | cons d rest =>
    obtain rfl : rest = [] := List.eq_nil_of_length_eq_zero (by rw [List.length_cons] at hle; omega)
    obtain ⟨rfl, -⟩ := List.cons_prefix_cons.mp hfront
    exact h hlegal

/-! ### Lexemes and tokens -/

/-- The **token of a cut**: its lexeme in the spelling of the scanner, the kind of that, and where
it stands. -/
structure IsTokenOf (row : Nat) (cut : Nat × List Char) (token : Token) : Prop where
  lexeme : token.lexeme = lexemeOf cut.2
  kind : Kind.classify token.lexeme = some token.kind
  row : token.row = row
  column : token.column = cut.1

/-- A keyword in small letters takes the place of a text, and so a legal text stays one. -/
private theorem classify_lexemeOf {text : List Char} (h : Kind.IsLegal text) :
    ∃ kind, Kind.classify (lexemeOf text) = some kind := by
  rcases lexemeOf_mem_or_eq text with hkeyword | htext
  · have htable : ∀ word ∈ Kind.keywords, (Kind.classify word).isSome = true := by decide
    exact Option.isSome_iff_exists.mp (htable _ hkeyword)
  · rw [htext]
    exact Option.isSome_iff_exists.mp h

/-- A single character is no keyword. -/
private theorem lexemeOf_singleton (c : Char) : lexemeOf [c] = .ofList [c] := by
  rcases lexemeOf_mem_or_eq [c] with hkeyword | htext
  · have hlong : ∀ word ∈ Kind.keywords, word.toList.length ≠ 1 := by decide
    have hlower := toLower_eq_of_lexemeOf hkeyword
    exact absurd (hlower ▸ rfl) (hlong _ hkeyword)
  · exact htext

variable {row column : Nat} {token : Token}

/-- A token is made from what is cut out only if that is a lexeme. -/
private theorem isTokenOf_of_ofLexeme
    (h : Token.ofLexeme row column (lexemeOf (c :: cs.take (extent c cs))) = .ok token) :
    Kind.IsLegal (c :: cs.take (extent c cs)) ∧
      IsTokenOf row (column, c :: cs.take (extent c cs)) token := by
  obtain ⟨kind, hkind, rfl⟩ := Token.ofLexeme_eq_ok_iff.mp h
  refine ⟨?_, rfl, hkind, rfl, rfl⟩
  by_contra hlegal
  have hshort := extent_eq_zero_of_not_isLegal hlegal
  rw [hshort, List.take_zero] at hkind hlegal
  rw [lexemeOf_singleton] at hkind
  exact hlegal (Option.isSome_of_eq_some hkind)

/-- Where no token is made from what is cut out, the first character is to blame. -/
private theorem illegal_of_ofLexeme {failure : Failure}
    (h : Token.ofLexeme row column (lexemeOf (c :: cs.take (extent c cs))) = .error failure) :
    ¬ Kind.IsLegal (c :: cs.take (extent c cs)) ∧
      failure = .diagnosed ⟨.illegalLexeme (.ofList [c]), some row, some column⟩ := by
  have hlegal : ¬ Kind.IsLegal (c :: cs.take (extent c cs)) := by
    intro hlegal
    obtain ⟨kind, hkind⟩ := classify_lexemeOf hlegal
    rw [Token.ofLexeme_eq_ok_iff.mpr ⟨kind, hkind, rfl⟩] at h
    cases h
  refine ⟨hlegal, ?_⟩
  rw [extent_eq_zero_of_not_isLegal hlegal, List.take_zero, lexemeOf_singleton] at h
  unfold Token.ofLexeme at h
  split at h
  · cases h
  · exact (Except.error.inj h).symm

/-! ### Scanning munches -/

/-- How scanning ends for a text that munches in a certain way: with one token for each lexeme, or
with the character that is stuck. -/
inductive ScansAs (row : Nat) (scanned : Except Failure (List Token))
    (cuts : List (Nat × List Char)) : (stuck : Option (Nat × Char)) → Prop
  | tokens {tokens : List Token} :
    scanned = .ok tokens → List.Forall₂ (IsTokenOf row) cuts tokens → ScansAs row scanned cuts none
  | illegal {offset : Nat} {c : Char} :
    scanned = .error (.diagnosed ⟨.illegalLexeme (.ofList [c]), some row, some offset⟩) →
      ScansAs row scanned cuts (some (offset, c))

/-- A text whose first lexeme is cut out munches on behind that. -/
theorem Munches.cut {cuts : List (Nat × List Char)} {stuck : Option (Nat × Char)}
    (hblank : Text.isBlank c = false) (hlegal : Kind.IsLegal (c :: cs.take (extent c cs)))
    (hrest : Munches (column + 1 + extent c cs) (cs.drop (extent c cs)) cuts stuck) :
    Munches column (c :: cs) ((column, c :: cs.take (extent c cs)) :: cuts) stuck := by
  have hlength : (c :: cs.take (extent c cs)).length = extent c cs + 1 := by
    rw [List.length_cons, List.length_take, Nat.min_eq_left (extent_le_length c cs)]
  refine .take hblank (isLongest_take_extent hlegal) ?_
  rw [hlength, List.drop_succ_cons, Nat.add_comm (extent c cs), ← Nat.add_assoc]
  exact hrest

/-- **Scanning munches** a text, whatever column that begins at. -/
private theorem exists_munches (row column : Nat) (text : List Char) :
    ∃ cuts stuck, Munches column text cuts stuck ∧
      ScansAs row (scanFrom row column text) cuts stuck := by
  fun_induction scanFrom row column text with
  | case1 column => exact ⟨[], none, .done column, .tokens rfl .nil⟩
  | case2 column c cs hblank ih =>
    obtain ⟨cuts, stuck, hmunches, hscans⟩ := ih
    exact ⟨cuts, stuck, .skip hblank hmunches, hscans⟩
  | case3 column c cs hblank failure hfirst =>
    obtain ⟨hlegal, rfl⟩ := illegal_of_ofLexeme hfirst
    have hnone : ∀ front, front <+: c :: cs → ¬ Kind.IsLegal front :=
      fun _ => not_isLegal_of_front hlegal
    exact ⟨[], _, .stuck (Bool.eq_false_iff.mpr hblank) hnone, .illegal rfl⟩
  | case4 column c cs hblank first hfirst failure hrest ih =>
    obtain ⟨cuts, stuck, hmunches, hscans⟩ := ih
    obtain ⟨hlegal, -⟩ := isTokenOf_of_ofLexeme hfirst
    refine ⟨_, stuck, hmunches.cut (Bool.eq_false_iff.mpr hblank) hlegal, ?_⟩
    rw [hrest] at hscans
    cases hscans with
    | tokens hok => cases hok
    | illegal herror => exact .illegal herror
  | case5 column c cs hblank first hfirst rest hrest ih =>
    obtain ⟨cuts, stuck, hmunches, hscans⟩ := ih
    obtain ⟨hlegal, hfirst⟩ := isTokenOf_of_ofLexeme hfirst
    refine ⟨_, stuck, hmunches.cut (Bool.eq_false_iff.mpr hblank) hlegal, ?_⟩
    rw [hrest] at hscans
    cases hscans with
    | tokens hok hrest =>
      cases hok
      exact .tokens rfl (.cons hfirst hrest)
    | illegal herror => cases herror

/-- **Maximal munch.** The text of a line comes apart into its longest lexemes in one way, with
nothing but white space between them. Scanning gives one token for each of them, and the token that
ends the line behind the text; or it fails by the first character that begins no lexeme, and names
that. -/
theorem scanAt_by_munch (row : Nat) (line : List Char) :
    ∃ cuts stuck, Munches 0 (Text.trim line) cuts stuck ∧
      (∀ cuts' stuck', Munches 0 (Text.trim line) cuts' stuck' → cuts' = cuts ∧ stuck' = stuck) ∧
      (∀ cut ∈ cuts, cut.2 <+: (Text.trim line).drop cut.1) ∧
      (cuts.Pairwise fun cut next => cut.1 + cut.2.length ≤ next.1) ∧
      (∀ i c, (Text.trim line)[i]? = some c → (∀ place ∈ stuck, i < place.1) →
        Text.isBlank c = true ∨ ∃ cut ∈ cuts, cut.1 ≤ i ∧ i < cut.1 + cut.2.length) ∧
      match stuck with
      | none => ∃ tokens, List.Forall₂ (IsTokenOf row) cuts tokens ∧
          scanAt row line = .ok ⟨tokens, .closing row (Text.trim line).length⟩
      | some (offset, c) => (Text.trim line)[offset]? = some c ∧
          scanAt row line =
            .error (.diagnosed ⟨.illegalLexeme (.ofList [c]), some row, some offset⟩) := by
  obtain ⟨cuts, stuck, hmunches, hscans⟩ := exists_munches row 0 (Text.trim line)
  have hscan : scanAt row line = scan row line := by
    rw [scanAt, if_neg (Int.not_lt.mpr (Int.natCast_nonneg row)), Int.toNat_natCast]
  refine ⟨cuts, stuck, hmunches, fun _ _ => hmunches.eq, fun cut hcut => ?_, hmunches.pairwise,
    fun i c hc hbefore => ?_, ?_⟩
  · exact (hmunches.stands cut hcut).2
  · have hwhere := hmunches.blank_or_mem hc (by rwa [Nat.zero_add])
    rwa [Nat.zero_add] at hwhere
  · cases hscans with
    | tokens hok htokens => exact ⟨_, htokens, by rw [hscan, scan, hok]⟩
    | illegal herror =>
      exact ⟨hmunches.getElem?_of_stuck.2, by rw [hscan, scan, herror]⟩

end TokenLine

end Offside
