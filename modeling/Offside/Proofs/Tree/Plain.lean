import Offside.Proofs.Token.Spelling
import Offside.Proofs.Tree.Shape

/-!
# Words that can be written

The words of a well-formed tree are **plain**: they can be read, and they are in the normal form
already. Writing them down and scanning the text therefore gives the same words back.
-/

namespace Offside

/-- A word is **plain** when it is readable and in normal form. -/
structure Word.IsPlain (word : Word) : Prop extends word.IsReadable where
  normal_eq : word.normal = word

namespace Word

/-- The word of a kind with one spelling is plain, but for the second spelling of equality. -/
theorem isPlain_fixed {kind : Kind} (h : (fixed kind).kind.spelling?.isSome = true := by rfl)
    (hne : kind ≠ .eqEq := by decide) : (fixed kind).IsPlain := by
  obtain ⟨spelling, hs⟩ := Option.isSome_iff_exists.mp h
  have hs' : kind.spelling? = some spelling := hs
  have hlegal : Kind.classify (fixed kind).lexeme = some kind := by
    rw [fixed, hs', Option.getD_some]
    exact Kind.classify_of_spelling hs'
  have hsettled : (fixed kind).IsSettled := isSettled_of_classify hlegal fun hkind => by
    obtain rfl : kind = .identifier := hkind
    cases hs'
  refine ⟨⟨hsettled, fun hkind => ?_⟩, hsettled.normal_eq_fixed rfl h hne⟩
  obtain rfl : kind = .integer := hkind
  cases hs'

/-- A numeral within the limit on digits is plain. -/
private theorem isPlain_numeral {value : Int} (h : 0 ≤ value) (hbound : value < Numeral.bound) :
    (numeral value).IsPlain := by
  obtain ⟨n, rfl⟩ := Int.eq_ofNat_of_zero_le h
  have hlegal : Kind.classify n.repr = some .integer :=
    Kind.classify_eq_integer_iff.mpr (Numeral.isNumeral_repr n)
  refine ⟨⟨isSettled_of_classify hlegal nofun, fun _ => Numeral.length_repr_le (by omega)⟩, ?_⟩
  rw [normal_of_integer rfl]
  exact congrArg (fun m : Nat => numeral m) (Numeral.value_repr n)

theorem isPlain_name {text : String} (h : Kind.IsIdentifier text) : (name text).IsPlain where
  toIsReadable := ⟨isSettled_of_classify h.classify fun _ => h.2, nofun⟩
  normal_eq := normal_of_identifier rfl

end Word

/-! ### Words of well-formed trees -/

private theorem Operator.isPlain_of_mem_words {op : Operator} {word : Word} (h : word ∈ op.words) :
    word.IsPlain := by
  cases op <;> simp only [words, List.mem_singleton, List.not_mem_nil] at h <;> rw [h] <;>
    exact Word.isPlain_fixed

private theorem Relation.isPlain_of_mem_words {relation : Relation} {word : Word}
    (h : word ∈ relation.words) : word.IsPlain := by
  cases relation <;> simp only [words, List.mem_singleton, List.not_mem_nil] at h <;> rw [h] <;>
    exact Word.isPlain_fixed

/-- The words of a well-formed expression are plain. -/
private theorem Expr.isPlain_of_mem_words {e : Expr} (he : e.isWellFormed = true) :
    ∀ word ∈ e.words, word.IsPlain := by
  induction e with
  | number line value =>
    have hvalue := isWellFormed_number_iff.mp he
    exact List.forall_mem_singleton.mpr (Word.isPlain_numeral hvalue.1 hvalue.2)
  | var line name =>
    have hname : Kind.IsIdentifier name := by
      simpa [isWellFormed, isCanonical, isLegal] using he
    exact List.forall_mem_singleton.mpr (Word.isPlain_name hname)
  | negate line operand ih => exact List.forall_mem_cons.mpr ⟨Word.isPlain_fixed, ih he⟩
  | paren line inner ih =>
    exact List.forall_mem_cons.mpr ⟨Word.isPlain_fixed, List.forall_mem_append.mpr
      ⟨ih he, List.forall_mem_singleton.mpr Word.isPlain_fixed⟩⟩
  | binary line op left right ihl ihr =>
    obtain ⟨-, hleft, hright, -⟩ := isWellFormed_binary_iff.mp he
    exact List.forall_mem_append.mpr ⟨ihl hleft, List.forall_mem_append.mpr
      ⟨fun _ => Operator.isPlain_of_mem_words, ihr hright⟩⟩
  | misplaced form => cases he

/-- The words of a well-formed condition are plain. -/
private theorem Condition.isPlain_of_mem_words {c : Condition} (hc : c.isWellFormed = true) :
    ∀ word ∈ c.words, word.IsPlain := by
  cases c with
  | compare line relation left right =>
    simp only [isWellFormed, Bool.and_eq_true] at hc
    obtain ⟨⟨-, hleft⟩, hright⟩ := hc
    exact List.forall_mem_append.mpr ⟨Expr.isPlain_of_mem_words hleft, List.forall_mem_append.mpr
      ⟨fun _ => Relation.isPlain_of_mem_words, Expr.isPlain_of_mem_words hright⟩⟩
  | misplaced form => cases hc

/-- Whether a phrase is well formed. -/
def Phrase.isWellFormed : Phrase → Bool
  | assign name value => Kind.IsIdentifier name && value.isWellFormed
  | display value => value.isWellFormed
  | input name => Kind.IsIdentifier name
  | ifHead condition | elifHead condition | whileHead condition => condition.isWellFormed
  | elseHead => true
  | forHead name first last =>
    Kind.IsIdentifier name && first.isWellFormed && last.isWellFormed

/-- The words of a well-formed phrase are plain. -/
theorem Phrase.isPlain_of_mem_words {phrase : Phrase} (h : phrase.isWellFormed = true) :
    ∀ word ∈ phrase.words, word.IsPlain := by
  have hcondition : ∀ condition : Condition, condition.isWellFormed = true →
      ∀ word ∈ condition.words ++ [.fixed .colon], word.IsPlain := fun condition hc =>
    List.forall_mem_append.mpr
      ⟨Condition.isPlain_of_mem_words hc, List.forall_mem_singleton.mpr Word.isPlain_fixed⟩
  cases phrase with
  | assign name value =>
    simp only [isWellFormed, Bool.and_eq_true, decide_eq_true_eq] at h
    simp only [words, List.forall_mem_cons]
    exact ⟨Word.isPlain_fixed, Word.isPlain_name h.1, Word.isPlain_fixed,
      Expr.isPlain_of_mem_words h.2⟩
  | display value =>
    exact List.forall_mem_cons.mpr ⟨Word.isPlain_fixed, Expr.isPlain_of_mem_words h⟩
  | input name =>
    simp only [isWellFormed, decide_eq_true_eq] at h
    exact List.forall_mem_cons.mpr
      ⟨Word.isPlain_fixed, List.forall_mem_singleton.mpr (Word.isPlain_name h)⟩
  | ifHead condition =>
    exact List.forall_mem_cons.mpr ⟨Word.isPlain_fixed, hcondition condition h⟩
  | elifHead condition =>
    exact List.forall_mem_cons.mpr ⟨Word.isPlain_fixed, hcondition condition h⟩
  | elseHead =>
    exact List.forall_mem_cons.mpr
      ⟨Word.isPlain_fixed, List.forall_mem_singleton.mpr Word.isPlain_fixed⟩
  | whileHead condition =>
    exact List.forall_mem_cons.mpr ⟨Word.isPlain_fixed, hcondition condition h⟩
  | forHead name first last =>
    simp only [isWellFormed, Bool.and_eq_true, decide_eq_true_eq] at h
    obtain ⟨⟨hname, hfirst⟩, hlast⟩ := h
    simp only [words, List.forall_mem_cons, List.forall_mem_append]
    exact ⟨Word.isPlain_fixed, Word.isPlain_name hname, Word.isPlain_fixed,
      Expr.isPlain_of_mem_words hfirst, Word.isPlain_fixed, Expr.isPlain_of_mem_words hlast,
      Word.isPlain_fixed, List.forall_mem_nil _⟩

end Offside
