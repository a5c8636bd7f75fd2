import Mathlib.Data.List.Infix
import Offside.Proofs.Source.Expression

/-!
# The grammar of expressions

The grammar says which words form an expression: terms with additive operators between them,
where a term is factors with multiplicative operators between them, and a factor is a literal, a
name, an expression in parentheses, or a minus sign in front of a whole expression. The last rule
makes it ambiguous. `Derives` is the grammar together with the tree of each derivation, in which
both tiers of operators fold to the left.

Reading picks one derivation: the one in which every minus sign takes the longest expression that
follows it (`Expr.TakesLongest`). Such a derivation has a well-formed tree
(`Derives.isWellFormed`), and every well-formed tree is derived from its words in this way
(`Derives.of_isWellFormed`, `Derives.takesLongest`).
-/

namespace Offside

/-! ### Derivations -/

/-- The categories of the grammar. -/
inductive Category
  | expr
  | term
  | factor
  deriving DecidableEq, Repr

/-- `Derives category words e` says that the grammar derives the words from the category, with the
tree `e`. Repetition is read as recursion on the left, so operators fold to the left. -/
inductive Derives : Category → List Word → Expr → Prop
  | integer (line : Option Int) {word : Word} (hword : word.kind = .integer) :
    Derives .factor [word] (.number line (Numeral.value word.lexeme.toList))
  | identifier (line : Option Int) {word : Word} (hword : word.kind = .identifier) :
    Derives .factor [word] (.var line word.lexeme)
  | paren (line : Option Int) {opening closing : Word} {words : List Word} {e : Expr}
    (hopening : opening.kind = .leftParen) (hclosing : closing.kind = .rightParen)
    (h : Derives .expr words e) : Derives .factor (opening :: (words ++ [closing])) (.paren line e)
  | negate (line : Option Int) {sign : Word} {words : List Word} {e : Expr}
    (hsign : sign.kind = .subtract) (h : Derives .expr words e) :
    Derives .factor (sign :: words) (.negate line e)
  | factor {words : List Word} {e : Expr} (h : Derives .factor words e) : Derives .term words e
  | product (line : Option Int) {sign : Word} {op : Operator} {front back : List Word}
    {left right : Expr}
    (hop : sign.kind = .multiply ∧ op = .multiply ∨ sign.kind = .divide ∧ op = .divide)
    (hleft : Derives .term front left) (hright : Derives .factor back right) :
    Derives .term (front ++ sign :: back) (.binary line op left right)
  | term {words : List Word} {e : Expr} (h : Derives .term words e) : Derives .expr words e
  | sum (line : Option Int) {sign : Word} {op : Operator} {front back : List Word}
    {left right : Expr}
    (hop : sign.kind = .add ∧ op = .add ∨ sign.kind = .subtract ∧ op = .subtract)
    (hleft : Derives .expr front left) (hright : Derives .term back right) :
    Derives .expr (front ++ sign :: back) (.binary line op left right)

/-- Every minus sign of a tree takes the longest expression that follows it, where the tree is
derived from the first of the `words`: no longer piece of the words behind the sign is an
expression. -/
def Expr.TakesLongest : Expr → List Word → Prop
  | .number .., _ | .var .., _ | .misplaced _, _ => True
  | .negate _ operand, words =>
    (∀ longer e, longer <+: words.tail → Derives .expr longer e →
      longer.length ≤ operand.words.length) ∧ operand.TakesLongest words.tail
  | .paren _ inner, words => inner.TakesLongest words.tail
  | .binary _ _ left right, words =>
    left.TakesLongest words ∧ right.TakesLongest (words.drop (left.words.length + 1))

/-- The operators of a product are those that the reader takes for tight ones. -/
theorem Operator.product_iff {kind : Kind} {op : Operator} :
    kind = .multiply ∧ op = .multiply ∨ kind = .divide ∧ op = .divide ↔
      ofKind? kind = some op ∧ op.isTight = true := by
  constructor
  · rintro (⟨rfl, rfl⟩ | ⟨rfl, rfl⟩) <;> exact ⟨rfl, rfl⟩
  · rintro ⟨hkind, htight⟩
    cases kind with
    | multiply | divide => cases hkind; simp
    | add | subtract => cases hkind; cases htight
    | _ => cases hkind

/-- The operators of a sum are the other ones. -/
theorem Operator.sum_iff {kind : Kind} {op : Operator} :
    kind = .add ∧ op = .add ∨ kind = .subtract ∧ op = .subtract ↔
      ofKind? kind = some op ∧ op.isTight = false := by
  constructor
  · rintro (⟨rfl, rfl⟩ | ⟨rfl, rfl⟩) <;> exact ⟨rfl, rfl⟩
  · rintro ⟨hkind, hloose⟩
    cases kind with
    | add | subtract => cases hkind; simp
    | multiply | divide => cases hkind; cases hloose
    | _ => cases hkind

/-- The words of an operation are those of its operands and of the word between them. -/
private theorem words_operation {line : Option Int} {sign : Word} {op : Operator}
    {front back : List Word} {left right : Expr} (hsign : Operator.ofKind? sign.kind = some op)
    (hsettled : sign.IsSettled) (hleft : left.words = front.map Word.normal)
    (hright : right.words = back.map Word.normal) :
    (Expr.binary line op left right).words = (front ++ sign :: back).map Word.normal := by
  obtain ⟨hwords, -, hspelling, hne⟩ := Operator.words_of_ofKind? hsign
  rw [Expr.words, hleft, hright, hwords, List.map_append, List.map_cons,
    hsettled.normal_eq_fixed rfl hspelling hne, List.singleton_append]

namespace Derives

variable {category : Category} {words : List Word} {e : Expr}

/-! ### Derived trees and well-formed trees -/

/-- The words of a derived tree are the words that it is derived from. -/
theorem words_eq (h : Derives category words e) (hsettled : ∀ word ∈ words, word.IsSettled) :
    e.words = words.map Word.normal := by
  induction h with
  | integer line hword => rw [Expr.words, List.map_singleton, Word.normal_of_integer hword]
  | identifier line hword => rw [Expr.words, List.map_singleton, Word.normal_of_identifier hword]
  | paren line hopening hclosing h ih =>
    obtain ⟨ho, hrest⟩ := List.forall_mem_cons.mp hsettled
    obtain ⟨hwords, hc⟩ := List.forall_mem_append.mp hrest
    have hclose := List.forall_mem_singleton.mp hc
    rw [Expr.words, ih hwords, List.map_cons, List.map_append, List.map_singleton,
      ho.normal_eq_fixed hopening rfl (by decide),
      hclose.normal_eq_fixed hclosing rfl (by decide)]
  | negate line hsign h ih =>
    obtain ⟨hs, hwords⟩ := List.forall_mem_cons.mp hsettled
    rw [Expr.words, ih hwords, List.map_cons, hs.normal_eq_fixed hsign rfl (by decide)]
  | factor h ih => exact ih hsettled
  | product line hop hleft hright ihl ihr =>
    obtain ⟨hfront, hrest⟩ := List.forall_mem_append.mp hsettled
    obtain ⟨hs, hback⟩ := List.forall_mem_cons.mp hrest
    exact words_operation (Operator.product_iff.mp hop).1 hs (ihl hfront) (ihr hback)
  | term h ih => exact ih hsettled
  | sum line hop hleft hright ihl ihr =>
    obtain ⟨hfront, hrest⟩ := List.forall_mem_append.mp hsettled
    obtain ⟨hs, hback⟩ := List.forall_mem_cons.mp hrest
    exact words_operation (Operator.sum_iff.mp hop).1 hs (ihl hfront) (ihr hback)

/-- A derived tree has as many words as it is derived from. -/
theorem length_words (h : Derives category words e) : e.words.length = words.length := by
  induction h with
  | integer | identifier => rfl
  | paren line hopening hclosing h ih => simp [Expr.words, ih]
  | negate line hsign h ih => simp [Expr.words, ih]
  | factor h ih => exact ih
  | product line hop hleft hright ihl ihr =>
    obtain ⟨hsign, -⟩ := Operator.product_iff.mp hop
    simp [Expr.words, ihl, ihr, (Operator.words_of_ofKind? hsign).1]
  | term h ih => exact ih
  | sum line hop hleft hright ihl ihr =>
    obtain ⟨hsign, -⟩ := Operator.sum_iff.mp hop
    simp [Expr.words, ihl, ihr, (Operator.words_of_ofKind? hsign).1]

/-- What follows the left operand and the operator. -/
theorem drop_left {front back : List Word} {left : Expr} (h : Derives category front left)
    (sign : Word) : (front ++ sign :: back).drop (left.words.length + 1) = back := by
  rw [h.length_words, ← List.drop_drop, List.drop_left, List.drop_one, List.tail_cons]

/-- A derived tree has the shape of its category. -/
theorem shape (h : Derives category words e) :
    match category with
    | .expr => True
    | .term => e.isTerm = true
    | .factor => e.isFactor = true := by
  induction h with
  | integer | identifier | paren | negate => rfl
  | factor h ih => exact Expr.isTerm_of_isFactor ih
  | product line hop hleft hright ihl ihr => exact (Operator.product_iff.mp hop).2
  | term | sum => trivial

/-- Words that an expression ends with can be multiplied on: the factor joins its last term. -/
private theorem extend {front back : List Word} {left right : Expr} {sign : Word} {op : Operator}
    (hleft : Derives .expr front left) (hsign : Operator.ofKind? sign.kind = some op)
    (hright : Derives (if op.isTight then .factor else .term) back right) :
    ∃ e, Derives .expr (front ++ sign :: back) e := by
  cases htight : op.isTight with
  | false =>
    rw [htight] at hright
    exact ⟨_, .sum none (Operator.sum_iff.mpr ⟨hsign, htight⟩) hleft hright⟩
  | true =>
    rw [htight] at hright
    have hop := Operator.product_iff.mpr ⟨hsign, htight⟩
    cases hleft with
    | term h => exact ⟨_, .term (.product none hop h hright)⟩
    | sum line hop' hleft' hright' =>
      -- the product stays inside the last term of the sum
      rw [List.append_assoc, List.cons_append]
      exact ⟨_, .sum line hop' hleft' (.product none hop hright' hright)⟩

/-- An operand that ends in a minus sign's stops short: the sign could take the operator behind it
and that operator's right operand as well. -/
private theorem closed_of_takesLongest {front back after : List Word} {left right : Expr}
    {sign : Word} {op : Operator} (hleft : Derives category front left)
    (hsign : Operator.ofKind? sign.kind = some op)
    (hright : Derives (if op.isTight then .factor else .term) back right)
    (hlongest : left.TakesLongest (front ++ sign :: (back ++ after))) : left.endsOpen = false := by
  induction hleft with
  | integer | identifier | paren => rfl
  | @negate line minus words operand hminus h ih =>
    -- otherwise the sign could take what follows as well
    obtain ⟨e, hlonger⟩ := h.extend hsign hright
    have hpre : words ++ sign :: back <+: words ++ sign :: (back ++ after) := by
      simp
    have hle := hlongest.1 _ e hpre hlonger
    rw [h.length_words, List.length_append, List.length_cons] at hle
    omega
  | factor h ih => exact ih hlongest
  | term h ih => exact ih hlongest
  | product line hop hleft' hright' ihl ihr =>
    have hlast := hlongest.2
    rw [List.append_assoc, List.cons_append, hleft'.drop_left] at hlast
    exact ihr hlast
  | sum line hop hleft' hright' ihl ihr =>
    have hlast := hlongest.2
    rw [List.append_assoc, List.cons_append, hleft'.drop_left] at hlast
    exact ihr hlast

/-- An operation of well-formed operands is well formed when the minus signs in it take the
longest expressions. -/
private theorem isWellFormed_fold {line : Option Int} {front back after : List Word}
    {left right : Expr} {sign : Word} {op : Operator} (hleft : Derives category front left)
    (hsign : Operator.ofKind? sign.kind = some op)
    (hright : Derives (if op.isTight then .factor else .term) back right)
    (hterm : op.isTight = true → left.isTerm = true)
    (hlongest : left.TakesLongest (front ++ sign :: (back ++ after)))
    (hl : left.isWellFormed = true) (hr : right.isWellFormed = true) :
    (Expr.binary line op left right).isWellFormed = true := by
  have hclosed := hleft.closed_of_takesLongest hsign hright hlongest
  have hknown := (Operator.words_of_ofKind? hsign).2.1
  refine Expr.isWellFormed_binary_iff.mpr ⟨hknown, hl, hr, Expr.isFolded_iff.mpr ⟨hclosed, ?_⟩⟩
  split
  · next htight =>
    rw [if_pos htight] at hright
    exact ⟨hterm htight, hright.shape⟩
  · next hloose =>
    rw [if_neg hloose] at hright
    exact hright.shape

/-- A derived tree is well formed when its minus signs take the longest expressions and its words
are readable. -/
theorem isWellFormed {after : List Word} (h : Derives category words e)
    (hlongest : e.TakesLongest (words ++ after)) (hreadable : ∀ word ∈ words, word.IsReadable) :
    e.isWellFormed = true := by
  induction h generalizing after with
  | @integer line word hword =>
    have hbound := (List.forall_mem_singleton.mp hreadable).value_lt hword
    exact Expr.isWellFormed_number_iff.mpr ⟨Int.natCast_nonneg _, Int.ofNat_lt.mpr hbound⟩
  | @identifier line word hword =>
    have hname := (List.forall_mem_singleton.mp hreadable).isIdentifier hword
    simp [Expr.isWellFormed, Expr.isCanonical, Expr.isLegal, hname]
  | paren line hopening hclosing h ih =>
    obtain ⟨-, hrest⟩ := List.forall_mem_cons.mp hreadable
    rw [List.cons_append, List.append_assoc] at hlongest
    exact ih hlongest (List.forall_mem_append.mp hrest).1
  | negate line hsign h ih =>
    exact ih hlongest.2 (List.forall_mem_cons.mp hreadable).2
  | factor h ih => exact ih hlongest hreadable
  | product line hop hleft hright ihl ihr =>
    obtain ⟨hsign, htight⟩ := Operator.product_iff.mp hop
    obtain ⟨hfront, hrest⟩ := List.forall_mem_append.mp hreadable
    obtain ⟨hl, hr⟩ := hlongest
    rw [List.append_assoc, List.cons_append] at hl hr
    rw [hleft.drop_left] at hr
    refine isWellFormed_fold hleft hsign (by rwa [if_pos htight]) (fun _ => hleft.shape) hl
      (ihl hl hfront) (ihr hr (List.forall_mem_cons.mp hrest).2)
  | term h ih => exact ih hlongest hreadable
  | sum line hop hleft hright ihl ihr =>
    obtain ⟨hsign, hloose⟩ := Operator.sum_iff.mp hop
    obtain ⟨hfront, hrest⟩ := List.forall_mem_append.mp hreadable
    obtain ⟨hl, hr⟩ := hlongest
    rw [List.append_assoc, List.cons_append] at hl hr
    rw [hleft.drop_left] at hr
    refine isWellFormed_fold hleft hsign (by rwa [hloose, if_neg Bool.false_ne_true]) ?_ hl
      (ihl hl hfront) (ihr hr (List.forall_mem_cons.mp hrest).2)
    rw [hloose]
    exact fun htight => absurd htight Bool.false_ne_true

/-- A well-formed tree is derived from its words, from the category of its shape. -/
theorem of_isWellFormed (he : e.isWellFormed = true) (hwords : words.map Word.normal = e.words)
    (hsettled : ∀ word ∈ words, word.IsSettled) :
    Derives .expr words e ∧ (e.isTerm = true → Derives .term words e) ∧
      (e.isFactor = true → Derives .factor words e) := by
  -- it is enough to derive a factor from its own category, and a term from its own
  have factor {words : List Word} {e : Expr} (h : Derives .factor words e) :
      Derives .expr words e ∧ (e.isTerm = true → Derives .term words e) ∧
        (e.isFactor = true → Derives .factor words e) :=
    ⟨h.factor.term, fun _ => h.factor, fun _ => h⟩
  induction e generalizing words with
  | number line value =>
    obtain ⟨word, rfl, hword⟩ := List.map_eq_singleton_iff.mp hwords
    obtain ⟨hkind, hvalue⟩ := Word.of_normal_eq_numeral hword (Expr.isWellFormed_number_iff.mp he).1
    rw [← hvalue]
    exact factor (.integer line hkind)
  | var line name =>
    obtain ⟨word, rfl, hword⟩ := List.map_eq_singleton_iff.mp hwords
    obtain ⟨hkind, rfl⟩ := Word.of_normal_eq_name hword
    exact factor (.identifier line hkind)
  | negate line operand ih =>
    obtain ⟨sign, rest, rfl, hsign, hrest⟩ := List.map_eq_cons_iff.mp hwords
    have hkind := Word.kind_of_fixed hsign (by decide)
    exact factor (.negate line hkind (ih he hrest (List.forall_mem_cons.mp hsettled).2).1)
  | paren line inner ih =>
    obtain ⟨opening, rest, rfl, hopening, hrest⟩ := List.map_eq_cons_iff.mp hwords
    obtain ⟨middle, last, rfl, hmiddle, hlast⟩ := List.map_eq_append_iff.mp hrest
    obtain ⟨closing, rfl, hclosing⟩ := List.map_eq_singleton_iff.mp hlast
    have hinner := List.forall_mem_append.mp (List.forall_mem_cons.mp hsettled).2
    exact factor (.paren line (Word.kind_of_fixed hopening (by decide))
      (Word.kind_of_fixed hclosing (by decide)) (ih he hmiddle hinner.1).1)
  | binary line op left right ihl ihr =>
    obtain ⟨hknown, hl, hr, hfolded⟩ := Expr.isWellFormed_binary_iff.mp he
    have hshape := (Expr.isFolded_iff.mp hfolded).2
    obtain ⟨kind, hop, hofKind, hne⟩ := Operator.exists_kind hknown
    obtain ⟨front, rest, rfl, hfront, hrest⟩ := List.map_eq_append_iff.mp hwords
    rw [hop] at hrest
    obtain ⟨sign, back, rfl, hsign, hback⟩ := List.map_eq_cons_iff.mp hrest
    obtain ⟨hsettledFront, hsettledRest⟩ := List.forall_mem_append.mp hsettled
    have hleft := ihl hl hfront hsettledFront
    have hright := ihr hr hback (List.forall_mem_cons.mp hsettledRest).2
    rw [← Word.kind_of_fixed hsign hne] at hofKind
    cases htight : op.isTight with
    | true =>
      rw [if_pos htight] at hshape
      have h : Derives .term (front ++ sign :: back) (.binary line op left right) :=
        .product line (Operator.product_iff.mpr ⟨hofKind, htight⟩) (hleft.2.1 hshape.1)
          (hright.2.2 hshape.2)
      exact ⟨h.term, fun _ => h, nofun⟩
    | false =>
      rw [htight, if_neg Bool.false_ne_true] at hshape
      have h : Derives .expr (front ++ sign :: back) (.binary line op left right) :=
        .sum line (Operator.sum_iff.mpr ⟨hofKind, htight⟩) hleft.1 (hright.2.1 hshape)
      exact ⟨h, fun hterm => absurd (htight.symm.trans hterm) Bool.false_ne_true, nofun⟩
  | misplaced form => cases he

end Derives

/-! ### The longest expression -/

/-- How many parentheses are open behind words, with `depth` of them open in front, unless one is
closed that was not open. -/
private def openBehind : Nat → List Word → Option Nat
  | depth, [] => some depth
  | depth, word :: words =>
    if word.kind = .leftParen then openBehind (depth + 1) words
    else if word.kind = .rightParen then
      if depth = 0 then none else openBehind (depth - 1) words
    else openBehind depth words

private theorem openBehind_cons {word : Word} (hleft : word.kind ≠ .leftParen)
    (hright : word.kind ≠ .rightParen) (depth : Nat) (words : List Word) :
    openBehind depth (word :: words) = openBehind depth words := by
  rw [openBehind, if_neg hleft, if_neg hright]

private theorem openBehind_operator {sign : Word} {op : Operator}
    (hsign : Operator.ofKind? sign.kind = some op) (depth : Nat) (words : List Word) :
    openBehind depth (sign :: words) = openBehind depth words := by
  refine openBehind_cons ?_ ?_ depth words <;> rintro heq <;> rw [heq] at hsign <;> cases hsign

namespace Derives

variable {category : Category} {words : List Word} {e : Expr}

/-- What is derived closes the parentheses that it opens, and no others. -/
private theorem openBehind_append (h : Derives category words e) (depth : Nat) (after : List Word) :
    openBehind depth (words ++ after) = openBehind depth after := by
  induction h generalizing depth after with
  | integer line hword | identifier line hword =>
    exact openBehind_cons (by simp [hword]) (by simp [hword]) depth after
  | paren line hopening hclosing h ih =>
    rw [List.cons_append, openBehind, if_pos hopening, List.append_assoc, ih, List.singleton_append,
      openBehind, if_neg (by simp [hclosing]), if_pos hclosing, if_neg (Nat.succ_ne_zero depth),
      Nat.add_sub_cancel]
  | negate line hsign h ih =>
    rw [List.cons_append, openBehind_cons (by simp [hsign]) (by simp [hsign]), ih]
  | factor h ih => exact ih depth after
  | product line hop hleft hright ihl ihr =>
    rw [List.append_assoc, ihl, List.cons_append,
      openBehind_operator (Operator.product_iff.mp hop).1, ihr]
  | term h ih => exact ih depth after
  | sum line hop hleft hright ihl ihr =>
    rw [List.append_assoc, ihl, List.cons_append,
      openBehind_operator (Operator.sum_iff.mp hop).1, ihr]

/-- An expression is the longest one where it is, if nothing or a closing parenthesis follows. -/
private theorem length_le_of_prefix (h : Derives category words e) {after longer : List Word}
    {category' : Category} {e' : Expr} (hafter : ∀ word ∈ after.head?, word.kind = .rightParen)
    (hpre : longer <+: words ++ after) (hlonger : Derives category' longer e') :
    longer.length ≤ words.length := by
  -- a longer one goes on with the parenthesis, and then closes one that it does not open
  by_contra hlt
  rw [Nat.not_le] at hlt
  obtain ⟨more, rfl⟩ := List.prefix_of_prefix_length_le (List.prefix_append words after) hpre hlt.le
  cases more with
  | nil => simp at hlt
  | cons closing more =>
    obtain ⟨rest, rfl⟩ := (List.prefix_append_right_inj words).mp hpre
    have hclosing : closing.kind = .rightParen := hafter closing rfl
    have hopen := hlonger.openBehind_append 0 []
    rw [List.append_nil, h.openBehind_append, openBehind, openBehind, if_neg (by simp [hclosing]),
      if_pos hclosing, if_pos rfl] at hopen
    cases hopen

/-- The minus signs of a well-formed tree take the longest expressions, if nothing or a closing
parenthesis follows those that the tree ends in. -/
theorem takesLongest (h : Derives category words e) (he : e.isWellFormed = true)
    {after : List Word}
    (hafter : e.endsOpen = true → ∀ word ∈ after.head?, word.kind = .rightParen) :
    e.TakesLongest (words ++ after) := by
  induction h generalizing after with
  | integer | identifier => trivial
  | @paren line opening closing words inner hopening hclosing h ih =>
    rw [List.cons_append, List.append_assoc]
    refine ih he fun _ word hword => ?_
    cases hword
    exact hclosing
  | @negate line sign words operand hsign h ih =>
    refine ⟨fun longer e' hpre hlonger => ?_, ih he fun _ => hafter rfl⟩
    rw [h.length_words]
    exact h.length_le_of_prefix (hafter rfl) hpre hlonger
  | factor h ih => exact ih he hafter
  | product line hop hleft hright ihl ihr =>
    obtain ⟨hknown, hl, hr, hfolded⟩ := Expr.isWellFormed_binary_iff.mp he
    have hclosed := (Expr.isFolded_iff.mp hfolded).1
    rw [List.append_assoc, List.cons_append]
    refine ⟨ihl hl fun hopen => absurd (hclosed.symm.trans hopen) Bool.false_ne_true, ?_⟩
    rw [hleft.drop_left]
    exact ihr hr hafter
  | term h ih => exact ih he hafter
  | sum line hop hleft hright ihl ihr =>
    obtain ⟨hknown, hl, hr, hfolded⟩ := Expr.isWellFormed_binary_iff.mp he
    have hclosed := (Expr.isFolded_iff.mp hfolded).1
    rw [List.append_assoc, List.cons_append]
    refine ⟨ihl hl fun hopen => absurd (hclosed.symm.trans hopen) Bool.false_ne_true, ?_⟩
    rw [hleft.drop_left]
    exact ihr hr hafter

end Derives

end Offside
