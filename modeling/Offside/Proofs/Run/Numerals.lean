import Offside.Proofs.Run.Composition
import Offside.Proofs.Run.Expansion
import Offside.Proofs.Source.SimpleLines
import Offside.Proofs.Text.Typed

/-!
# Numbers as text and back

A number reaches a program as text, by a literal or by the input, and it leaves the program as text
again. On the way in the digits are limited as they are written, leading zeros included and the sign
left aside; on the way out it is the digits of the decimal that are limited. Within the limit a
number keeps its value, and is written in its decimal. Beyond it nothing is read or written
(`Program.shows_numbers`).
-/

namespace Offside

/-! ### Numbers that are typed -/

/-- A number as it may be typed on a line: digits with a sign or none, and white space around. -/
structure TypedNumber where
  before : List Char
  sign : List Char
  digits : List Char
  after : List Char
  isBlank_before : Text.isBlankText before = true
  sign_eq : sign = [] ∨ sign = ['+'] ∨ sign = ['-']
  isNumeral_digits : Kind.isNumeral digits = true
  isBlank_after : Text.isBlankText after = true
  on_one_line : '\n' ∉ before ∧ '\n' ∉ after

namespace TypedNumber

variable (typed : TypedNumber)

/-- What is typed. -/
def text : List Char :=
  typed.before ++ (typed.sign ++ typed.digits) ++ typed.after

/-- The number that is meant. -/
def value : Int :=
  if typed.sign = ['-'] then -(Numeral.value typed.digits : Int) else Numeral.value typed.digits

private theorem withSign_eq :
    Numeral.withSign (decide (typed.sign = ['-'])) (Numeral.value typed.digits) =
    typed.value := by
  simp only [Numeral.withSign, decide_eq_true_eq, value]

private theorem isDigit_of_mem {c : Char} (h : c ∈ typed.digits) : c.isDigit = true := by
  have hdigits := typed.isNumeral_digits
  rw [Kind.isNumeral, Bool.and_eq_true, List.all_eq_true] at hdigits
  exact hdigits.2 c h

/-- The sign and the digits are told apart. -/
private theorem signed?_eq : Numeral.signed? (typed.sign ++ typed.digits) =
    some (decide (typed.sign = ['-']), typed.digits) := by
  have hsplit : Numeral.splitSign (typed.sign ++ typed.digits) =
      (decide (typed.sign = ['-']), typed.digits) := by
    rcases typed.sign_eq with hsign | hsign | hsign
    · rw [hsign]
      -- a digit is no sign
      unfold Numeral.splitSign
      split
      · next rest heq => exact absurd (typed.isDigit_of_mem (c := '-') (by simp_all)) (by decide)
      · next rest heq => exact absurd (typed.isDigit_of_mem (c := '+') (by simp_all)) (by decide)
      · rfl
    · rw [hsign]
      rfl
    · rw [hsign]
      rfl
  rw [Numeral.signed?, hsplit]
  exact if_pos typed.isNumeral_digits

/-- Nothing that is typed for the number itself is white space. -/
private theorem isBlank_eq_false {c : Char} (h : c ∈ typed.sign ++ typed.digits) :
    Text.isBlank c = false := by
  rcases List.mem_append.mp h with hsign | hdigit
  · rcases typed.sign_eq with heq | heq | heq
    · rw [heq] at hsign
      cases hsign
    · rw [heq] at hsign
      obtain rfl := List.mem_singleton.mp hsign
      rfl
    · rw [heq] at hsign
      obtain rfl := List.mem_singleton.mp hsign
      rfl
  · exact Kind.isBlank_of_isNameChar (Kind.isNameChar_of_isDigit (typed.isDigit_of_mem hdigit))

/-- A number within the limit on digits can be written again. -/
private theorem isWritable_value (h : typed.digits.length ≤ digitLimit) :
    Numeral.IsWritable typed.value := by
  have hmagnitude : typed.value.natAbs = Numeral.value typed.digits := by
    rw [value]
    split <;> simp
  have hread : Numeral.read typed.digits = .ok (Numeral.value typed.digits) := if_pos h
  rw [Numeral.IsWritable, hmagnitude]
  exact Numeral.lt_bound_of_read (fun c => typed.isDigit_of_mem) hread

private theorem newline_not_mem : '\n' ∉ typed.text := by
  have hnumber : '\n' ∉ typed.sign ++ typed.digits := fun h =>
    absurd (typed.isBlank_eq_false h) (by decide)
  simp only [text, List.mem_append] at hnumber ⊢
  exact fun h => h.elim (fun h => h.elim typed.on_one_line.1 hnumber) typed.on_one_line.2

private theorem text_ne_nil : typed.text ≠ [] := by
  intro h
  have hdigits := typed.isNumeral_digits
  simp only [text, List.append_eq_nil_iff] at h
  rw [h.1.2.2] at hdigits
  cases hdigits

end TypedNumber

section Running

variable {bounds : Bounds} {name : String} {s : State}

/-- A number that is typed for a variable is read, unless it has too many digits. -/
private theorem State.ask_typed (typed : TypedNumber) {rest : List Char}
    (hrest : ∀ c ∈ rest.head?, c = '\n') (hinput : s.input = typed.text ++ rest)
    (line : Option Int) (name : String) :
    s.ask line name =
      if typed.digits.length ≤ digitLimit then
        .done (({ s with input := rest.drop 1 }.record (.asked name)).put name typed.value)
      else .failed (.broken (.numeralTooLong typed.digits.length))
        ({ s with input := rest.drop 1 }.record (.asked name)) := by
  have htaken : Text.takeLine s.input = (typed.text ++ rest.take 1, rest.drop 1) := by
    rw [hinput, Text.takeLine_of_endsLine typed.newline_not_mem hrest]
  have hend : Text.isBlankText (rest.take 1) = true := by
    cases rest with
    | nil => rfl
    | cons c rest =>
      obtain rfl := hrest c rfl
      rfl
  have htrim : Text.trim (typed.text ++ rest.take 1) = typed.sign ++ typed.digits := by
    have hafter : Text.isBlankText (typed.after ++ rest.take 1) = true := by
      rw [Text.isBlankText, List.all_append]
      exact Bool.and_eq_true_iff.mpr ⟨typed.isBlank_after, hend⟩
    rw [TypedNumber.text, List.append_assoc]
    exact Text.trim_padded typed.isBlank_before (fun c => typed.isBlank_eq_false) hafter
  have hne : (typed.text ++ rest.take 1).isEmpty = false := by
    simp [typed.text_ne_nil]
  rw [ask, htaken]
  simp only [hne, htrim, typed.signed?_eq, Numeral.read]
  by_cases hlength : typed.digits.length ≤ digitLimit
  · simp only [if_pos hlength, typed.withSign_eq]
    rfl
  · simp only [if_neg hlength]
    rfl

private theorem State.events_record (event : Event) (s : State) :
    (s.record event).events = s.events ++ [event] :=
  List.reverse_cons

/-- A statement that the limit leaves room for begins. -/
private theorem Statement.exists_begun
    (hlimit : ∀ bound ∈ bounds.limit, (s.steps : Int) + 1 ≤ bound)
    (statement : Statement) (top : Option Int) {room : Nat} (hroom : room ≠ 0) :
    ∃ (begun : State) (body : Body → State → Outcome),
      statement.run bounds top room s = statement.act bounds.fuel body begun ∧
        begun.store = s.store ∧ begun.input = s.input ∧ begun.steps ≤ s.steps + 1 ∧
          begun.events = s.events ++ [.started statement.line statement.form] := by
  obtain ⟨room, rfl⟩ := Nat.exists_eq_succ_of_ne_zero hroom
  have hbegin : ∃ steps ≤ s.steps + 1, s.begin bounds.limit statement.line statement.form =
      .done ({ s with steps }.record (.started statement.line statement.form)) := by
    cases hbounds : bounds.limit with
    | none => exact ⟨s.steps, Nat.le_succ _, rfl⟩
    | some bound => exact ⟨s.steps + 1, Nat.le_refl _, if_pos (hlimit bound hbounds)⟩
  obtain ⟨steps, hsteps, hbegin⟩ := hbegin
  refine ⟨{ s with steps }.record (.started statement.line statement.form),
    Body.run bounds top room, ?_, rfl, rfl, hsteps, State.events_record _ _⟩
  rw [run_succ, hbegin]
  rfl

/-- A variable is set to the value of a literal. -/
private theorem Statement.run_assign_number
    (hlimit : ∀ bound ∈ bounds.limit, (s.steps : Int) + 1 ≤ bound) (line place top : Option Int)
    {room : Nat} (hroom : room ≠ 0) (name : String) (n : Int) :
    ∃ t, (assign line name (.number place n)).run bounds top room s = .done t ∧
      t.store = s.store.put name n ∧ t.input = s.input ∧ t.steps ≤ s.steps + 1 ∧
        t.events = s.events ++ [.started line .assign] := by
  obtain ⟨begun, body, hrun, hstore, hinput, hsteps, hevents⟩ :=
    exists_begun hlimit (assign line name (.number place n)) top hroom
  have hvalue : (Expr.number place n).value begun.store = .ok n := Expr.value_eq_evaluate _ _
  refine ⟨begun.put name n, ?_, congrArg (Store.put · name n) hstore, hinput, hsteps, hevents⟩
  rw [hrun, act, hvalue, State.given]

/-- A number that is typed becomes the value of the variable, unless it has too many digits. -/
private theorem Statement.run_input_typed
    (hlimit : ∀ bound ∈ bounds.limit, (s.steps : Int) + 1 ≤ bound) (line top : Option Int)
    {room : Nat} (hroom : room ≠ 0) (name : String) (typed : TypedNumber) {rest : List Char}
    (hrest : ∀ c ∈ rest.head?, c = '\n') (hinput : s.input = typed.text ++ rest) :
    ∃ t, t.input = rest.drop 1 ∧ t.steps ≤ s.steps + 1 ∧
      t.events = s.events ++ [.started line .input, .asked name] ∧
      (typed.digits.length ≤ digitLimit →
        (input line name).run bounds top room s = .done t ∧
          t.store = s.store.put name typed.value) ∧
      (digitLimit < typed.digits.length →
        (input line name).run bounds top room s =
          .failed (.broken (.numeralTooLong typed.digits.length)) t ∧ t.store = s.store) := by
  obtain ⟨begun, body, hrun, hstore, hbegun, hsteps, hevents⟩ :=
    exists_begun hlimit (input line name) top hroom
  have hask := begun.ask_typed typed hrest (hbegun.trans hinput) line name
  let asked : State := { begun with input := rest.drop 1 }.record (.asked name)
  have hlog : asked.events = s.events ++ [.started line .input, .asked name] := by
    have hbegun : { begun with input := rest.drop 1 }.events = begun.events := rfl
    rw [State.events_record, hbegun, hevents, List.append_assoc]
    rfl
  rw [hrun, act, hask]
  by_cases hlength : typed.digits.length ≤ digitLimit
  · rw [if_pos hlength]
    refine ⟨asked.put name typed.value, rfl, hsteps, hlog, fun _ => ⟨rfl, ?_⟩,
      fun h => absurd hlength (Nat.not_le_of_lt h)⟩
    exact congrArg (Store.put · name typed.value) hstore
  · rw [if_neg hlength]
    exact ⟨asked, rfl, hsteps, hlog, fun h => absurd h hlength, fun _ => ⟨rfl, hstore⟩⟩

-- the limit on digits is too large a power to be computed
attribute [local irreducible] Numeral.write in
private theorem State.display_eq (v : Int) (s : State) :
    s.display v =
      match Numeral.write v with
      | .error b => .failed (.broken b) s
      | .ok _ => .done (s.record (.displayed v)) :=
  rfl

private theorem State.display_of_isWritable {v : Int} (h : Numeral.IsWritable v) :
    s.display v = .done (s.record (.displayed v)) := by
  rw [display_eq, Numeral.write_of_isWritable h]

private theorem State.display_of_not_isWritable {v : Int} (h : ¬ Numeral.IsWritable v) :
    s.display v = .failed (.broken .valueTooLong) s := by
  rw [display_eq, Numeral.write_of_not_isWritable h]

/-- A value that is displayed is written in decimal, unless its decimal has too many digits. -/
private theorem Statement.run_display (hlimit : ∀ bound ∈ bounds.limit, (s.steps : Int) + 1 ≤ bound)
    (line top : Option Int) {room : Nat} (hroom : room ≠ 0) {e : Expr} {v : Int}
    (hvalue : e.value s.store = .ok v) :
    ∃ t, t.store = s.store ∧ t.input = s.input ∧
      (Numeral.IsWritable v → (display line e).run bounds top room s = .done t ∧
        t.events = s.events ++ [.started line .display, .displayed v]) ∧
      (¬ Numeral.IsWritable v →
        (display line e).run bounds top room s = .failed (.broken .valueTooLong) t ∧
          t.events = s.events ++ [.started line .display]) := by
  obtain ⟨begun, body, hrun, hstore, hinput, -, hevents⟩ :=
    exists_begun hlimit (display line e) top hroom
  rw [hrun, act, hstore, hvalue, State.given]
  by_cases hv : Numeral.IsWritable v
  · refine ⟨begun.record (.displayed v), hstore, hinput, fun _ => ?_, fun h => absurd hv h⟩
    refine ⟨State.display_of_isWritable hv, ?_⟩
    rw [State.events_record, hevents, List.append_assoc]
    rfl
  · refine ⟨begun, hstore, hinput, fun h => absurd h hv, fun _ => ?_⟩
    exact ⟨State.display_of_not_isWritable hv, hevents⟩

/-! ### Programs of two lines -/

namespace Program

private theorem run_pair (first second : Statement) (s : State) :
    run bounds ⟨[first, second]⟩ s =
      (first.run bounds first.line runningLimit { s with steps := 0 }).andThen
        (second.run bounds second.line runningLimit) := by
  rw [run, Outcome.sequence_cons]
  congr 1
  funext s'
  exact Outcome.sequence_singleton _ second s'

/-- Behind a statement that is done, the value of a variable is displayed. -/
private theorem run_displaying (hlimit : ∀ bound ∈ bounds.limit, 2 ≤ bound) {first : Statement}
    {t : State} (hfirst : first.run bounds first.line runningLimit { s with steps := 0 } = .done t)
    (hsteps : t.steps ≤ 1) (hwritable : Numeral.IsWritable (t.store.get name))
    (line place : Option Int) :
    ∃ t', run bounds ⟨[first, .display line (.var place name)]⟩ s = .done t' ∧
      t'.store = t.store ∧ t'.input = t.input ∧
        t'.events = t.events ++ [.started line .display, .displayed (t.store.get name)] := by
  have hvalue : (Expr.var place name).value t.store = .ok (t.store.get name) :=
    Expr.value_eq_evaluate _ _
  have hroom : ∀ bound ∈ bounds.limit, (t.steps : Int) + 1 ≤ bound := fun bound hbound => by
    have htwo := hlimit bound hbound
    omega
  obtain ⟨t', hstore, hinput, hdone, -⟩ :=
    Statement.run_display hroom line line (by decide : runningLimit ≠ 0) hvalue
  obtain ⟨hdone, hevents⟩ := hdone hwritable
  refine ⟨t', ?_, hstore, hinput, hevents⟩
  rw [run_pair, hfirst]
  exact hdone

end Program

/-- What is written for further events comes behind what was written. -/
private theorem State.output_of_events {t : State} {more : List Event}
    (h : t.events = s.events ++ more)
    (prompts : Bool) :
    t.output prompts = s.output prompts ++ String.join (more.map (Event.output prompts)) := by
  rw [output, h, List.map_append, String.join_append]
  rfl

/-! ### Numbers keep their value -/

section Value

variable (hlimit : ∀ bound ∈ bounds.limit, 2 ≤ bound)
include hlimit

/-- A program begins with as much room for statements as the limit leaves. -/
private theorem Bounds.room_at_start (s : State) :
    ∀ bound ∈ bounds.limit, (({ s with steps := 0 } : State).steps : Int) + 1 ≤ bound := by
  intro bound hbound
  have htwo := hlimit bound hbound
  simp only [Int.cast_ofNat_Int]
  omega

/-- A literal that a variable is set to is displayed in decimal. -/
theorem Program.shows_literal (hname : Kind.IsIdentifier name) (s : State) {digits : String}
    (hdigits : Kind.isNumeral digits.toList = true) (hlength : digits.length ≤ digitLimit) :
    ∃ program, ofLines ["let " ++ name ++ " := " ++ digits, "display " ++ name] = .ok program ∧
      ∃ t text, program.run bounds s = .done t ∧
        Numeral.IsDecimal (Numeral.value digits.toList) text ∧
          ∀ prompts, t.output prompts = s.output prompts ++ (text ++ "\n") := by
  have hread : Numeral.read digits.toList = .ok (Numeral.value digits.toList) := if_pos hlength
  generalize Numeral.value digits.toList = n at hread
  have hwritable : Numeral.IsWritable n := by
    rw [Kind.isNumeral, Bool.and_eq_true, List.all_eq_true] at hdigits
    exact Numeral.lt_bound_of_read hdigits.2 hread
  refine ⟨⟨[.assign (some 0) name (.number (some 0) n), .display (some 1) (.var (some 1) name)]⟩,
    ?_, ?_⟩
  · rw [ofLines_pair, Progress.start, Progress.feed_let hname hdigits, hread, ok_bind,
      Progress.feed_display hname, ok_bind]
    exact finish_of_settlesAt (Progress.settlesAt_self _ _ _)
  · obtain ⟨t, hfirst, hstore, -, hsteps, hevents⟩ :=
      Statement.run_assign_number (Bounds.room_at_start hlimit s) (some 0) (some 0) (some 0)
        (by decide : runningLimit ≠ 0) name n
    have hget : t.store.get name = n := by rw [hstore, Store.get_put_self]
    obtain ⟨t', hrun, -, -, hlog⟩ :=
      run_displaying hlimit hfirst hsteps (hget ▸ hwritable) (some 1) (some 1)
    refine ⟨t', Numeral.render n, hrun, Numeral.isDecimal_iff.mpr rfl, fun prompts => ?_⟩
    rw [hevents, hget, List.append_assoc] at hlog
    rw [State.output_of_events hlog]
    rfl

omit hlimit in
/-- A literal of too many digits is not read. -/
theorem Program.ofLines_long_literal (hname : Kind.IsIdentifier name) {digits : String}
    (hdigits : Kind.isNumeral digits.toList = true) (hlength : digitLimit < digits.length)
    (more : List String) :
    ofLines (("let " ++ name ++ " := " ++ digits) :: more) =
      .error (.broken (.numeralTooLong digits.length)) := by
  have hread : Numeral.read digits.toList = .error (.numeralTooLong digits.length) :=
    if_neg (Nat.not_le_of_lt hlength)
  rw [ofLines, List.foldlM_cons, Progress.start, Progress.feed_let hname hdigits, hread]
  rfl

/-- A number that is typed is displayed in decimal, unless it has too many digits. -/
theorem Program.shows_typed (hname : Kind.IsIdentifier name) (s : State) :
    ∃ program, ofLines ["input " ++ name, "display " ++ name] = .ok program ∧
      ∀ (typed : TypedNumber) (rest : List Char), (∀ c ∈ rest.head?, c = '\n') →
        s.input = typed.text ++ rest →
        (typed.digits.length ≤ digitLimit → ∃ t text, program.run bounds s = .done t ∧
          Numeral.IsDecimal typed.value text ∧ ∀ prompts, t.output prompts =
            s.output prompts ++ ((Event.asked name).output prompts ++ (text ++ "\n"))) ∧
        (digitLimit < typed.digits.length → ∃ t,
          program.run bounds s = .failed (.broken (.numeralTooLong typed.digits.length)) t ∧
            t.store = s.store ∧ t.events = s.events ++ [.started (some 0) .input, .asked name] ∧
              ∀ prompts, t.output prompts =
                s.output prompts ++ (Event.asked name).output prompts) := by
  refine ⟨⟨[.input (some 0) name, .display (some 1) (.var (some 1) name)]⟩, ?_, ?_⟩
  · rw [ofLines_pair, Progress.start, Progress.feed_input hname, ok_bind,
      Progress.feed_display hname, ok_bind]
    exact finish_of_settlesAt (Progress.settlesAt_self _ _ _)
  · intro typed rest hrest hinput
    obtain ⟨t, -, hsteps, hevents, hdone, hfailed⟩ :=
      Statement.run_input_typed (Bounds.room_at_start hlimit s) (some 0) (some 0)
        (by decide : runningLimit ≠ 0) name typed hrest hinput
    refine ⟨fun hlength => ?_, fun hlength => ?_⟩
    · obtain ⟨hfirst, hstore⟩ := hdone hlength
      have hget : t.store.get name = typed.value := by rw [hstore, Store.get_put_self]
      have hwritable : Numeral.IsWritable typed.value := typed.isWritable_value hlength
      obtain ⟨t', hrun, -, -, hlog⟩ :=
        run_displaying hlimit hfirst hsteps (hget ▸ hwritable) (some 1) (some 1)
      refine ⟨t', Numeral.render typed.value, hrun, Numeral.isDecimal_iff.mpr rfl,
        fun prompts => ?_⟩
      rw [hevents, hget, List.append_assoc] at hlog
      rw [State.output_of_events hlog]
      simp only [List.cons_append, List.nil_append, List.map_cons, List.map_nil, String.join_cons,
        String.join_nil, Event.output, String.empty_append, String.append_empty]
      rfl
    · obtain ⟨hfirst, hstore⟩ := hfailed hlength
      refine ⟨t, ?_, hstore, hevents, fun prompts => ?_⟩
      · rw [run_pair]
        exact congrArg (Outcome.andThen · _) hfirst
      · rw [State.output_of_events hevents]
        rfl

end Value

/-- A value is displayed in decimal, unless its decimal has too many digits. -/
theorem Statement.shows_value (hlimit : ∀ bound ∈ bounds.limit, (s.steps : Int) + 1 ≤ bound)
    (line top : Option Int) {room : Nat} (hroom : room ≠ 0) {e : Expr} {v : Int}
    (hvalue : e.value s.store = .ok v) :
    (v.natAbs < 10 ^ digitLimit → ∃ t text,
      (display line e).run bounds top room s = .done t ∧ Numeral.IsDecimal v text ∧
        ∀ prompts, t.output prompts = s.output prompts ++ (text ++ "\n")) ∧
    (10 ^ digitLimit ≤ v.natAbs → ∃ t,
      (display line e).run bounds top room s = .failed (.broken .valueTooLong) t ∧
        ∀ prompts, t.output prompts = s.output prompts) := by
  obtain ⟨t, -, -, hdone, hfailed⟩ := run_display hlimit line top hroom hvalue
  rw [← Numeral.bound_eq]
  refine ⟨fun hbound => ?_, fun hbound => ?_⟩
  · obtain ⟨hrun, hevents⟩ := hdone hbound
    refine ⟨t, Numeral.render v, hrun, Numeral.isDecimal_iff.mpr rfl, fun prompts => ?_⟩
    rw [State.output_of_events hevents]
    rfl
  · obtain ⟨hrun, hevents⟩ := hfailed (Nat.not_lt.mpr hbound)
    refine ⟨t, hrun, fun prompts => ?_⟩
    rw [State.output_of_events hevents]
    exact String.append_empty

/-- **Numbers keep their value as text**, up to the limit on digits. A literal that a variable is
set to, and a number that is typed for a variable, are displayed in decimal if they are written with
no more digits than the limit allows; else the literal is not read, and the number that is typed
breaks the run down there, with the store as it was and nothing written. A value of an expression
is displayed in decimal if it has no more digits than that, and else nothing is written. -/
theorem Program.shows_numbers (hname : Kind.IsIdentifier name)
    (hlimit : ∀ bound ∈ bounds.limit, 2 ≤ bound) (s : State) :
    (∀ digits : String, Kind.isNumeral digits.toList = true →
      let lines := ["let " ++ name ++ " := " ++ digits, "display " ++ name]
      (digits.length ≤ digitLimit →
        ∃ program, ofLines lines = .ok program ∧ ∃ t text, program.run bounds s = .done t ∧
          Numeral.IsDecimal (Numeral.value digits.toList) text ∧
            ∀ prompts, t.output prompts = s.output prompts ++ (text ++ "\n")) ∧
      (digitLimit < digits.length →
        ofLines lines = .error (.broken (.numeralTooLong digits.length)))) ∧
    (∃ program, ofLines ["input " ++ name, "display " ++ name] = .ok program ∧
      ∀ (typed : TypedNumber) (rest : List Char), (∀ c ∈ rest.head?, c = '\n') →
        s.input = typed.text ++ rest →
        (typed.digits.length ≤ digitLimit → ∃ t text, program.run bounds s = .done t ∧
          Numeral.IsDecimal typed.value text ∧ ∀ prompts, t.output prompts =
            s.output prompts ++ ((Event.asked name).output prompts ++ (text ++ "\n"))) ∧
        (digitLimit < typed.digits.length → ∃ t,
          program.run bounds s = .failed (.broken (.numeralTooLong typed.digits.length)) t ∧
            t.store = s.store ∧ t.events = s.events ++ [.started (some 0) .input, .asked name] ∧
              ∀ prompts, t.output prompts =
                s.output prompts ++ (Event.asked name).output prompts)) ∧
    ∀ (line top : Option Int) (room : Nat) (e : Expr) (v : Int), room ≠ 0 →
      (∀ bound ∈ bounds.limit, (s.steps : Int) + 1 ≤ bound) → e.value s.store = .ok v →
      (v.natAbs < 10 ^ digitLimit → ∃ t text,
        (Statement.display line e).run bounds top room s = .done t ∧ Numeral.IsDecimal v text ∧
          ∀ prompts, t.output prompts = s.output prompts ++ (text ++ "\n")) ∧
      (10 ^ digitLimit ≤ v.natAbs → ∃ t,
        (Statement.display line e).run bounds top room s = .failed (.broken .valueTooLong) t ∧
          ∀ prompts, t.output prompts = s.output prompts) := by
  refine ⟨fun digits hdigits => ⟨?_, ?_⟩, shows_typed hlimit hname s, ?_⟩
  · exact shows_literal hlimit hname s hdigits
  · exact fun hlength => ofLines_long_literal hname hdigits hlength _
  · exact fun line top room e v hroom hsteps hvalue =>
      Statement.shows_value hsteps line top hroom hvalue

/-- Numbers with leading zeros and white space, and a literal with one digit too many. -/
theorem Program.shows_numbers_of_zeros :
    let s := State.initial .empty " -012\t\n5"
    (∃ program, ofLines ["let x := 007", "display x"] = .ok program ∧
      ∃ t, program.run ⟨some 2, 0⟩ s = .done t ∧ t.output false = "7\n") ∧
    (∃ program, ofLines ["input x", "display x"] = .ok program ∧
      ∃ t, program.run ⟨some 2, 0⟩ s = .done t ∧ t.output false = "-12\n") ∧
    ofLines ["let x := " ++ String.ofList (List.replicate (digitLimit + 1) '0'), "display x"] =
      .error (.broken (.numeralTooLong (digitLimit + 1))) := by
  have hname : Kind.IsIdentifier "x" := by decide +kernel
  have hlimit : ∀ bound ∈ (Bounds.mk (some 2) 0).limit, 2 ≤ bound := by decide
  let typed : TypedNumber :=
    ⟨[' '], ['-'], ['0', '1', '2'], ['\t'], rfl, by decide, rfl, rfl, by decide⟩
  obtain ⟨hliteral, ⟨program, hprogram, htyped⟩, -⟩ :=
    shows_numbers hname hlimit (State.initial .empty " -012\t\n5")
  refine ⟨?_, ⟨program, hprogram, ?_⟩, ?_⟩
  · obtain ⟨program, hprogram, t, text, hrun, htext, houtput⟩ :=
      (hliteral "007" rfl).1 (by decide)
    rw [Numeral.isDecimal_iff.mp htext] at houtput
    exact ⟨program, hprogram, t, hrun, houtput false⟩
  · obtain ⟨t, text, hrun, htext, houtput⟩ :=
      (htyped typed ['\n', '5'] (by rintro _ ⟨⟩; rfl) rfl).1 (by decide)
    rw [Numeral.isDecimal_iff.mp htext] at houtput
    exact ⟨t, hrun, houtput false⟩
  · have hzeros : ∀ n,
        Kind.isNumeral (String.ofList (List.replicate (n + 1) '0')).toList = true := by
      intro n
      simp [Kind.isNumeral]
    have hlength : ∀ n, (String.ofList (List.replicate n '0')).length = n := by
      intro n
      rw [String.length_ofList, List.length_replicate]
    have hlong := (hliteral _ (hzeros digitLimit)).2
    rw [hlength] at hlong
    exact hlong (Nat.lt_succ_self digitLimit)

end Running

end Offside
