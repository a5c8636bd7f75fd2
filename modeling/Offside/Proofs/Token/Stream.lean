import Offside.Proofs.Token.Settled
import Offside.Token.Stream

/-!
# What a stream answers

A stream goes by two things of all that was asked of it: which line was scanned last, of those that
scan, and how many tokens were taken since. The token that is taken next is the next of that line,
and the last one for ever when the line is used up. Lines that do not scan, and tokens that are
only shown, make no difference (`respond_by_history`).
-/

namespace Offside.Stream

/-- The stream behind requests that are made one after another. -/
def after (stream : Stream) (requests : List Request) : Stream :=
  requests.foldl (fun stream request => (stream.respond request).2) stream

/-- The tokens that a request brings into a stream, if it is to scan a line that scans. -/
def Request.tokens? : Request → Option (List Token)
  | scan row line => (TokenLine.scanAt row line.toList).toOption.map TokenLine.toList
  | next | peek => none

variable {stream : Stream} {request : Request} {requests : List Request} {tokens : List Token}

private theorem after_append (stream : Stream) (front back : List Request) :
    stream.after (front ++ back) = (stream.after front).after back :=
  List.foldl_append

/-! ### One request -/

/-- There is a token at hand unless the stream has none at all. -/
theorem peek_eq_error_iff {breakdown : Breakdown} :
    stream.peek = .error breakdown ↔ stream.tokens = [] ∧ breakdown = .noTokens := by
  rw [peek]
  split
  · next token hindex =>
    have hne : stream.tokens ≠ [] := List.ne_nil_of_mem (List.mem_of_getElem? hindex)
    simp [hne]
  · split
    · next token hlast =>
      have hne : stream.tokens ≠ [] := List.ne_nil_of_mem (List.mem_of_getLast? hlast)
      simp [hne]
    · next hlast => simp [List.getLast?_eq_none_iff.mp hlast, eq_comm]

/-- The token at hand, where some have been taken: the next, or the last when all of them have. -/
theorem peek_eq_ok {index : Nat} (htokens : tokens ≠ []) (hindex : index ≤ tokens.length) :
    ∃ token, tokens[min (index + 1) tokens.length - 1]? = some token ∧
      peek ⟨tokens, index⟩ = .ok token := by
  have hpos : 0 < tokens.length := List.length_pos_iff.mpr htokens
  rw [peek]
  rcases Nat.lt_or_eq_of_le hindex with hlt | rfl
  · have hnumber : min (index + 1) tokens.length - 1 = index := by omega
    rw [hnumber, List.getElem?_eq_getElem hlt]
    exact ⟨_, rfl, rfl⟩
  · have hnumber : min (tokens.length + 1) tokens.length - 1 = tokens.length - 1 := by omega
    rw [hnumber, List.getElem?_eq_none (Nat.le_refl _), ← List.getLast?_eq_getElem?,
      List.getLast?_eq_some_getLast htokens]
    exact ⟨_, rfl, rfl⟩

private theorem respond_next_of_peek {token : Token} (h : stream.peek = .ok token) :
    stream.respond .next = (.ok (.token token), stream.advance) := by
  rw [respond, next, h]
  rfl

/-- To show a token is answered as to take it. -/
theorem respond_peek (stream : Stream) :
    stream.respond .peek = ((stream.respond .next).1, stream) := by
  rw [respond, respond, next]
  cases stream.peek <;> rfl

/-- A line that scans is all that there is in the stream behind it. -/
private theorem respond_of_tokens? (stream : Stream) (h : request.tokens? = some tokens) :
    stream.respond request = (.ok (.tokens tokens), ⟨tokens, 0⟩) := by
  cases request with
  | scan row line =>
    obtain ⟨scanned, hscan, rfl⟩ := Option.map_eq_some_iff.mp h
    rw [respond, ofLine]
    cases hline : TokenLine.scanAt row line.toList with
    | error failure =>
      rw [hline] at hscan
      cases hscan
    | ok whole =>
      rw [hline] at hscan
      cases hscan
      rfl
  | next | peek => cases h

private theorem respond_scan_of_error (stream : Stream) {row : Int} {line : String}
    {failure : Failure}
    (h : TokenLine.scanAt row line.toList = .error failure) :
    stream.respond (.scan row line) = (.error failure, stream) := by
  rw [respond, ofLine, h]

/-- A request that brings in no tokens leaves the stream as it is, but for the token that it may
take. -/
private theorem respond_of_tokens?_eq_none (stream : Stream) (h : request.tokens? = none) :
    (stream.respond request).2 = if request = .next then stream.advance else stream := by
  cases request with
  | scan row line =>
    cases hline : TokenLine.scanAt row line.toList with
    | error failure => rw [respond_scan_of_error stream hline, if_neg nofun]
    | ok whole =>
      rw [Request.tokens?, hline] at h
      cases h
  | peek => rw [respond_peek, if_neg nofun]
  | next =>
    rw [if_pos rfl]
    cases hpeek : stream.peek with
    | ok token => rw [respond_next_of_peek hpeek]
    | error breakdown =>
      have hstream : stream.advance = stream := by
        rw [advance, (peek_eq_error_iff.mp hpeek).1]
        exact if_neg (Nat.not_lt_zero _)
      rw [respond, next, hpeek, hstream]
      rfl

/-! ### Histories -/

/-- **Between two lines** a stream has taken as many tokens as it was asked for, as long as there
were any. -/
private theorem after_of_forall_tokens? {index : Nat} (hindex : index ≤ tokens.length)
    (h : ∀ request ∈ requests, request.tokens? = none) :
    after ⟨tokens, index⟩ requests =
      ⟨tokens, min (index + requests.count .next) tokens.length⟩ := by
  induction requests generalizing index with
  | nil =>
    rw [List.count_nil, Nat.add_zero, Nat.min_eq_left hindex]
    rfl
  | cons request rest ih =>
    obtain ⟨hrequest, hrest⟩ := List.forall_mem_cons.mp h
    change after (respond ⟨tokens, index⟩ request).2 rest = _
    rw [respond_of_tokens?_eq_none _ hrequest]
    by_cases hnext : request = .next
    · subst hnext
      rw [if_pos rfl, List.count_cons_self, advance]
      dsimp only
      split
      · next hlt => rw [ih hlt hrest, Nat.succ_add, Nat.add_succ]
      · next hge =>
        rw [ih hindex hrest]
        congr 1
        omega
    · rw [if_neg hnext, List.count_cons_of_ne hnext, ih hindex hrest]

/-- Before any line has scanned there are no tokens. -/
private theorem after_empty_of_forall_tokens? (h : ∀ request ∈ requests, request.tokens? = none) :
    empty.after requests = empty := by
  rw [empty, after_of_forall_tokens? (Nat.le_refl 0) h, List.length_nil, Nat.min_zero]

/-- The line that was scanned last is in the stream, and the tokens taken since are counted. -/
private theorem after_scan {during : List Request} (stream : Stream) (before : List Request)
    (hrequest : request.tokens? = some tokens) (hduring : ∀ other ∈ during, other.tokens? = none) :
    stream.after (before ++ request :: during) =
      ⟨tokens, min (during.count .next) tokens.length⟩ := by
  rw [after_append]
  change after ((stream.after before).respond request).2 during = _
  rw [respond_of_tokens? _ hrequest, after_of_forall_tokens? (Nat.zero_le _) hduring, Nat.zero_add]

/-- Of requests of which some bring in tokens, one is the last to do so. -/
private theorem exists_last_tokens? (h : ¬ ∀ request ∈ requests, request.tokens? = none) :
    ∃ before request during tokens, requests = before ++ request :: during ∧
      request.tokens? = some tokens ∧ ∀ other ∈ during, other.tokens? = none := by
  induction requests with
  | nil => exact absurd (List.forall_mem_nil _) h
  | cons request rest ih =>
    by_cases hrest : ∀ other ∈ rest, other.tokens? = none
    · have hrequest : request.tokens? ≠ none := fun hnone =>
        h (List.forall_mem_cons.mpr ⟨hnone, hrest⟩)
      obtain ⟨tokens, htokens⟩ := Option.ne_none_iff_exists'.mp hrequest
      exact ⟨[], request, rest, tokens, rfl, htokens, hrest⟩
    · obtain ⟨before, last, during, tokens, rfl, hlast⟩ := ih hrest
      exact ⟨request :: before, last, during, tokens, rfl, hlast⟩

/-- The tokens of a line that scans, of which the last ends the line. -/
private theorem Request.ends_of_tokens? (h : request.tokens? = some tokens) :
    ∃ front stop, tokens = front ++ [stop] ∧ stop.kind = .endOfLine ∧ stop.lexeme = ";" := by
  cases request with
  | scan row line =>
    obtain ⟨scanned, hscan, rfl⟩ := Option.map_eq_some_iff.mp h
    cases hline : TokenLine.scanAt row line.toList with
    | error failure =>
      rw [hline] at hscan
      cases hscan
    | ok whole =>
      rw [hline] at hscan
      cases hscan
      rw [TokenLine.scanAt] at hline
      split at hline
      · cases hline
      · obtain ⟨front, -, rfl⟩ := TokenLine.scan_eq_ok_iff.mp hline
        exact ⟨front, _, rfl, rfl, rfl⟩
  | next | peek => cases h

/-- **The next token** is the one behind those taken since the line was scanned, or the last. -/
private theorem respond_next_after {during : List Request} (stream : Stream) (before : List Request)
    (hrequest : request.tokens? = some tokens) (hduring : ∀ other ∈ during, other.tokens? = none) :
    ∃ token, tokens[min (during.count .next + 1) tokens.length - 1]? = some token ∧
      (stream.after (before ++ request :: during)).respond .next =
        (.ok (.token token), ⟨tokens, min (during.count .next + 1) tokens.length⟩) := by
  have hne : tokens ≠ [] := by
    obtain ⟨front, stop, rfl, -⟩ := Request.ends_of_tokens? hrequest
    exact List.concat_ne_nil stop front
  obtain ⟨token, hnumber, hpeek⟩ := peek_eq_ok hne (Nat.min_le_right (during.count .next) _)
  have hcount : min (min (during.count .next) tokens.length + 1) tokens.length =
      min (during.count .next + 1) tokens.length := by omega
  refine ⟨token, hcount ▸ hnumber, ?_⟩
  rw [after_scan stream before hrequest hduring, respond_next_of_peek hpeek, advance]
  dsimp only
  split <;> congr 2 <;> omega

/-- **No token** can be taken exactly as long as no line has scanned. -/
theorem respond_next_eq_error_iff (history : List Request) :
    ((empty.after history).respond .next).1 = .error (.broken .noTokens) ↔
      ∀ request ∈ history, request.tokens? = none := by
  by_cases hall : ∀ request ∈ history, request.tokens? = none
  · rw [after_empty_of_forall_tokens? hall]
    exact iff_of_true rfl hall
  · refine iff_of_false (fun hfails => ?_) hall
    obtain ⟨before, request, during, tokens, rfl, hrequest, hduring⟩ := exists_last_tokens? hall
    obtain ⟨token, -, hnext⟩ := respond_next_after empty before hrequest hduring
    rw [hnext] at hfails
    cases hfails

/-- **A stream answers by its history.** A line that scans starts over. Behind the last such line,
the stream has taken as many tokens as it was asked for, up to all of them, and the next one that it
takes is the one behind these, or the last when they are used up, which ends the line. A token that
is shown is the one that would be taken, and nothing else changes; nor does anything when a line
does not scan. There is no token at all exactly as long as no line has scanned. -/
theorem respond_by_history (history : List Request) :
    let stream := empty.after history
    (∀ before request during tokens, history = before ++ request :: during →
      request.tokens? = some tokens → (∀ other ∈ during, other.tokens? = none) →
      let taken := during.count .next
      stream = ⟨tokens, min taken tokens.length⟩ ∧
      ∃ token, tokens[min (taken + 1) tokens.length - 1]? = some token ∧
        stream.respond .next = (.ok (.token token), ⟨tokens, min (taken + 1) tokens.length⟩) ∧
        (tokens.length ≤ taken + 1 → token.kind = .endOfLine ∧ token.lexeme = ";")) ∧
    stream.respond .peek = ((stream.respond .next).1, stream) ∧
    (∀ request tokens, request.tokens? = some tokens →
      stream.respond request = (.ok (.tokens tokens), ⟨tokens, 0⟩)) ∧
    (∀ row line failure, TokenLine.scanAt row line.toList = .error failure →
      stream.respond (.scan row line) = (.error failure, stream)) ∧
    ((stream.respond .next).1 = .error (.broken .noTokens) ↔
      ∀ request ∈ history, request.tokens? = none) ∧
    ((stream.respond .peek).1 = .error (.broken .noTokens) ↔
      ∀ request ∈ history, request.tokens? = none) := by
  intro stream
  refine ⟨?_, respond_peek stream, fun _ _ => respond_of_tokens? stream,
    fun _ _ _ => respond_scan_of_error stream, respond_next_eq_error_iff history, ?_⟩
  · rintro before request during tokens rfl hrequest hduring
    obtain ⟨token, hnumber, hnext⟩ := respond_next_after empty before hrequest hduring
    refine ⟨after_scan empty before hrequest hduring, token, hnumber, hnext, fun hused => ?_⟩
    -- the line is used up, so the token is the last one
    obtain ⟨front, stop, rfl, hkind, hlexeme⟩ := Request.ends_of_tokens? hrequest
    rw [Nat.min_eq_right hused, List.length_append, List.length_singleton, Nat.add_sub_cancel,
      List.getElem?_concat_length] at hnumber
    cases hnumber
    exact ⟨hkind, hlexeme⟩
  · rw [respond_peek]
    exact respond_next_eq_error_iff history

/-- A line of three tokens, one that does not scan, and tokens that are shown and taken. -/
theorem respond_by_history_of_display :
    let history : List Request :=
      [.next, .scan 0 "input y", .next, .scan 4 "display x", .next, .peek, .scan 5 "?", .next,
        .next]
    let stream := empty.after history
    stream.index = 3 ∧ (∃ token : Token, token.kind = .endOfLine ∧ token.lexeme = ";" ∧
      stream.respond .next = (.ok (.token token), stream) ∧
      stream.respond .peek = (.ok (.token token), stream)) := by
  intro history stream
  obtain ⟨htaking, hpeek, -⟩ := respond_by_history history
  have hduring : ∀ other ∈ [Request.next, .peek, .scan 5 "?", .next, .next],
      other.tokens? = none := by decide +kernel
  obtain ⟨tokens, htokens, hlength⟩ : ∃ tokens,
      (Request.scan 4 "display x").tokens? = some tokens ∧ tokens.length = 3 :=
    Option.map_eq_some_iff.mp (show _ = some 3 by decide +kernel)
  obtain ⟨hstream, token, -, hnext, hends⟩ :=
    htaking [.next, .scan 0 "input y", .next] _ _ tokens rfl htokens hduring
  have hcount : [Request.next, .peek, .scan 5 "?", .next, .next].count .next = 3 := by decide
  rw [hcount, hlength] at hstream hnext hends
  obtain ⟨hkind, hlexeme⟩ := hends (by decide)
  refine ⟨congrArg Stream.index hstream, token, hkind, hlexeme, ?_, ?_⟩
  · exact hnext.trans (congrArg (Prod.mk _) hstream.symm)
  · exact hpeek.trans (congrArg (fun answer => (answer.1, stream)) hnext)

end Offside.Stream
