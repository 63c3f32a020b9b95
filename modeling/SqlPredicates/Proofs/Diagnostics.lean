import SqlPredicates.Proofs.ErrorPlaces
import SqlPredicates.Proofs.Rule.NameResolution
import SqlPredicates.Proofs.Rule.Places

/-!
# Diagnostics point into the text

Three passes report what is wrong: reading, checking and evaluating. A report quotes the line of its
place and puts a caret there, so the place has to be one of the text that the rule was read from.

A syntax error has its place from the tokens of the text, see `SyntaxError.PointsInto`. The complaints
of a check and the failure of an evaluation copy their spans from the rule: from a node, from an
argument of a call, or from the name of the function. `Expr.Marks` lists these spans. That nothing
else is copied is shown for one node at a time, and a part passes its spans on to everything around
it. If the rule has been read from a text, then each of these spans is that of some tokens of the
text, one behind the other, and so it is not empty, lies inside the text and begins with a token.

Nothing is assumed about the functions, and the rule need not be free of other faults.

## Main definitions

* `Expr.Marks` — the spans in a rule that diagnostics have
* `Span.PointsInto` — spans that begin with a token of the text

## Main results

* `Expr.marks_of_mem_checkRule`, `Expr.marks_of_evaluateRule` — where complaints and failures stand
* `Expr.Marks.pointsInto` — what these spans are in the text of a rule
* `diagnostics_point_into_text` — all three passes
-/

namespace SqlPredicates

namespace Expr

/-- The span of an expression inside the rule, or of the name of a function that is called there. -/
inductive Marks (rule : Expr) : Span → Prop
  | expr {inner : Expr} (h : inner.Within rule) : Marks rule inner.span
  | callee {ident : Ident} {args : List Expr} {argsSpan span : Span}
      (h : (call ident args argsSpan span).Within rule) : Marks rule ident.span

variable {registry : Registry} {object : ObjectName} {complaint : CheckError} {err : EvalError}
  {e part : Expr} {s : Span}

theorem marks_self (e : Expr) : e.Marks e.span := .expr (within_refl e)

theorem Marks.of_part (h : part.Marks s) (hp : part ∈ e.parts) : e.Marks s := by
  cases h with
  | expr h => exact .expr (h.of_part hp)
  | callee h => exact .callee (h.of_part hp)

/-! ### Complaints -/

/-- A complaint about the arguments of a call stands at one of them. -/
theorem exists_of_mem_argumentErrors {name : String} {index : ℕ} {types : List (Option Ty)}
    {params : List Ty} {args : List Expr}
    (h : complaint ∈ Checker.argumentErrors name index types params args) :
    ∃ arg ∈ args, complaint.span = arg.span := by
  fun_induction Checker.argumentErrors name index types params args with
  | case1 _ _ _ _ _ _ _ ih | case2 _ _ _ _ _ _ _ ih =>
    -- nothing is wrong with the first argument
    obtain ⟨arg, harg, hspan⟩ := ih h
    exact ⟨arg, List.mem_cons_of_mem _ harg, hspan⟩
  | case3 index types expected params arg args rest ty hne ih =>
    rcases List.mem_cons.mp h with rfl | h
    · exact ⟨arg, List.mem_cons_self, rfl⟩
    · obtain ⟨arg', harg, hspan⟩ := ih h
      exact ⟨arg', List.mem_cons_of_mem arg harg, hspan⟩
  | case4 => cases h

theorem marks_of_mem_callType {ident : Ident} {args : List Expr} {argsSpan span : Span}
    {types : List (Option Ty)}
    (h : complaint ∈ (Checker.callType registry ident args span types).2) :
    (call ident args argsSpan span).Marks complaint.span := by
  rw [Checker.callType] at h
  split at h
  · obtain rfl := List.mem_singleton.mp h
    exact .callee (within_refl _)
  · dsimp only at h
    split at h
    · obtain ⟨arg, harg, hspan⟩ := exists_of_mem_argumentErrors h
      rw [hspan]
      exact (marks_self arg).of_part harg
    · obtain rfl := List.mem_singleton.mp h
      exact marks_self _

theorem span_of_mem_unaryType {op : UnaryOp} {span : Span} {ty : Option Ty}
    (h : complaint ∈ (Checker.unaryType op span ty).2) : complaint.span = span := by
  rw [Checker.unaryType.eq_def] at h
  split at h
  · cases h
  · split at h
    · cases h
    · obtain rfl := List.mem_singleton.mp h
      rfl

theorem span_of_mem_binaryType {op : BinaryOp} {span : Span} {lhs rhs : Option Ty}
    (h : complaint ∈ (Checker.binaryType op span lhs rhs).2) : complaint.span = span := by
  rw [Checker.binaryType.eq_def] at h
  split at h
  · split at h
    · cases h
    · obtain rfl := List.mem_singleton.mp h
      rfl
  · cases h

theorem exists_of_mem_assessAll {es : List Expr} (h : complaint ∈ (assessAll registry es).2) :
    ∃ e ∈ es, complaint ∈ (e.assess registry).2 := by
  induction es with
  | nil => cases h
  | cons e es ih =>
    rw [assessAll] at h
    rcases List.mem_append.mp h with h | h
    · exact ⟨e, List.mem_cons_self, h⟩
    · obtain ⟨e', he', h⟩ := ih h
      exact ⟨e', List.mem_cons_of_mem e he', h⟩

/-- **Complaints about an expression** stand at a node inside, or at a name that is called there. -/
theorem marks_of_mem_assess (h : complaint ∈ (e.assess registry).2) : e.Marks complaint.span := by
  induction e using induction_on_parts with
  | _ e ih =>
    cases e with
    | integer value span =>
      rw [assess, Checker.literalErrors] at h
      split at h
      · cases h
      · obtain rfl := List.mem_singleton.mp h
        exact marks_self (.integer value span)
    | string value span =>
      rw [assess] at h
      cases h
    | var ident =>
      rw [assess, Checker.variableType] at h
      split at h
      · cases h
      · obtain rfl := List.mem_singleton.mp h
        exact marks_self (.var ident)
    | call ident args argsSpan span =>
      rw [assess] at h
      rcases List.mem_append.mp h with h | h
      · obtain ⟨arg, harg, h⟩ := exists_of_mem_assessAll h
        exact (ih arg harg h).of_part harg
      · exact marks_of_mem_callType h
    | paren inner span =>
      rw [assess] at h
      have hp : inner ∈ (paren inner span).parts := List.mem_singleton_self inner
      exact (ih inner hp h).of_part hp
    | unary op operand span =>
      rw [assess] at h
      have hp : operand ∈ (unary op operand span).parts := List.mem_singleton_self operand
      rcases List.mem_append.mp h with h | h
      · exact (ih operand hp h).of_part hp
      · rw [span_of_mem_unaryType h]
        exact marks_self (.unary op operand span)
    | binary op lhs rhs span =>
      rw [assess] at h
      have hl : lhs ∈ (binary op lhs rhs span).parts := List.mem_cons_self
      have hr : rhs ∈ (binary op lhs rhs span).parts := by simp [parts]
      rcases List.mem_append.mp h with h | h
      · rcases List.mem_append.mp h with h | h
        · exact (ih lhs hl h).of_part hl
        · exact (ih rhs hr h).of_part hr
      · rw [span_of_mem_binaryType h]
        exact marks_self (.binary op lhs rhs span)

theorem marks_of_mem_checkRule (h : complaint ∈ checkRule registry e) : e.Marks complaint.span := by
  rw [checkRule_eq] at h
  rcases List.mem_append.mp h with h | h
  · exact marks_of_mem_assess h
  · split at h
    · cases h
    · cases h
    · obtain rfl := List.mem_singleton.mp h
      exact marks_self e

/-! ### Failures -/

/-- The failure of a node stands at the node or at the name that is called. -/
theorem FailsAt.marks (h : FailsAt registry e err) : e.Marks err.span := by
  cases h with
  | unknownFunction => exact .callee (within_refl _)
  | unary fault | binary fault => cases fault <;> exact marks_self _
  | integer | unknownVariable | arityMismatch | callFailed => exact marks_self _

theorem marks_of_eval (h : e.eval registry object = .error err) : e.Marks err.span := by
  induction e using induction_on_parts with
  | _ e ih =>
    rcases eval_eq_error h with hfails | ⟨part, hp, h⟩
    · exact hfails.marks
    · exact (ih part hp h).of_part hp

theorem marks_of_evaluateRule (h : evaluateRule registry object e = .error err) :
    e.Marks err.span := by
  rw [evaluateRule] at h
  rcases Evaluation.bind_eq_error.mp h with h | ⟨v, -, h⟩
  · exact marks_of_eval h
  · split at h
    · cases h
    · cases h
      exact marks_self e

end Expr

/-! ### Spans in a text -/

variable {text : String}

/-- The span is not empty, lies inside the text and begins where a token begins. -/
structure Span.PointsInto (text : String) (s : Span) : Prop where
  start_lt : s.start < s.stop
  stop_le : s.stop ≤ Text.bytes text.toList
  starts : ∃ t : Token, .ok t ∈ tokenize text ∧ t.span.start = s.start

/-- The span of tokens that stand together. -/
theorem Spans.pointsInto {ts us : List Token} {s : Span} (hs : Spans us s)
    (htokens : tokenize text = ts.map .ok) (hus : us <:+: ts) : s.PointsInto text := by
  obtain ⟨hboundaries, -⟩ := tokenize_slice htokens hus hs
  obtain ⟨t, vs, rfl, hstart⟩ := hs.first
  have ht : t ∈ ts := hus.subset List.mem_cons_self
  exact
    { start_lt := hs.start_lt ((ordered_of_tokenize htokens).of_part hus)
      stop_le := hboundaries.stop.le
      starts := ⟨t, by rw [htokens]; exact List.mem_map_of_mem ht, hstart⟩ }

/-- **The spans of diagnostics in the text of a rule.** A node is spelled by tokens that stand
together, and the name of a function that is called is a token by itself. -/
theorem Expr.Marks.pointsInto {rule : Expr} {s : Span} (hs : rule.Marks s)
    (h : parseRule text = .ok rule) : s.PointsInto text := by
  obtain ⟨ts, htokens, hspells, -⟩ := exists_tokens_of_parseRule h
  cases hs with
  | expr hinner =>
    obtain ⟨us, hus, hspells⟩ := hspells.exists_of_within hinner
    have hspans := hspells.spans ((ordered_of_tokenize htokens).of_part hus)
    exact hspans.pointsInto htokens hus
  | callee hcall =>
    obtain ⟨us, hus, hspells⟩ := hspells.exists_of_within hcall
    cases hspells with
    | call name span opening closing =>
      have hname : [(⟨.identifier name, span⟩ : Token)] <:+: ts :=
        (List.prefix_append [_] _).isInfix.trans hus
      exact (spans_singleton (.identifier name) span).pointsInto htokens hname

/-- **Diagnostics point into the text.** The offset of a syntax error lies inside the text or at its
end. It is the place where the text cannot be cut into tokens, and then the text has there what the
error is about; or the start of a token, or the end of the text; or there is nothing to read. If a
rule has been read from the text, then every complaint of a check and every failure of an evaluation
stands at a node of the rule or at the name of a function that is called, and so at a part of the
text that is not empty and begins with a token. -/
theorem diagnostics_point_into_text :
    (∀ (text : String) (e : SyntaxError),
      parseRule text = .error e ∨ parseCondition text = .error e →
        e.offset ≤ Text.bytes text.toList ∧ e.PointsInto text) ∧
      ∀ (text : String) (rule : Expr), parseRule text = .ok rule → ∀ registry : Registry,
        (∀ complaint ∈ checkRule registry rule,
          rule.Marks complaint.span ∧ complaint.span.PointsInto text) ∧
        ∀ (object : ObjectName) (err : EvalError),
          evaluateRule registry object rule = .error err →
            rule.Marks err.span ∧ err.span.PointsInto text := by
  constructor
  · intro text e h
    have hpoints : e.PointsInto text := by
      rcases h with h | h
      · exact pointsInto_of_parseRule h
      · exact pointsInto_of_parseCondition h
    exact ⟨hpoints.offset_le, hpoints⟩
  · intro text rule h registry
    constructor
    · intro complaint hcomplaint
      have hmarks := Expr.marks_of_mem_checkRule hcomplaint
      exact ⟨hmarks, hmarks.pointsInto h⟩
    · intro object err herr
      have hmarks := Expr.marks_of_evaluateRule herr
      exact ⟨hmarks, hmarks.pointsInto h⟩

/-- The rule `1 / 0 = nowhere('x')`, which can neither be checked nor evaluated. -/
def dividedByZeroRule : Expr :=
  .binary .equal (.binary .divide (.integer 1 ⟨0, 1⟩) (.integer 0 ⟨4, 5⟩) ⟨0, 5⟩)
    (.call ⟨"nowhere", ⟨8, 15⟩⟩ [.string ⟨"x", .single⟩ ⟨16, 19⟩] ⟨15, 20⟩ ⟨8, 20⟩) ⟨0, 20⟩

/-- A quote that is not closed, a call that ends too early, and a rule whose check and evaluation
fail at different places. -/
theorem diagnostics_point_into_text_dividedByZeroRule :
    (parseCondition "a & 'b" = .error (.unterminatedString 4) ∧
        (SyntaxError.unterminatedString 4).PointsInto "a & 'b") ∧
      (parseRule "len(name " = .error (.unexpected 9 .commaOrClosing .endOfInput) ∧
        (SyntaxError.unexpected 9 .commaOrClosing .endOfInput).PointsInto "len(name ") ∧
      parseRule "1 / 0 = nowhere('x')" = .ok dividedByZeroRule ∧
      (checkRule Registry.standard dividedByZeroRule = [.unknownFunction "nowhere" ⟨8, 15⟩] ∧
        Span.PointsInto "1 / 0 = nowhere('x')" ⟨8, 15⟩) ∧
      evaluateRule Registry.standard ⟨"t", "table", "dbo"⟩ dividedByZeroRule =
          .error (.divisionByZero ⟨0, 5⟩) ∧
        Span.PointsInto "1 / 0 = nowhere('x')" ⟨0, 5⟩ := by
  obtain ⟨herrors, hspans⟩ := diagnostics_point_into_text
  have hquote : parseCondition "a & 'b" = .error (.unterminatedString 4) := by decide +kernel
  have hend : parseRule "len(name " = .error (.unexpected 9 .commaOrClosing .endOfInput) := by
    decide +kernel
  have hrule : parseRule "1 / 0 = nowhere('x')" = .ok dividedByZeroRule := by decide +kernel
  have hcheck : checkRule Registry.standard dividedByZeroRule =
      [.unknownFunction "nowhere" ⟨8, 15⟩] := by decide +kernel
  have heval : evaluateRule Registry.standard ⟨"t", "table", "dbo"⟩ dividedByZeroRule =
      .error (.divisionByZero ⟨0, 5⟩) := by decide +kernel
  obtain ⟨hcomplaints, hfailures⟩ := hspans _ _ hrule Registry.standard
  obtain ⟨-, hcomplaint⟩ := hcomplaints (.unknownFunction "nowhere" ⟨8, 15⟩) (by simp [hcheck])
  exact ⟨⟨hquote, (herrors _ _ (.inr hquote)).2⟩, ⟨hend, (herrors _ _ (.inl hend)).2⟩, hrule,
    ⟨hcheck, hcomplaint⟩, heval, (hfailures _ _ heval).2⟩

end SqlPredicates
