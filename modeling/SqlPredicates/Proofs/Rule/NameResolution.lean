import SqlPredicates.Proofs.Rule.InferredTypes

/-!
# Names that cannot be resolved

An evaluation stops at the first name that it cannot resolve: a variable, a function, or a function
with another number of parameters. This file shows that the checker has complained about that name,
with the same spelling, the same counts and the same place.

The two passes go through an expression in different orders. The evaluation looks up a function
before it evaluates the arguments, and leaves out operands; the checker visits every part, the
arguments before the call. So the passes are not compared step by step. A failure of an evaluation
is the failure of one node inside (`Expr.exists_failsAt`), and the complaints about a node are among
the complaints about everything around it (`Expr.complaints_subset_of_within`). What remains is to
compare the two passes at a single node.

Nothing is assumed about the functions, nor about the rest of the expression.

## Main definitions

* `Evaluation.OperationFault`, `Expr.FailsAt` — how an operation, and how a node, can fail by itself
* `EvalError.complaint?` — the complaint that says the same as a failure

## Main results

* `Expr.eval_eq_error` — a node fails by itself or as one of its parts does
* `Expr.exists_failsAt` — where a failure comes from
* `Expr.complaints_subset_of_within` — complaints are passed on
* `complaint_of_eval` — a name that cannot be resolved has been complained about
-/

namespace SqlPredicates

/-! ### How a node can fail -/

namespace Evaluation

/-- How an operation with operands that have values can fail. -/
inductive OperationFault (span : Span) : EvalError → Prop
  | operatorType (operation : Operation) : OperationFault span (.operatorType operation span)
  | divisionByZero : OperationFault span (.divisionByZero span)
  | integerOverflow : OperationFault span (.integerOverflow span)

variable {span : Span} {err : EvalError}

theorem Sound.fault {ty : Ty} (h : Sound ty span (.error err)) : OperationFault span err := by
  rcases h with ⟨v, hv, -⟩ | h | h
  · cases hv
  · cases h
    exact .divisionByZero
  · cases h
    exact .integerOverflow

theorem unary_eq_error {op : UnaryOp} {v : Value} (h : unary op span v = .error err) :
    OperationFault span err := by
  cases hty : Ty.unary? op v.ty with
  | none =>
    rw [unary_of_none span hty] at h
    cases h
    exact .operatorType _
  | some result =>
    have hsound := unary_of_ty span hty rfl
    rw [h] at hsound
    exact hsound.fault

theorem binary_eq_error {op : BinaryOp} {l r : Value} (h : binary op span l r = .error err) :
    OperationFault span err := by
  cases hty : Ty.binary? op l.ty r.ty with
  | none =>
    rw [binary_of_none span hty] at h
    cases h
    exact .operatorType _
  | some result =>
    have hsound := binary_of_ty span hty rfl rfl
    rw [h] at hsound
    exact hsound.fault

theorem inRange_eq_error {n : ℤ} (h : inRange span n = .error err) :
    err = .integerOverflow span := by
  rw [inRange] at h
  split at h
  · cases h
  · cases h
    rfl

/-- Evaluations one after the other fail as the first of them that does. -/
theorem bind_eq_error {α β : Type} {x : Except EvalError α} {f : α → Except EvalError β} :
    x >>= f = .error err ↔ x = .error err ∨ ∃ a, x = .ok a ∧ f a = .error err := by
  cases x with
  | error err => simp [bind, Except.bind]
  | ok a => simp [bind, Except.bind]

end Evaluation

namespace Expr

/-- How the evaluation of an expression can fail when all the parts that it needs have values. -/
inductive FailsAt (registry : Registry) : Expr → EvalError → Prop
  | integer {value : UInt64} {span : Span} :
      FailsAt registry (.integer value span) (.integerOverflow span)
  | unknownVariable {ident : Ident} (unknown : Variable.ofName? ident.name = none) :
      FailsAt registry (.var ident) (.unknownVariable ident.name ident.span)
  | unknownFunction {ident : Ident} {args : List Expr} {argsSpan span : Span}
      (unknown : registry.get? ident.name = none) :
      FailsAt registry (.call ident args argsSpan span) (.unknownFunction ident.name ident.span)
  | arityMismatch {ident : Ident} {args : List Expr} {argsSpan span : Span} {f : Function}
      (known : registry.get? ident.name = some f) (differs : f.arity ≠ args.length) :
      FailsAt registry (.call ident args argsSpan span)
        (.arityMismatch f.ident f.arity args.length span)
  | callFailed {ident : Ident} {args : List Expr} {argsSpan span : Span} {f : Function}
      {cause : CallError} (known : registry.get? ident.name = some f) :
      FailsAt registry (.call ident args argsSpan span) (.callFailed f.ident cause span)
  | unary {op : UnaryOp} {operand : Expr} {span : Span} {err : EvalError}
      (fault : Evaluation.OperationFault span err) : FailsAt registry (.unary op operand span) err
  | binary {op : BinaryOp} {lhs rhs : Expr} {span : Span} {err : EvalError}
      (fault : Evaluation.OperationFault span err) : FailsAt registry (.binary op lhs rhs span) err

variable {registry : Registry} {object : ObjectName} {err : EvalError}

/-- Expressions in a row fail as one of them does. -/
theorem evalAll_eq_error {es : List Expr} (h : evalAll registry object es = .error err) :
    ∃ e ∈ es, e.eval registry object = .error err := by
  induction es with
  | nil => cases h
  | cons e es ih =>
    rw [evalAll] at h
    rcases Evaluation.bind_eq_error.mp h with h | ⟨v, -, h⟩
    · exact ⟨e, List.mem_cons_self, h⟩
    · rcases Evaluation.bind_eq_error.mp h with h | ⟨vs, -, h⟩
      · obtain ⟨e', he', h⟩ := ih h
        exact ⟨e', List.mem_cons_of_mem e he', h⟩
      · cases h

theorem eval_call_eq_error {ident : Ident} {args : List Expr} {argsSpan span : Span}
    (h : (Expr.call ident args argsSpan span).eval registry object = .error err) :
    FailsAt registry (.call ident args argsSpan span) err ∨
      ∃ arg ∈ args, arg.eval registry object = .error err := by
  rw [eval] at h
  split at h
  · next hunknown =>
    cases h
    exact .inl (.unknownFunction hunknown)
  · next f hf =>
    split_ifs at h with harity
    · rcases Evaluation.bind_eq_error.mp h with h | ⟨values, -, h⟩
      · exact .inr (evalAll_eq_error h)
      · split at h
        · cases h
        · cases h
          exact .inl (.callFailed hf)
    · cases h
      exact .inl (.arityMismatch hf harity)

theorem eval_binary_eq_error {op : BinaryOp} {lhs rhs : Expr} {span : Span}
    (h : (Expr.binary op lhs rhs span).eval registry object = .error err) :
    lhs.eval registry object = .error err ∨ rhs.eval registry object = .error err ∨
      Evaluation.OperationFault span err := by
  rw [eval] at h
  rcases Evaluation.bind_eq_error.mp h with h | ⟨l, -, h⟩
  · exact .inl h
  · split at h
    · cases h
    · rcases Evaluation.bind_eq_error.mp h with h | ⟨r, -, h⟩
      · exact .inr (.inl h)
      · exact .inr (.inr (Evaluation.binary_eq_error h))

/-- **A node fails by itself or as one of its parts does.** -/
theorem eval_eq_error {e : Expr} (h : e.eval registry object = .error err) :
    FailsAt registry e err ∨ ∃ part ∈ e.parts, part.eval registry object = .error err := by
  cases e with
  | integer value span =>
    rw [eval] at h
    obtain rfl := Evaluation.inRange_eq_error h
    exact .inl .integer
  | string value span =>
    rw [eval] at h
    cases h
  | var ident =>
    rw [eval] at h
    split at h
    · cases h
    · next hunknown =>
      cases h
      exact .inl (.unknownVariable hunknown)
  | call ident args argsSpan span => exact eval_call_eq_error h
  | paren inner span =>
    rw [eval] at h
    exact .inr ⟨inner, List.mem_singleton_self _, h⟩
  | unary op operand span =>
    rw [eval] at h
    rcases Evaluation.bind_eq_error.mp h with h | ⟨v, -, h⟩
    · exact .inr ⟨operand, List.mem_singleton_self _, h⟩
    · exact .inl (.unary (Evaluation.unary_eq_error h))
  | binary op lhs rhs span =>
    rcases eval_binary_eq_error h with h | h | h
    · exact .inr ⟨lhs, List.mem_cons_self, h⟩
    · exact .inr ⟨rhs, by simp [parts], h⟩
    · exact .inl (.binary h)

/-- Every failure of an evaluation is the failure of one node inside. -/
theorem exists_failsAt {e : Expr} (h : e.eval registry object = .error err) :
    ∃ inner : Expr, inner.Within e ∧ FailsAt registry inner err := by
  induction e using induction_on_parts with
  | _ e ih =>
    rcases eval_eq_error h with hfails | ⟨part, hp, h⟩
    · exact ⟨e, within_refl e, hfails⟩
    · obtain ⟨inner, hinner, hfails⟩ := ih part hp h
      exact ⟨inner, hinner.of_part hp, hfails⟩

/-! ### Complaints about what is inside -/

theorem complaints_subset_assessAll {e : Expr} {es : List Expr} (he : e ∈ es) :
    (e.assess registry).2 ⊆ (assessAll registry es).2 := by
  induction es with
  | nil => cases he
  | cons e' es ih =>
    rw [assessAll]
    rcases List.mem_cons.mp he with rfl | he
    · exact List.subset_append_left _ _
    · exact List.subset_append_of_subset_right _ (ih he)

/-- The complaints about a part are complaints about the expression. -/
theorem complaints_subset_of_mem_parts {e part : Expr} (hp : part ∈ e.parts) :
    (part.assess registry).2 ⊆ (e.assess registry).2 := by
  cases e with
  | integer | string | var => cases hp
  | call ident args argsSpan span =>
    rw [assess]
    exact List.subset_append_of_subset_left _ (complaints_subset_assessAll hp)
  | paren inner span =>
    obtain rfl := List.mem_singleton.mp hp
    rw [assess]
    exact List.Subset.refl _
  | unary op operand span =>
    obtain rfl := List.mem_singleton.mp hp
    rw [assess]
    exact List.subset_append_left _ _
  | binary op lhs rhs span =>
    simp only [parts, List.mem_cons, List.not_mem_nil, or_false] at hp
    rw [assess]
    refine List.subset_append_of_subset_left _ ?_
    rcases hp with rfl | rfl
    · exact List.subset_append_left _ _
    · exact List.subset_append_right _ _

/-- The complaints about an expression inside are complaints about the whole. -/
theorem complaints_subset_of_within {e inner : Expr} (h : inner.Within e) :
    (inner.assess registry).2 ⊆ (e.assess registry).2 := by
  have heverywhere : e.Everywhere fun inner =>
      (inner.assess registry).2 ⊆ (e.assess registry).2 :=
    everywhere_of_hereditary
      (fun _ _ hsubset hp => List.Subset.trans (complaints_subset_of_mem_parts hp) hsubset)
      (List.Subset.refl _)
  exact heverywhere inner h

end Expr

/-! ### Failures and complaints about names -/

/-- The complaint that says the same as a failure, for a name that cannot be resolved. -/
def EvalError.complaint? : EvalError → Option CheckError
  | unknownVariable name span => some (.unknownVariable name span)
  | unknownFunction name span => some (.unknownFunction name span)
  | arityMismatch name expected found span => some (.arityMismatch name expected found span)
  | _ => none

theorem EvalError.message_of_complaint? {err : EvalError} {complaint : CheckError}
    (h : err.complaint? = some complaint) :
    complaint.message = err.message ∧ complaint.span = err.span := by
  cases err with
  | unknownVariable | unknownFunction | arityMismatch =>
    cases h
    exact ⟨rfl, rfl⟩
  | _ => cases h

/-- A node at which a name cannot be resolved is complained about. The number of arguments is the
number of types that the checker has found for them. -/
theorem Expr.FailsAt.complaint_mem {registry : Registry} {e : Expr} {err : EvalError}
    {complaint : CheckError} (h : FailsAt registry e err)
    (hcomplaint : err.complaint? = some complaint) : complaint ∈ (e.assess registry).2 := by
  cases h with
  | integer | callFailed => cases hcomplaint
  | unary fault | binary fault => cases fault <;> cases hcomplaint
  | unknownVariable unknown =>
    cases hcomplaint
    simp [assess, Checker.variableType, unknown]
  | unknownFunction unknown =>
    cases hcomplaint
    simp [assess, Checker.callType, unknown]
  | arityMismatch known differs =>
    cases hcomplaint
    simp [assess, Checker.callType, known, differs]

/-- **Names that cannot be resolved have been complained about.** If an evaluation fails because of a
variable, a function or a number of arguments, then the check of the expression has the complaint
with the same name, the same counts and the same place, and so with the same wording. It does not
matter what else is wrong with the expression. -/
theorem complaint_of_eval (registry : Registry) (object : ObjectName) (e : Expr) (err : EvalError)
    (complaint : CheckError) (hfails : e.eval registry object = .error err)
    (hcomplaint : err.complaint? = some complaint) :
    complaint ∈ checkRule registry e ∧ complaint.message = err.message ∧
      complaint.span = err.span := by
  obtain ⟨inner, hinner, hnode⟩ := Expr.exists_failsAt hfails
  refine ⟨?_, EvalError.message_of_complaint? hcomplaint⟩
  rw [checkRule_eq]
  exact List.mem_append_left _
    (Expr.complaints_subset_of_within hinner (hnode.complaint_mem hcomplaint))

/-- The rule `LEN(missing, 1) > 2 AND nowhere(name)`, with three names that cannot be resolved. -/
def unresolvedRule : Expr :=
  .binary .and
    (.binary .greater
      (.call ⟨"LEN", ⟨0, 3⟩⟩
        [.var ⟨"missing", ⟨4, 11⟩⟩, .integer 1 ⟨13, 14⟩] ⟨3, 15⟩ ⟨0, 15⟩)
      (.integer 2 ⟨18, 19⟩) ⟨0, 19⟩)
    (.call ⟨"nowhere", ⟨24, 31⟩⟩ [.var ⟨"name", ⟨32, 36⟩⟩] ⟨31, 37⟩ ⟨24, 37⟩) ⟨0, 37⟩

/-- The evaluation stops at the number of arguments, about which the checker complains only after
the variable. Both name the function as the registry spells it. -/
theorem complaint_of_eval_unresolvedRule :
    unresolvedRule.eval Registry.standard ⟨"t", "table", "dbo"⟩
        = .error (.arityMismatch "len" 1 2 ⟨0, 15⟩) ∧
      checkRule Registry.standard unresolvedRule =
        [.unknownVariable "missing" ⟨4, 11⟩, .arityMismatch "len" 1 2 ⟨0, 15⟩,
          .unknownFunction "nowhere" ⟨24, 31⟩] ∧
      .arityMismatch "len" 1 2 ⟨0, 15⟩ ∈ checkRule Registry.standard unresolvedRule := by
  have heval : unresolvedRule.eval Registry.standard ⟨"t", "table", "dbo"⟩
      = .error (.arityMismatch "len" 1 2 ⟨0, 15⟩) := by cbv
  have hcheck : checkRule Registry.standard unresolvedRule =
      [.unknownVariable "missing" ⟨4, 11⟩, .arityMismatch "len" 1 2 ⟨0, 15⟩,
        .unknownFunction "nowhere" ⟨24, 31⟩] := by decide
  obtain ⟨hmem, -⟩ := complaint_of_eval Registry.standard ⟨"t", "table", "dbo"⟩ unresolvedRule
    (.arityMismatch "len" 1 2 ⟨0, 15⟩) (.arityMismatch "len" 1 2 ⟨0, 15⟩) heval rfl
  exact ⟨heval, hcheck, hmem⟩

end SqlPredicates
