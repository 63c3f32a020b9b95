import SqlPredicates.Proofs.Rule.TypeSoundness

/-!
# Integer expressions are evaluated exactly

Integers have 64 bits, but no result is ever cut to size: an expression of integers has its
mathematical value, or it fails. To say when it fails, the value is computed a second time over the
unbounded integers (`Expr.exactValue?`), where nothing but a division by zero is without a value.

The evaluation fails at the first expression, in the order of evaluation, that has a fault of its
own (`Expr.fault?`): a divisor that is zero, or a value out of range. The order is that of the text,
operands before their operation (`Expr.postorder`). As nothing before the first fault is at fault,
the operands there have their exact values, and the fault can be told from these.

One fault does not show in the value. A remainder of two integers is always in range, but it is
computed along with the quotient, and the quotient of the least integer and `-1` is not.

## Main definitions

* `Expr.IsArithmetic` — the expressions of integers
* `Expr.exactValue?` — the value over the unbounded integers
* `Expr.postorder` — the expressions inside an expression, operands first
* `Expr.fault?` — the failure that an expression causes itself
* `Expr.StaysInRange` — expressions without faults

## Main results

* `Evaluation.arithmetic_eq` — an operation on two integers
* `Expr.firstFault_or_exact` — the first fault or the exact value
* `eval_arithmetic` — the same, for the standard functions
-/

namespace SqlPredicates

/-! ### Integers of 64 bits -/

/-- Whether a number is an integer of 64 bits. -/
def fitsInt64 (n : ℤ) : Bool := -2 ^ 63 ≤ n && n < 2 ^ 63

theorem fitsInt64_iff {n : ℤ} : fitsInt64 n = true ↔ -2 ^ 63 ≤ n ∧ n < 2 ^ 63 := by
  simp [fitsInt64]

theorem fitsInt64_toInt (n : Int64) : fitsInt64 n.toInt = true :=
  fitsInt64_iff.mpr ⟨n.le_toInt, n.toInt_lt⟩

/-- The quotient of two integers of 64 bits is one, with a single exception. -/
theorem fitsInt64_tdiv {a b : ℤ} (ha : fitsInt64 a = true) (hb : b ≠ 0) :
    fitsInt64 (a.tdiv b) = true ↔ ¬ (a = -2 ^ 63 ∧ b = -1) := by
  rw [fitsInt64_iff] at ha ⊢
  obtain rfl | hne := eq_or_ne b (-1)
  · rw [Int.tdiv_neg, Int.tdiv_one]
    omega
  obtain rfl | hne' := eq_or_ne b 1
  · rw [Int.tdiv_one]
    omega
  -- a divisor with more than one unit halves the quotient at least
  have htwo : 2 ≤ b.natAbs := by omega
  have hhalf : (a.tdiv b).natAbs ≤ a.natAbs / 2 := by
    rw [Int.natAbs_tdiv]
    exact Nat.div_le_div_left htwo (by decide)
  omega

/-! ### Exact values -/

namespace BinaryOp

/-- The operators of arithmetic. -/
def arithmetic : List BinaryOp := [add, subtract, multiply, divide, remainder]

/-- The operator divides. -/
def divides (op : BinaryOp) : Bool := op == divide || op == remainder

/-- The result of an operator of arithmetic over the unbounded integers. Division is toward zero. -/
def exactResult? : BinaryOp → ℤ → ℤ → Option ℤ
  | add, a, b => some (a + b)
  | subtract, a, b => some (a - b)
  | multiply, a, b => some (a * b)
  | divide, a, b => if b = 0 then none else some (a.tdiv b)
  | remainder, a, b => if b = 0 then none else some (a.tmod b)
  | _, _, _ => none

theorem exactResult?_eq_none_iff {op : BinaryOp} (hop : op ∈ arithmetic) {a b : ℤ} :
    op.exactResult? a b = none ↔ op.divides = true ∧ b = 0 := by
  simp only [arithmetic, List.mem_cons, List.not_mem_nil, or_false] at hop
  rcases hop with rfl | rfl | rfl | rfl | rfl <;> simp [exactResult?, divides]

end BinaryOp

namespace Expr

/-- The expressions of integers: literals, the lengths of the properties of the object, parentheses
and arithmetic. -/
inductive IsArithmetic : Expr → Prop
  | integer (value : UInt64) (span : Span) : IsArithmetic (.integer value span)
  | length {f ident : Ident} {v : Variable} (hf : Text.sameAscii "len" f.name = true)
      (hv : Variable.ofName? ident.name = some v) (argsSpan span : Span) :
      IsArithmetic (.call f [.var ident] argsSpan span)
  | paren {inner : Expr} (h : IsArithmetic inner) (span : Span) : IsArithmetic (.paren inner span)
  | neg {operand : Expr} (h : IsArithmetic operand) (span : Span) :
      IsArithmetic (.unary .neg operand span)
  | binary {op : BinaryOp} {lhs rhs : Expr} (hop : op ∈ BinaryOp.arithmetic)
      (hl : IsArithmetic lhs) (hr : IsArithmetic rhs) (span : Span) :
      IsArithmetic (.binary op lhs rhs span)

/-- The value over the unbounded integers, if there is no division by zero. -/
def exactValue? (object : ObjectName) : Expr → Option ℤ
  | integer value _ => some value.toNat
  | call f [var ident] _ _ =>
    if Text.sameAscii "len" f.name then
      (Variable.ofName? ident.name).map fun v => (StandardFunctions.len (object.get v) : ℤ)
    else none
  | paren inner _ => inner.exactValue? object
  | unary .neg operand _ => (operand.exactValue? object).map fun n => -n
  | binary op lhs rhs _ =>
    (lhs.exactValue? object).bind fun a =>
      (rhs.exactValue? object).bind fun b => op.exactResult? a b
  | _ => none

/-! ### The order of evaluation -/

mutual

/-- The expressions inside an expression, from left to right, and each after what is inside it. -/
def postorder : Expr → List Expr
  | integer value span => [integer value span]
  | string value span => [string value span]
  | var ident => [var ident]
  | call ident args argsSpan span => postorderAll args ++ [call ident args argsSpan span]
  | paren inner span => postorder inner ++ [paren inner span]
  | unary op operand span => postorder operand ++ [unary op operand span]
  | binary op lhs rhs span => postorder lhs ++ postorder rhs ++ [binary op lhs rhs span]

/-- The same for several expressions, one after the other. -/
def postorderAll : List Expr → List Expr
  | [] => []
  | e :: es => postorder e ++ postorderAll es

end

theorem postorderAll_eq_flatMap (es : List Expr) : postorderAll es = es.flatMap postorder := by
  induction es with
  | nil => rfl
  | cons e es ih => rw [postorderAll, ih, List.flatMap_cons]

theorem postorder_eq (e : Expr) : e.postorder = e.parts.flatMap postorder ++ [e] := by
  cases e with
  | call => rw [postorder, postorderAll_eq_flatMap, parts]
  | _ => simp [postorder, parts]

theorem mem_postorder_iff {inner e : Expr} : inner ∈ e.postorder ↔ inner.Within e := by
  induction e using induction_on_parts with
  | _ e ih =>
    rw [postorder_eq, within_iff, List.mem_append, List.mem_flatMap, List.mem_singleton, or_comm]
    exact or_congr_right (exists_congr fun part => and_congr_right fun hpart => ih part hpart)

/-! ### Faults -/

/-- The divisor is zero. -/
def dividesByZero (object : ObjectName) : Expr → Bool
  | binary op _ rhs _ => op.divides && rhs.exactValue? object == some 0
  | _ => false

/-- The value is out of range. -/
def hasLargeValue (object : ObjectName) (e : Expr) : Bool :=
  (e.exactValue? object).any fun n => !fitsInt64 n

/-- It is a remainder, and the quotient is out of range. -/
def hasLargeQuotient (object : ObjectName) : Expr → Bool
  | binary .remainder lhs rhs _ =>
    lhs.exactValue? object == some (-2 ^ 63) && rhs.exactValue? object == some (-1)
  | _ => false

/-- The failure that an expression causes itself. -/
def fault? (object : ObjectName) (e : Expr) : Option EvalError :=
  if e.dividesByZero object then some (.divisionByZero e.span)
  else if e.hasLargeValue object || e.hasLargeQuotient object then some (.integerOverflow e.span)
  else none

/-- The first failure in the order of evaluation. -/
def firstFault? (object : ObjectName) (e : Expr) : Option EvalError :=
  e.postorder.findSome? (fault? object)

/-- Literals and values are in range, no divisor is zero, and no remainder is taken of the least
integer and `-1`. -/
structure StaysInRange (object : ObjectName) (e : Expr) : Prop where
  literals : ∀ value span, (integer value span).Within e → value.toNat < 2 ^ 63
  values : ∀ (inner : Expr) (n : ℤ), inner.Within e → inner.exactValue? object = some n →
    -2 ^ 63 ≤ n ∧ n < 2 ^ 63
  divisors : ∀ op lhs rhs span, (binary op lhs rhs span).Within e →
    op = .divide ∨ op = .remainder → rhs.exactValue? object ≠ some 0
  remainders : ∀ lhs rhs span, (binary .remainder lhs rhs span).Within e →
    ¬ (lhs.exactValue? object = some (-2 ^ 63) ∧ rhs.exactValue? object = some (-1))

variable {object : ObjectName}

theorem fault?_eq_none_iff {e : Expr} :
    e.fault? object = none ↔
      e.dividesByZero object = false ∧ e.hasLargeValue object = false ∧
        e.hasLargeQuotient object = false := by
  rw [fault?]
  cases e.dividesByZero object <;> cases e.hasLargeValue object <;>
    cases e.hasLargeQuotient object <;> simp

theorem hasLargeValue_eq_false_iff {e : Expr} :
    e.hasLargeValue object = false ↔ ∀ n, e.exactValue? object = some n → fitsInt64 n = true := by
  cases h : e.exactValue? object with
  | none => simp [hasLargeValue, h]
  | some n => simp [hasLargeValue, h]

/-- An expression stays in range if nothing inside it is at fault. -/
theorem staysInRange_iff {e : Expr} :
    e.StaysInRange object ↔ ∀ inner ∈ e.postorder, inner.fault? object = none := by
  simp only [mem_postorder_iff, fault?_eq_none_iff, hasLargeValue_eq_false_iff, fitsInt64_iff]
  constructor
  · intro h inner hinner
    refine ⟨?_, fun n => h.values inner n hinner, ?_⟩
    · cases inner with
      | binary op lhs rhs span =>
        have hdivisor := h.divisors op lhs rhs span hinner
        simp only [dividesByZero, BinaryOp.divides, Bool.and_eq_false_iff, Bool.or_eq_false_iff,
          beq_eq_false_iff_ne]
        tauto
      | _ => rfl
    · cases inner with
      | binary op lhs rhs span =>
        cases op with
        | remainder => simpa [hasLargeQuotient] using h.remainders lhs rhs span hinner
        | _ => rfl
      | _ => rfl
  · intro h
    refine ⟨fun value span hinner => ?_, fun inner n hinner => (h inner hinner).2.1 n,
      fun op lhs rhs span hinner hop hzero => ?_, fun lhs rhs span hinner hextreme => ?_⟩
    · have hvalue := (h _ hinner).2.1 value.toNat rfl
      omega
    · have hfalse := (h _ hinner).1
      rcases hop with rfl | rfl <;> simp [dividesByZero, BinaryOp.divides, hzero] at hfalse
    · have hfalse := (h _ hinner).2.2
      simp [hasLargeQuotient, hextreme] at hfalse

end Expr

/-! ### Operations on two integers -/

namespace Evaluation

theorem inRange_of_fits {n : ℤ} (h : fitsInt64 n = true) (span : Span) :
    inRange span n = .ok (.integer (Int64.ofInt n)) := by
  have hrange : -0x8000000000000000 ≤ n ∧ n < 0x8000000000000000 := fitsInt64_iff.mp h
  rw [inRange, Value.ofInt?, if_pos hrange]

theorem inRange_of_not_fits {n : ℤ} (h : fitsInt64 n = false) (span : Span) :
    inRange span n = .error (.integerOverflow span) := by
  have hrange : ¬ (-0x8000000000000000 ≤ n ∧ n < 0x8000000000000000) := fun hrange =>
    Bool.false_ne_true (h.symm.trans (fitsInt64_iff.mpr hrange))
  rw [inRange, Value.ofInt?, if_neg hrange]

theorem arithmetic_zero {op : BinaryOp} (hop : op.divides = true) (span : Span) (a : ℤ) :
    arithmetic op span a 0 = .error (.divisionByZero span) := by
  obtain rfl | rfl : op = .divide ∨ op = .remainder := by simpa [BinaryOp.divides] using hop
  · rfl
  · rfl

theorem remainder_extreme (span : Span) :
    arithmetic .remainder span (-2 ^ 63) (-1) = .error (.integerOverflow span) := rfl

theorem binary?_of_mem_arithmetic {op : BinaryOp} (hop : op ∈ BinaryOp.arithmetic) :
    Ty.binary? op .integer .integer = some .integer := by
  simp only [BinaryOp.arithmetic, List.mem_cons, List.not_mem_nil, or_false] at hop
  rcases hop with rfl | rfl | rfl | rfl | rfl <;> rfl

/-- No operation is decided by an integer on its left. -/
theorem decided?_integer (op : BinaryOp) (n : Int64) : decided? op (.integer n) = none := by
  cases op <;> rfl

/-- **An operation on two integers gives its exact result if that is in range.** -/
theorem arithmetic_eq {op : BinaryOp} (span : Span) {a b n : ℤ} (ha : fitsInt64 a = true)
    (h : op.exactResult? a b = some n) (hquotient : ¬ (op = .remainder ∧ a = -2 ^ 63 ∧ b = -1)) :
    arithmetic op span a b = inRange span n := by
  cases op with
  | add | subtract | multiply =>
    cases h
    rfl
  | divide =>
    obtain ⟨hb, rfl⟩ : b ≠ 0 ∧ a.tdiv b = n := by simpa [BinaryOp.exactResult?] using h
    rw [arithmetic, divide, if_neg hb]
    cases inRange span (a.tdiv b) <;> rfl
  | remainder =>
    obtain ⟨hb, rfl⟩ : b ≠ 0 ∧ a.tmod b = n := by simpa [BinaryOp.exactResult?] using h
    have hfits : fitsInt64 (a.tdiv b) = true :=
      (fitsInt64_tdiv ha hb).mpr fun hextreme => hquotient ⟨rfl, hextreme⟩
    rw [arithmetic, divide, if_neg hb, inRange_of_fits hfits]
    rfl
  | _ => cases h

end Evaluation

/-! ### Outcomes -/

/-- An outcome is the failure, if there is one, and the integer otherwise. -/
def Explains (fault : Option EvalError) (exact : Option ℤ) (outcome : Except EvalError Value) :
    Prop :=
  (∃ err, fault = some err ∧ outcome = .error err) ∨
    fault = none ∧ ∃ n : Int64, exact = some n.toInt ∧ outcome = .ok (.integer n)

/-- What is done after a step that is explained. If the step fails, the failure is that of both. -/
theorem Explains.bind {fault fault' : Option EvalError} {exact exact' : Option ℤ}
    {outcome : Except EvalError Value} {next : Value → Except EvalError Value}
    (h : Explains fault exact outcome)
    (hnext : ∀ n : Int64, exact = some n.toInt → Explains fault' exact' (next (.integer n))) :
    Explains (fault.or fault') exact' (outcome >>= next) := by
  rcases h with ⟨err, rfl, rfl⟩ | ⟨rfl, n, hn, rfl⟩
  · exact .inl ⟨err, rfl, rfl⟩
  · rw [Option.none_or]
    exact hnext n hn

namespace Expr

variable {object : ObjectName}

/-- An expression without a fault in its operands whose result is only tested for its range. -/
theorem explains_inRange {e : Expr} {n : ℤ} (h : e.exactValue? object = some n)
    (hzero : e.dividesByZero object = false) (hquotient : e.hasLargeQuotient object = false) :
    Explains (e.fault? object) (e.exactValue? object) (Evaluation.inRange e.span n) := by
  have hlarge : e.hasLargeValue object = !fitsInt64 n := by rw [hasLargeValue, h, Option.any_some]
  cases hfits : fitsInt64 n with
  | true =>
    refine .inr ⟨fault?_eq_none_iff.mpr ⟨hzero, by rw [hlarge, hfits]; rfl, hquotient⟩,
      Int64.ofInt n, ?_, Evaluation.inRange_of_fits hfits e.span⟩
    obtain ⟨hlow, hhigh⟩ := fitsInt64_iff.mp hfits
    rw [h, Int64.toInt_ofInt_of_le hlow hhigh]
  | false =>
    refine .inl ⟨_, ?_, Evaluation.inRange_of_not_fits hfits e.span⟩
    simp [fault?, hzero, hlarge, hfits]

theorem fault?_eq_none_of_toInt {e : Expr} {n : Int64} (h : e.exactValue? object = some n.toInt)
    (hzero : e.dividesByZero object = false) (hquotient : e.hasLargeQuotient object = false) :
    e.fault? object = none := by
  refine fault?_eq_none_iff.mpr ⟨hzero, hasLargeValue_eq_false_iff.mpr fun m hm => ?_, hquotient⟩
  obtain rfl : n.toInt = m := Option.some.inj (h.symm.trans hm)
  exact fitsInt64_toInt n

/-- An operation on integers whose exact values are known. Without an exact result the divisor is
zero; with one, the remainder of the least integer and `-1` is told apart from the rest. -/
theorem explains_binary {op : BinaryOp} (hop : op ∈ BinaryOp.arithmetic) {lhs rhs : Expr}
    (span : Span) {a b : Int64} (ha : lhs.exactValue? object = some a.toInt)
    (hb : rhs.exactValue? object = some b.toInt) :
    Explains ((binary op lhs rhs span).fault? object) ((binary op lhs rhs span).exactValue? object)
      (Evaluation.arithmetic op span a.toInt b.toInt) := by
  have hexact : (binary op lhs rhs span).exactValue? object = op.exactResult? a.toInt b.toInt := by
    rw [exactValue?, ha, hb]
    rfl
  cases hresult : op.exactResult? a.toInt b.toInt with
  | none =>
    obtain ⟨hdivides, hzero⟩ := (BinaryOp.exactResult?_eq_none_iff hop).mp hresult
    refine .inl ⟨.divisionByZero span, ?_, ?_⟩
    · simp [fault?, dividesByZero, hdivides, hb, hzero, Expr.span]
    · rw [hzero, Evaluation.arithmetic_zero hdivides]
  | some n =>
    have hzero : (binary op lhs rhs span).dividesByZero object = false := by
      cases hdivides : op.divides with
      | false => simp [dividesByZero, hdivides]
      | true =>
        have hne : b.toInt ≠ 0 := fun hzero => by
          rw [(BinaryOp.exactResult?_eq_none_iff hop).mpr ⟨hdivides, hzero⟩] at hresult
          cases hresult
        simp [dividesByZero, hb, hne]
    by_cases hextreme : op = .remainder ∧ a.toInt = -2 ^ 63 ∧ b.toInt = -1
    · obtain ⟨rfl, ha', hb'⟩ := hextreme
      refine .inl ⟨.integerOverflow span, ?_, ?_⟩
      · simp [fault?, hzero, hasLargeQuotient, ha, hb, ha', hb', Expr.span]
      · rw [ha', hb', Evaluation.remainder_extreme]
    · have hquotient : (binary op lhs rhs span).hasLargeQuotient object = false := by
        cases op with
        | remainder => simpa [hasLargeQuotient, ha, hb] using hextreme
        | _ => rfl
      rw [Evaluation.arithmetic_eq span (fitsInt64_toInt a) hresult hextreme]
      exact explains_inRange (hexact.trans hresult) hzero hquotient

/-! ### Evaluation -/

/-- The length of a property of the object. -/
theorem eval_length {f ident : Ident} {v : Variable} (hf : Text.sameAscii "len" f.name = true)
    (hv : Variable.ofName? ident.name = some v) (argsSpan span : Span) :
    (call f [var ident] argsSpan span).eval Registry.standard object =
      .ok (.integer (Int64.ofNat (StandardFunctions.len (object.get v)))) := by
  have hget : Registry.standard.get? f.name = StandardFunctions.all.head? :=
    List.find?_cons_of_pos hf
  rw [eval, hget]
  simp only [StandardFunctions.all, List.head?_cons, evalAll, eval, hv]
  rfl

theorem len_le_length (s : String) : StandardFunctions.len s ≤ s.length := by
  rw [StandardFunctions.len, StandardFunctions.dropLastBlanks, List.length_reverse]
  exact (List.dropWhile_suffix _).length_le.trans (by simp [String.length_toList])

/-- **The evaluation ends with the first fault or with the exact value.** -/
theorem firstFault_or_exact {e : Expr} (h : e.IsArithmetic)
    (hlen : ∀ v, (object.get v).length < 2 ^ 63) :
    Explains (e.firstFault? object) (e.exactValue? object) (e.eval Registry.standard object) := by
  induction h with
  | integer value span =>
    have hfault : (integer value span).firstFault? object = (integer value span).fault? object := by
      simp [firstFault?, postorder]
    rw [hfault, eval]
    exact explains_inRange rfl rfl rfl
  | @length f ident v hf hv argsSpan span =>
    have hbound : StandardFunctions.len (object.get v) < 2 ^ 63 :=
      Nat.lt_of_le_of_lt (len_le_length _) (hlen v)
    have hexact : (call f [var ident] argsSpan span).exactValue? object =
        some (Int64.ofNat (StandardFunctions.len (object.get v))).toInt := by
      rw [exactValue?, if_pos hf, hv, Int64.toInt_ofNat_of_lt hbound]
      rfl
    have hvar : (var ident).fault? object = none := rfl
    refine .inr ⟨?_, _, hexact, eval_length hf hv argsSpan span⟩
    simp [firstFault?, postorder, postorderAll, hvar, fault?_eq_none_of_toInt hexact rfl rfl]
  | @paren inner h span ih =>
    have hfault : (paren inner span).firstFault? object =
        (inner.firstFault? object).or ((paren inner span).fault? object) := by
      simp [firstFault?, postorder, List.findSome?_append]
    rw [hfault, eval, ← bind_pure (inner.eval _ _)]
    refine ih.bind fun n hn => ?_
    have hexact : (paren inner span).exactValue? object = some n.toInt := by rw [exactValue?, hn]
    exact .inr ⟨fault?_eq_none_of_toInt hexact rfl rfl, n, hexact, rfl⟩
  | @neg operand h span ih =>
    have hfault : (unary .neg operand span).firstFault? object =
        (operand.firstFault? object).or ((unary .neg operand span).fault? object) := by
      simp [firstFault?, postorder, List.findSome?_append]
    rw [hfault, eval]
    refine ih.bind fun n hn => ?_
    have hexact : (unary .neg operand span).exactValue? object = some (-n.toInt) := by
      rw [exactValue?, hn]
      rfl
    exact explains_inRange hexact rfl rfl
  | @binary op lhs rhs hop hl hr span ihl ihr =>
    have hfault : (binary op lhs rhs span).firstFault? object =
        (lhs.firstFault? object).or
          ((rhs.firstFault? object).or ((binary op lhs rhs span).fault? object)) := by
      simp [firstFault?, postorder, List.findSome?_append]
    rw [hfault, eval]
    refine ihl.bind fun a ha => ?_
    simp only [Evaluation.decided?_integer]
    refine ihr.bind fun b hb => ?_
    rw [Evaluation.binary_integer_integer span a b (Evaluation.binary?_of_mem_arithmetic hop)]
    exact explains_binary hop span ha hb

end Expr

/-- **Integers are exact.** With the standard functions, an expression of integers has a value if
and only if it stays in range, and then its value is the exact one. Otherwise it fails, and the
failure is that of the first expression at fault, in the order of evaluation. -/
theorem eval_arithmetic {e : Expr} (h : e.IsArithmetic) (object : ObjectName)
    (hlen : ∀ v, (object.get v).length < 2 ^ 63) :
    ((∃ n, e.eval Registry.standard object = .ok (.integer n)) ↔ e.StaysInRange object) ∧
      (∀ n, e.eval Registry.standard object = .ok (.integer n) →
        e.exactValue? object = some n.toInt) ∧
      (¬ e.StaysInRange object → ∃ before inner after err,
        e.postorder = before ++ inner :: after ∧
          (∀ earlier ∈ before, earlier.fault? object = none) ∧ inner.fault? object = some err ∧
          e.eval Registry.standard object = .error err) := by
  have hrange : e.StaysInRange object ↔ e.firstFault? object = none :=
    Expr.staysInRange_iff.trans List.findSome?_eq_none_iff.symm
  rw [hrange]
  rcases Expr.firstFault_or_exact h hlen with ⟨err, hfault, heval⟩ | ⟨hfault, n, hexact, heval⟩
  · rw [heval, hfault]
    refine ⟨by simp, by simp, fun _ => ?_⟩
    obtain ⟨before, inner, after, hsplit, hinner, hbefore⟩ := List.findSome?_eq_some_iff.mp hfault
    exact ⟨before, inner, after, err, hsplit, hbefore, hinner, rfl⟩
  · rw [heval, hfault]
    refine ⟨iff_of_true ⟨n, rfl⟩ rfl, fun m hm => ?_, fun hnot => absurd rfl hnot⟩
    cases hm
    exact hexact

/-- The expression `(-9223372036854775807 - len(kind)) % -1`. -/
def leastRemainder : Expr :=
  .binary .remainder
    (.paren
      (.binary .subtract (.unary .neg (.integer 9223372036854775807 ⟨2, 21⟩) ⟨1, 21⟩)
        (.call ⟨"len", ⟨24, 27⟩⟩ [.var ⟨"kind", ⟨28, 32⟩⟩] ⟨27, 33⟩ ⟨24, 33⟩) ⟨1, 33⟩) ⟨0, 34⟩)
    (.unary .neg (.integer 1 ⟨38, 39⟩) ⟨37, 39⟩) ⟨0, 39⟩

/-- For an object of kind `U` the remainder is zero, but the quotient cannot be computed. -/
theorem eval_arithmetic_leastRemainder :
    leastRemainder.IsArithmetic ∧ (∀ v, (ObjectName.get ⟨"orders", "U", "dbo"⟩ v).length < 2 ^ 63) ∧
      leastRemainder.exactValue? ⟨"orders", "U", "dbo"⟩ = some 0 ∧
      leastRemainder.eval Registry.standard ⟨"orders", "U", "dbo"⟩
        = .error (.integerOverflow ⟨0, 39⟩) ∧
      ¬ leastRemainder.StaysInRange ⟨"orders", "U", "dbo"⟩ := by
  have harithmetic : leastRemainder.IsArithmetic := by
    refine .binary (by decide) (.paren (.binary (by decide) (.neg (.integer _ _) _) ?_ _) _)
      (.neg (.integer _ _) _) _
    exact .length (v := .kind) (by decide) (by decide) _ _
  have hlen : ∀ v, (ObjectName.get ⟨"orders", "U", "dbo"⟩ v).length < 2 ^ 63 := by
    intro v
    cases v <;> decide
  have heval : leastRemainder.eval Registry.standard ⟨"orders", "U", "dbo"⟩
      = .error (.integerOverflow ⟨0, 39⟩) := by decide
  refine ⟨harithmetic, hlen, by decide, heval, fun hrange => ?_⟩
  obtain ⟨n, hn⟩ := (eval_arithmetic harithmetic _ hlen).1.mpr hrange
  rw [heval] at hn
  cases hn

end SqlPredicates
