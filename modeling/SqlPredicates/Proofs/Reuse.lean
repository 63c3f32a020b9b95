import SqlPredicates.Proofs.Calls

/-!
# Using a parser again

What a call on a parser can expect after other calls, which may have failed.

After calls that have succeeded a parser differs from a fresh one on the rest of the text by the height
that is noted, which is that of the last tree, and no call looks at it. The same is true after the two
errors that are about the text as a whole. After other errors it can differ in two more ways.

The counter of operand readings is not at zero. `depth_after_call` says when a call raises it: if it
fails inside of an operand, and only then. Nothing lowers it again, so that a parser that has failed
often enough refuses everything as nested too deeply.

What looks like the end of the input may be a place where the text cannot be cut into tokens.
`layout_after_tree` says when a tree that takes up the whole text does so: as long as no earlier call
has answered that error.

## Main results

* `answer_eq_fresh` — calls after calls that have succeeded
* `layout_after_tree`, `tree_before_error` — what is left of the text behind a tree
* `depth_after_call`, `answer_after_failures` — what is left of the nesting that is allowed
-/

namespace SqlPredicates

open SqlPredicates.Parser SqlPredicates.Reads

variable {text : String} {p q start : Parser} {c : Cursor} {call : Call} {calls : List Call}

/-! ### Answers that leave nothing behind -/

/-- After answers that leave nothing behind the parser is a fresh one, moved to its place, but for the
height that is noted. So all calls answer what they answer there. -/
theorem Parser.exists_fresh_of_settled (h : ofText text = .ok start)
    (hsettled : ∀ answer ∈ start.answers calls, answer.Settled) :
    (start.afterCalls calls).depth = 0 ∧
      Text.IsBoundary (start.afterCalls calls).current.span.start text.toList ∧
      ∃ fresh, ofText (Text.back (start.afterCalls calls).current.span.start text) = .ok fresh ∧
        ∀ call : Call, call.answer (start.afterCalls calls) =
          (call.answer fresh).shift (start.afterCalls calls).current.span.start := by
  obtain ⟨d, hstands, hdepth⟩ := (standsAt_of_ofText h).of_all_settled hsettled
  rw [depth_of_ofText h] at hdepth
  obtain ⟨hboundary, fresh, hfresh, hp⟩ := hstands.exists_fresh
  rw [hdepth, ← depth_of_ofText hfresh] at hp
  refine ⟨hdepth, hboundary, fresh, hfresh, fun call => ?_⟩
  generalize (start.afterCalls calls).current.span.start = n at hp
  calc call.answer (start.afterCalls calls)
      = call.answer ((fresh.shift n).atHeight (start.afterCalls calls).height) :=
        congrArg call.answer hp
    _ = call.answer (fresh.shift n) := call.answer_atHeight _ _
    _ = (call.answer fresh).shift n := call.answer_shift n fresh

/-- **A parser has no memory of calls that have succeeded.** After any calls on a text that have all
returned trees, no operand reading is under way, the current token begins at a boundary of the text,
and each call answers what a fresh parser on the text from there on answers, with the places moved. An
empty input has no place. The height of the last tree is still noted, and a fresh parser has noted none;
each call overwrites it before it reads it. -/
theorem answer_eq_fresh (h : ofText text = .ok start) (calls : List Call)
    (hok : ∀ answer ∈ start.answers calls, ∃ tree, answer = .ok tree) (call : Call) :
    let p := start.afterCalls calls
    let n := p.current.span.start
    p.depth = 0 ∧ Text.IsBoundary n text.toList ∧
      ∃ fresh, ofText (Text.back n text) = .ok fresh ∧
        call.answer p = (call.answer fresh).shift n := by
  have hsettled : ∀ answer ∈ start.answers calls, answer.Settled := by
    intro answer hanswer
    obtain ⟨tree, rfl⟩ := hok answer hanswer
    trivial
  obtain ⟨hdepth, hboundary, fresh, hfresh, hsame⟩ := exists_fresh_of_settled h hsettled
  exact ⟨hdepth, hboundary, fresh, hfresh, hsame call⟩

/-- If something can be computed from the start of a text, the text has a start. -/
theorem Parser.exists_of_map_eq_ok {α : Type} {f : Parser → α} {a : α}
    (h : (ofText text).map f = .ok a) : ∃ p, ofText text = .ok p ∧ f p = a := by
  cases hp : ofText text with
  | ok p =>
    rw [hp] at h
    exact ⟨p, rfl, Except.ok.inj h⟩
  | error e =>
    rw [hp] at h
    cases h

/-- After a sum and a conjunction, with a comment between them, there is an operator without an
operand. -/
theorem answer_eq_fresh_negation :
    ∃ start fresh, ofText "f('é')+1 --c\n(x ~ \"y*\") AND z !-" = .ok start ∧
      (∀ answer ∈ start.answers [.expr, .term], ∃ tree, answer = .ok tree) ∧
      ofText "!-" = .ok fresh ∧
      Call.expr.answer fresh = .error (.unexpected 2 .expression .endOfInput) ∧
      Call.expr.answer (start.afterCalls [.expr, .term]) =
        .error (.unexpected 33 .expression .endOfInput) := by
  have hrun : (ofText "f('é')+1 --c\n(x ~ \"y*\") AND z !-").map (fun p =>
      ((p.answers [.expr, .term]).all Except.isOk,
        (p.afterCalls [.expr, .term]).current.span.start)) = .ok (true, 31) := by
    decide +kernel
  have hback : Text.back 31 "f('é')+1 --c\n(x ~ \"y*\") AND z !-" = "!-" := by decide +kernel
  have hfailure : (ofText "!-").map Call.expr.answer =
      .ok (.error (.unexpected 2 .expression .endOfInput)) := by
    decide +kernel
  obtain ⟨start, hstart, hpair⟩ := exists_of_map_eq_ok hrun
  obtain ⟨hall, hplace⟩ := Prod.mk.inj hpair
  have hok : ∀ answer ∈ start.answers [.expr, .term], ∃ tree, answer = .ok tree := by
    intro answer hanswer
    have hisOk := List.all_eq_true.mp hall answer hanswer
    cases answer with
    | ok tree => exact ⟨tree, rfl⟩
    | error e => cases hisOk
  obtain ⟨-, -, fresh, hfresh, hanswer⟩ := answer_eq_fresh hstart [.expr, .term] hok .expr
  rw [hplace, hback] at hfresh
  rw [hfresh] at hfailure
  have hfailed : Call.expr.answer fresh = .error (.unexpected 2 .expression .endOfInput) :=
    Except.ok.inj hfailure
  rw [hplace, hfailed] at hanswer
  exact ⟨start, fresh, hstart, hok, hfresh, hfailed, hanswer⟩

/-! ### Behind a tree -/

/-- Behind the tokens of a node the text goes on where its span ends. -/
theorem dropBytes_stop {ts us : List Token} {node : Node}
    (htakes : (Cursor.ofText text).Takes (us ++ ts) c) (hspells : node.Spells ts) :
    Text.dropBytes node.span.stop text.toList = c.rest := by
  have hspans := hspells.spans (htakes.ordered.of_part (List.suffix_append us ts).isInfix)
  obtain ⟨vs, t, rfl, hstop⟩ := hspans.last
  rw [← List.append_assoc] at htakes
  obtain ⟨cs, htext, hoffset⟩ := htakes.exists_chars
  have hbytes : node.span.stop = Text.bytes cs := by
    rw [← hstop, ← htakes.offset_eq, hoffset]
    exact Nat.zero_add _
  change text.toList = cs ++ c.rest at htext
  rw [hbytes, htext, Text.dropBytes_append]

namespace Parser

variable {ts : List Token} {node : Node}

theorem StandsAt.isLayout_behind (h : StandsAt text c p) (hts : Passes p ts q)
    (hspells : node.Spells ts) (hends : ∀ t ∈ ts, t.kind ≠ .endOfInput)
    (hlast : q.current.kind = .endOfInput) :
    IsLayout [] (Text.dropBytes node.span.stop text.toList) := by
  obtain ⟨us, hus⟩ := h.exists_takes
  obtain ⟨d, hq, htakes⟩ := h.of_passes hts
  rw [dropBytes_stop (Cursor.Takes.append_iff.mpr ⟨c, hus, htakes hends⟩) hspells]
  exact hq.isLayout_of_endOfInput hlast

/-- Behind an error only the current token can be read, and behind that token stands the error. -/
theorem CutOff.not_isLayout_behind (h : CutOff text p) (hts : Passes p ts q)
    (hspells : node.Spells ts) (hends : ∀ t ∈ ts, t.kind ≠ .endOfInput) :
    ¬ IsLayout [] (Text.dropBytes node.span.stop text.toList) := by
  have hlength := hts.length_le hends
  rw [h.rest_eq_nil] at hlength
  obtain ⟨t, rest, rfl⟩ := List.exists_cons_of_ne_nil hspells.ne_nil
  obtain rfl : rest = [] := List.eq_nil_of_length_eq_zero (by simp at hlength; omega)
  obtain rfl := hts.current_eq
  cases h with
  | token htakes hnext =>
    rw [dropBytes_stop htakes hspells]
    exact hnext.not_isLayout
  | done => exact absurd rfl (hends _ (List.mem_singleton_self _))

end Parser

/-- **A tree that takes up the whole text does so unless an error has been met before.** When a call
for everything up to the end of the input returns a tree, only blanks and comments follow the tree in
the text, as long as no earlier call has answered that the text cannot be cut into tokens. Once a call
has, something else follows: the error at least. -/
theorem layout_after_tree (h : ofText text = .ok start) (calls : List Call) (hwhole : call.isWhole)
    {tree : Node} (htree : call.answer (start.afterCalls calls) = .ok tree) :
    IsLayout [] (Text.dropBytes tree.span.stop text.toList) ↔
      ∀ e, .error e ∈ start.answers calls → .error e ∉ tokenize text := by
  have hdoes := call.does (start.afterCalls calls)
  rw [Call.answer] at htree
  generalize call.reads (start.afterCalls calls) = r at hdoes htree
  cases hdoes with
  | reads hts hspells hends hlast =>
    obtain rfl := Except.ok.inj htree
    rcases standsAt_or_cutOff (standsAt_of_ofText h) calls with
      ⟨hnone, c, hstands⟩ | ⟨⟨e, he, hmem⟩, hcut⟩
    · exact iff_of_true (hstands.isLayout_behind hts hspells hends (hlast hwhole)) hnone
    · exact iff_of_false (hcut.not_isLayout_behind hts hspells hends) fun hnone => hnone e he hmem
  | rejects | refuses | meets => cases htree

/-- The same two calls on two texts. The first one fails, at a token in the one text and at a character
that belongs to no token in the other. -/
theorem layout_after_tree_open :
    (∃ start, ofText "('é' b --c" = .ok start ∧
      Call.rule.answer (start.afterCalls [.expr]) = .ok (.expr (.var ⟨"b", ⟨6, 7⟩⟩)) ∧
      IsLayout [] (Text.dropBytes 7 "('é' b --c".toList)) ∧
    ∃ start, ofText "('é' $" = .ok start ∧
      Call.rule.answer (start.afterCalls [.expr]) = .ok (.expr (.string ⟨"é", .single⟩ ⟨1, 5⟩)) ∧
      ¬ IsLayout [] (Text.dropBytes 5 "('é' $".toList) := by
  have htoken : (ofText "('é' b --c").map (fun p =>
      (p.answers [.expr], Call.rule.answer (p.afterCalls [.expr]))) =
      .ok ([.error (.unexpected 6 (.token (.symbol .closing)) (.identifier "b"))],
        .ok (.expr (.var ⟨"b", ⟨6, 7⟩⟩))) := by
    decide +kernel
  have hcharacter : (ofText "('é' $").map (fun p =>
      (p.answers [.expr], Call.rule.answer (p.afterCalls [.expr]))) =
      .ok ([.error (.unexpectedCharacter 6 '$')], .ok (.expr (.string ⟨"é", .single⟩ ⟨1, 5⟩))) := by
    decide +kernel
  constructor
  · obtain ⟨start, hstart, hpair⟩ := exists_of_map_eq_ok htoken
    obtain ⟨hanswers, htree⟩ := Prod.mk.inj hpair
    refine ⟨start, hstart, htree, (layout_after_tree hstart [.expr] rfl htree).mpr ?_⟩
    intro e he
    rw [hanswers, List.mem_singleton] at he
    cases he
    decide +kernel
  · obtain ⟨start, hstart, hpair⟩ := exists_of_map_eq_ok hcharacter
    obtain ⟨hanswers, htree⟩ := Prod.mk.inj hpair
    refine ⟨start, hstart, htree, fun hlayout => ?_⟩
    refine (layout_after_tree hstart [.expr] rfl htree).mp hlayout (.unexpectedCharacter 6 '$') ?_
      (by decide +kernel)
    rw [hanswers]
    exact List.mem_singleton_self _

/-- A tree is returned although a character that belongs to no token follows it. -/
theorem tree_before_error :
    ∃ start, ofText "a $" = .ok start ∧
      Call.rule.answer (start.afterCalls [.expr]) = .ok (.expr (.var ⟨"a", ⟨0, 1⟩⟩)) ∧
      ¬ IsLayout [] (Text.dropBytes 1 "a $".toList) := by
  have hrun : (ofText "a $").map (fun p => Call.rule.answer (p.afterCalls [.expr])) =
      .ok (.ok (.expr (.var ⟨"a", ⟨0, 1⟩⟩))) := by
    decide
  have hnext : (⟨Text.dropBytes 1 "a $".toList, 1⟩ : Cursor).next? =
      some (.error (.unexpectedCharacter 2 '$'), ⟨[], 2⟩) := by
    rfl
  obtain ⟨start, hstart, htree⟩ := exists_of_map_eq_ok hrun
  exact ⟨start, hstart, htree, (Cursor.next?_eq_iff.mp hnext).not_isLayout⟩

/-! ### What is left of the nesting -/

/-- **A call that fails inside of an operand leaves its operands counted.** After any calls on a text,
the next call does not lower the number of operand readings under way, and keeps it if it returns a
tree, finds nothing to read or finds something behind the tree, and in no other case. As long as the
earlier calls have kept it, the next call fails only where it would fail on a fresh parser on the text
from the current token on. -/
theorem depth_after_call (h : ofText text = .ok start) (calls : List Call) (call : Call) :
    let p := start.afterCalls calls
    let n := p.current.span.start
    p.depth ≤ (call.reads.after p).depth ∧
      ((call.reads.after p).depth = p.depth ↔ (call.answer p).Settled) ∧
      ((∀ answer ∈ start.answers calls, answer.Settled) →
        ∃ fresh, ofText (Text.back n text) = .ok fresh ∧
          call.answer p = (call.answer fresh).shift n) := by
  obtain ⟨hle, hiff⟩ := ((Placed.of_ofText h).of_calls calls).depth_of_call call
  refine ⟨hle, hiff, fun hsettled => ?_⟩
  obtain ⟨-, -, fresh, hfresh, hsame⟩ := exists_fresh_of_settled h hsettled
  exact ⟨fresh, hfresh, hsame call⟩

/-- Two calls find something behind their trees, and a third one finds no operand. -/
theorem depth_after_call_closing :
    ∃ start fresh, ofText "'é' b )" = .ok start ∧
      (∀ answer ∈ start.answers [.rule, .condition], answer.Settled) ∧
      ofText ")" = .ok fresh ∧
      Call.expr.answer (start.afterCalls [.rule, .condition]) = (Call.expr.answer fresh).shift 7 ∧
      (Call.expr.reads.after (start.afterCalls [.rule, .condition])).depth ≠
        (start.afterCalls [.rule, .condition]).depth := by
  have hrun : (ofText "'é' b )").map (fun p =>
      ((p.answers [.rule, .condition]).all (Answer.Settled ·),
        (p.afterCalls [.rule, .condition]).current.span.start,
        Call.expr.answer (p.afterCalls [.rule, .condition]))) =
      .ok (true, 7, .error (.unexpected 7 .expression (.symbol .closing))) := by
    decide +kernel
  have hback : Text.back 7 "'é' b )" = ")" := by decide +kernel
  obtain ⟨start, hstart, hpair⟩ := exists_of_map_eq_ok hrun
  obtain ⟨hall, hpair⟩ := Prod.mk.inj hpair
  obtain ⟨hplace, hanswer⟩ := Prod.mk.inj hpair
  have hsettled : ∀ answer ∈ start.answers [.rule, .condition], answer.Settled :=
    fun answer h => of_decide_eq_true (List.all_eq_true.mp hall answer h)
  obtain ⟨-, hiff, hfresh⟩ := depth_after_call hstart [.rule, .condition] .expr
  obtain ⟨fresh, hfresh, hsame⟩ := hfresh hsettled
  rw [hplace] at hfresh hsame
  rw [hback] at hfresh
  refine ⟨start, fresh, hstart, hsettled, hfresh, hsame, fun hdepth => ?_⟩
  have hnone := hiff.mp hdepth
  rw [hanswer] at hnone
  cases hnone

/-- Where no more operand may be read, every call fails that has a token to read. -/
theorem Call.answer_of_exhausted (hdepth : maxNesting ≤ p.depth)
    (hne : p.current.kind ≠ .endOfInput) (call : Call) :
    call.answer p = .error (.nestingTooDeep p.current.span.start) := by
  have hexpr : expr.reads p = .error (.nestingTooDeep p.current.span.start) p.deeper := by
    change (Rule.exprWithin (maxNesting - p.depth) 0 >>= fun e => pure (Node.expr e)) p = _
    rw [Nat.sub_eq_zero_of_le hdepth]
    rfl
  have hterm : term.reads p = .error (.nestingTooDeep p.current.span.start) p.deeper := by
    change (Search.termWithin (maxNesting - p.depth) 0 >>= fun t => pure (Node.term t)) p = _
    rw [Nat.sub_eq_zero_of_le hdepth]
    rfl
  have hfirst : rejectEmpty p = .ok () p := rejectEmpty_eq_ok.mpr ⟨hne, rfl⟩
  cases call with
  | expr => exact answer_of_error hexpr
  | term => exact answer_of_error hterm
  | rule =>
    refine answer_of_error (q := p.deeper) ?_
    rw [reads_rule, Parser.whole, bind_of_ok hfirst, bind_of_error hexpr]
  | condition =>
    refine answer_of_error (q := p.deeper) ?_
    rw [reads_condition, Parser.whole, bind_of_ok hfirst, bind_of_error hterm]

/-- **A parser that has failed often enough refuses everything.** Each failure inside of an operand
uses up at least one of the operand readings that are allowed. -/
theorem answer_after_failures (h : ofText text = .ok start)
    (hfailures : maxNesting ≤ (start.answers calls).countP (¬ Answer.Settled ·))
    (hne : (start.afterCalls calls).current.kind ≠ .endOfInput) (call : Call) :
    call.answer (start.afterCalls calls) =
      .error (.nestingTooDeep (start.afterCalls calls).current.span.start) := by
  have hdepth := (Placed.of_ofText h).depth_of_calls calls
  exact Call.answer_of_exhausted (by omega) hne call

/-- A parenthesis that nothing opens stays the current token when a call has failed at it. The first
call leaves one operand counted; after as many calls as operands may be nested, the next one answers
something else than the first one, at the same token. -/
theorem nested_after_failures :
    ∃ start, ofText ")" = .ok start ∧
      Call.expr.answer start = .error (.unexpected 0 .expression (.symbol .closing)) ∧
      (Call.expr.reads.after start).depth = 1 ∧
      (start.afterCalls (List.replicate 256 .expr)).current = start.current ∧
      Call.expr.answer (start.afterCalls (List.replicate 256 .expr)) =
        .error (.nestingTooDeep 0) := by
  have hrun : (ofText ")").map (fun p =>
      (Call.expr.answer p, (Call.expr.reads.after p).depth,
        decide ((p.afterCalls (List.replicate 256 .expr)).current = p.current),
        Call.expr.answer (p.afterCalls (List.replicate 256 .expr)))) =
      .ok (.error (.unexpected 0 .expression (.symbol .closing)), 1, true,
        .error (.nestingTooDeep 0)) := by
    decide +kernel
  obtain ⟨start, hstart, hpair⟩ := exists_of_map_eq_ok hrun
  obtain ⟨hfirst, hpair⟩ := Prod.mk.inj hpair
  obtain ⟨hdepth, hpair⟩ := Prod.mk.inj hpair
  obtain ⟨hcurrent, hlast⟩ := Prod.mk.inj hpair
  exact ⟨start, hstart, hfirst, hdepth, of_decide_eq_true hcurrent, hlast⟩

end SqlPredicates
