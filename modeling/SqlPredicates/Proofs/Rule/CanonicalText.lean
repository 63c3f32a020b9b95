import SqlPredicates.Proofs.Rule.Spelling
import SqlPredicates.Proofs.Token.Cuts

/-!
# The tokens of the canonical text

The canonical text of a well-shaped expression is cut into exactly the tokens that it was written
with. Between two tokens there is a blank, a parenthesis or a comma wherever the first of them could
go on. The one place without is a minus sign before its operand. Another minus sign there would
begin a comment, which is why a blank stands before every prefix operator; an operand that is no
prefix operation begins with some other character, unless it is a binary operation, and the shape of
the expression excludes that.

## Main definitions

* `Expr.CutsApart` — a text that is cut into its tokens wherever it stands

## Main results

* `Expr.cutsApart_of_wellShaped` — the tokens of the canonical text, whatever follows it
* `Expr.exists_tokens_of_wellShaped` — the tokens of the canonical text alone
-/

namespace SqlPredicates

theorem cuts_binaryOp (op : BinaryOp) {rest : List Char} (hrest : Apart rest) :
    Cuts (op.text.toList ++ rest) [op.kind] rest := by
  cases op with
  | or => exact cuts_keyword .or hrest
  | and => exact cuts_keyword .and hrest
  | like => exact cuts_keyword .like hrest
  | equal => exact cuts_symbol .equal hrest
  | notEqual => exact cuts_symbol .angles hrest
  | less => exact cuts_symbol .less hrest
  | lessEqual => exact cuts_symbol .lessEqual hrest
  | greater => exact cuts_symbol .greater hrest
  | greaterEqual => exact cuts_symbol .greaterEqual hrest
  | add => exact cuts_symbol .plus hrest
  | subtract => exact cuts_symbol .minus hrest
  | multiply => exact cuts_symbol .star hrest
  | divide => exact cuts_symbol .slash hrest
  | remainder => exact cuts_symbol .percent hrest

namespace Expr

theorem kinds_ne_nil (e : Expr) : e.kinds ≠ [] := by
  cases e <;> simp [kinds]

theorem kindsAll_cons_ne_nil (e : Expr) (es : List Expr) : kindsAll (e :: es) ≠ [] := by
  cases es with
  | nil => exact e.kinds_ne_nil
  | cons e' es =>
    rw [kindsAll_cons_cons]
    simp

/-! ### The first character -/

theorem head?_renderName (name : String) (cs : List Char) :
    ((renderName name).toList ++ cs).head? ≠ some '-' := by
  rw [renderName]
  split
  · next hplain =>
    obtain ⟨c, ds, hname, hc, -⟩ := exists_of_isPlainName hplain
    rw [hname]
    intro h
    cases h
    exact absurd hc (by decide)
  · simp

theorem head?_render {e : Expr} (hunary : e.isUnary = false) (hbinary : e.binaryOp? = none)
    (cs : List Char) : (e.render.toList ++ cs).head? ≠ some '-' := by
  cases e with
  | integer value span =>
    obtain ⟨d, ds, htext, hdigits, -⟩ := exists_digits value.toNat
    rw [render, htext]
    intro h
    cases h
    exact absurd (hdigits '-' List.mem_cons_self) (by decide)
  | string value span =>
    obtain ⟨text, quote⟩ := value
    cases quote <;> simp [render, Quoted.render, Quote.char]
  | var ident => exact head?_renderName ident.name cs
  | call ident args argsSpan span =>
    rw [render, String.append_assoc, String.append_assoc, String.toList_append, List.append_assoc]
    exact head?_renderName ident.name _
  | paren inner span => simp [render]
  | unary => cases hunary
  | binary => cases hbinary

/-! ### The whole text -/

/-- The text of the expression is cut into its tokens wherever it stands. -/
def CutsApart (e : Expr) : Prop :=
  ∀ rest : List Char, Apart rest → Cuts (e.render.toList ++ rest) e.kinds rest

theorem cuts_renderArgs {es : List Expr} (h : ∀ e ∈ es, e.CutsApart) {rest : List Char}
    (hrest : Apart rest) : Cuts ((renderArgs es).toList ++ rest) (kindsAll es) rest := by
  induction es with
  | nil => exact .nil rest
  | cons e es ih =>
    cases es with
    | nil => exact h e List.mem_cons_self rest hrest
    | cons e' es =>
      have htext : (renderArgs (e :: e' :: es)).toList ++ rest =
          e.render.toList ++ ',' :: ' ' :: ((renderArgs (e' :: es)).toList ++ rest) := by
        rw [renderArgs_cons_cons]
        simp
      rw [htext, kindsAll_cons_cons]
      have hlast := ih fun e he => h e (List.mem_cons_of_mem _ he)
      exact (h e List.mem_cons_self _ (apart_cons (by decide) _)).append
        ((cuts_symbol .comma (apart_cons (by decide) _)).append
          (hlast.blank (kindsAll_cons_ne_nil e' es)))

theorem cutsApart_unary {op : UnaryOp} {operand : Expr} {span : Span}
    (hgrouped : (unary op operand span).Grouped) (hoperand : operand.CutsApart) :
    (unary op operand span).CutsApart := by
  intro rest hrest
  have hcuts := hoperand rest hrest
  have hblank := hcuts.blank operand.kinds_ne_nil
  cases op with
  | not =>
    have htext : (unary .not operand span).render.toList ++ rest =
        Keyword.not.text.toList ++ ' ' :: (operand.render.toList ++ rest) := by
      simp [render, Keyword.text]
    rw [htext]
    exact (cuts_keyword .not (apart_cons (by decide) _)).append hblank
  | neg =>
    rw [render]
    by_cases hunary : operand.isUnary = true
    · rw [if_pos hunary]
      have htext : ("- " ++ operand.render).toList ++ rest =
          '-' :: ' ' :: (operand.render.toList ++ rest) := by
        simp
      rw [htext]
      exact (cuts_minus (by simp)).append hblank
    · rw [if_neg hunary]
      have htext : ("-" ++ operand.render).toList ++ rest =
          '-' :: (operand.render.toList ++ rest) := by
        simp
      rw [htext]
      exact (cuts_minus (head?_render (Bool.eq_false_iff.mpr hunary) hgrouped rest)).append hcuts

/-- The text of a well-shaped expression is cut into its tokens wherever it stands. -/
theorem cutsApart_of_wellShaped {e : Expr} (h : e.WellShaped) : e.CutsApart := by
  induction e using induction_on_parts with
  | _ e ih =>
    obtain ⟨⟨hlexical, hgrouped⟩, hparts⟩ := everywhere_iff.mp h
    have hcuts : ∀ part ∈ e.parts, part.CutsApart := fun part hp => ih part hp (hparts part hp)
    cases e with
    | integer value span =>
      intro rest hrest
      exact cuts_integer value hrest
    | string value span =>
      intro rest _
      exact cuts_string hlexical rest
    | var ident =>
      intro rest hrest
      exact cuts_renderName hlexical hrest
    | call ident args argsSpan span =>
      intro rest hrest
      have htext : (call ident args argsSpan span).render.toList ++ rest =
          (renderName ident.name).toList ++ '(' :: ((renderArgs args).toList ++ ')' :: rest) := by
        simp [render]
      rw [htext]
      have hclosing : Apart (')' :: rest) := apart_cons (by decide) rest
      have hargs := cuts_renderArgs hcuts hclosing
      exact (cuts_renderName hlexical (apart_cons (by decide) _)).append
        ((cuts_opening _).append (hargs.append (cuts_closing rest)))
    | paren inner span =>
      intro rest hrest
      have htext : (paren inner span).render.toList ++ rest =
          '(' :: (inner.render.toList ++ ')' :: rest) := by
        simp [render]
      rw [htext]
      have hclosing : Apart (')' :: rest) := apart_cons (by decide) rest
      have hinner := hcuts inner (List.mem_singleton_self _) _ hclosing
      exact (cuts_opening _).append (hinner.append (cuts_closing rest))
    | unary op operand span => exact cutsApart_unary hgrouped (hcuts _ (List.mem_singleton_self _))
    | binary op lhs rhs span =>
      intro rest hrest
      have htext : (binary op lhs rhs span).render.toList ++ rest =
          lhs.render.toList ++ ' ' :: (op.text.toList ++ ' ' :: (rhs.render.toList ++ rest)) := by
        simp [render]
      rw [htext]
      have hright := (hcuts rhs (by simp [parts]) rest hrest).blank rhs.kinds_ne_nil
      have hop := cuts_binaryOp op (apart_cons (c := ' ') (by decide) (rhs.render.toList ++ rest))
      exact (hcuts lhs List.mem_cons_self _ (apart_cons (by decide) _)).append
        ((hop.blank (by simp)).append hright)

/-- **The tokens of the canonical text** are those that the expression is written with. -/
theorem exists_tokens_of_wellShaped {e : Expr} (h : e.WellShaped) :
    ∃ ts : List Token, tokenize e.render = ts.map .ok ∧ ts.map Token.kind = e.kinds := by
  have hcuts := cutsApart_of_wellShaped h [] apart_nil
  rw [List.append_nil] at hcuts
  exact hcuts.exists_items 0

end Expr

end SqlPredicates
