import SqlPredicates.Proofs.Rule.Shape

/-!
# Expressions without their places

Two texts with different layout have the same expression up to the places of its nodes. `Expr.erase`
puts every place at the start of the text, so that two expressions agree up to places exactly if
they become equal.

Nothing that matters for the canonical text depends on places: not the text, not the height, and not
the shape. Each of these is stated as invariance under `Expr.erase` and used in the form "equal
after erasing".

## Main definitions

* `Expr.erase`, `Expr.eraseAll` — all places put at the start of the text

## Main results

* `Expr.height_erase`, `Expr.render_erase`, `Expr.wellShaped_erase` — what does not depend on places
-/

namespace SqlPredicates

namespace Expr

mutual

/-- The expression with every place put at the start of the text. -/
def erase : Expr → Expr
  | integer value _ => integer value (.point 0)
  | string value _ => string value (.point 0)
  | var ident => var ⟨ident.name, .point 0⟩
  | call ident args _ _ => call ⟨ident.name, .point 0⟩ (eraseAll args) (.point 0) (.point 0)
  | paren inner _ => paren inner.erase (.point 0)
  | unary op operand _ => unary op operand.erase (.point 0)
  | binary op lhs rhs _ => binary op lhs.erase rhs.erase (.point 0)

/-- The expressions with every place put at the start of the text. -/
def eraseAll : List Expr → List Expr
  | [] => []
  | e :: es => e.erase :: eraseAll es

end

theorem eraseAll_eq_map (es : List Expr) : eraseAll es = es.map erase := by
  induction es with
  | nil => rfl
  | cons e es ih => rw [eraseAll, ih, List.map_cons]

/-! ### Height and text -/

mutual

theorem height_erase : ∀ e : Expr, e.erase.height = e.height
  | integer .. | string .. | var .. => rfl
  | call _ args _ _ => by rw [erase, height, height, tallest_eraseAll args]
  | paren inner _ => by rw [erase, height, height, height_erase inner]
  | unary _ operand _ => by rw [erase, height, height, height_erase operand]
  | binary _ lhs rhs _ => by rw [erase, height, height, height_erase lhs, height_erase rhs]

theorem tallest_eraseAll : ∀ es : List Expr, tallest (eraseAll es) = tallest es
  | [] => rfl
  | e :: es => by rw [eraseAll, tallest, tallest, height_erase e, tallest_eraseAll es]

end

theorem isUnary_erase (e : Expr) : e.erase.isUnary = e.isUnary := by
  cases e <;> rfl

mutual

theorem render_erase : ∀ e : Expr, e.erase.render = e.render
  | integer .. | string .. | var .. => rfl
  | call _ args _ _ => by rw [erase, render, render, renderArgs_eraseAll args]
  | paren inner _ => by rw [erase, render, render, render_erase inner]
  | unary .not operand _ => by rw [erase, render, render, render_erase operand]
  | unary .neg operand _ => by rw [erase, render, render, render_erase operand, isUnary_erase]
  | binary _ lhs rhs _ => by rw [erase, render, render, render_erase lhs, render_erase rhs]

theorem renderArgs_eraseAll : ∀ es : List Expr, renderArgs (eraseAll es) = renderArgs es
  | [] => rfl
  | [e] => by rw [eraseAll, eraseAll, renderArgs, renderArgs, render_erase e]
  | e :: e' :: es => by
    have ih := renderArgs_eraseAll (e' :: es)
    rw [eraseAll] at ih
    rw [eraseAll, eraseAll, renderArgs_cons_cons, renderArgs_cons_cons, render_erase e, ih]

end

/-! ### Shape -/

theorem parts_erase (e : Expr) : e.erase.parts = e.parts.map erase := by
  cases e with
  | call ident args argsSpan span => exact eraseAll_eq_map args
  | _ => rfl

/-- A property that does not depend on places holds everywhere in both or in none. -/
theorem everywhere_erase {P : Expr → Prop} (hP : ∀ e : Expr, P e.erase ↔ P e) (e : Expr) :
    e.erase.Everywhere P ↔ e.Everywhere P := by
  induction e using induction_on_parts with
  | _ e ih =>
    rw [everywhere_iff, everywhere_iff, hP, parts_erase]
    refine and_congr_right fun _ => ?_
    simp only [List.mem_map, forall_exists_index, and_imp, forall_apply_eq_imp_iff₂]
    exact forall₂_congr ih

theorem binaryOp?_erase (e : Expr) : e.erase.binaryOp? = e.binaryOp? := by
  cases e <;> rfl

theorem endsInNot_erase (e : Expr) : e.erase.EndsInNot ↔ e.EndsInNot := by
  induction e using induction_on_parts with
  | _ e ih =>
    cases e with
    | unary op operand span =>
      cases op with
      | not => exact Iff.rfl
      | neg => exact ih operand (List.mem_singleton_self _)
    | binary op lhs rhs span => exact ih rhs (by simp [parts])
    | _ => exact Iff.rfl

theorem lexical_erase (e : Expr) : e.erase.Lexical ↔ e.Lexical := by
  cases e <;> exact Iff.rfl

theorem grouped_erase (e : Expr) : e.erase.Grouped ↔ e.Grouped := by
  cases e with
  | unary op operand span => cases op <;> simp only [erase, Grouped, binaryOp?_erase]
  | binary op lhs rhs span => simp only [erase, Grouped, binaryOp?_erase, endsInNot_erase]
  | _ => exact Iff.rfl

theorem wellShaped_erase (e : Expr) : e.erase.WellShaped ↔ e.WellShaped :=
  everywhere_erase (fun e => and_congr (lexical_erase e) (grouped_erase e)) e

end Expr

end SqlPredicates
