import SqlPredicates.Proofs.NestedLists
import SqlPredicates.Proofs.Rule.CanonicalText
import SqlPredicates.Proofs.Rule.Erasure

/-!
# Outlines of expressions

The outline of an expression is the text of nested lists. Calls, parentheses and operators are lists
with a word in front, and all the words are told apart: the operators are keywords and symbols,
except for the minus sign, whose word is a name like those of calls and parentheses. The name of a
call stands in the second place, so it may be any of these words.

## Main definitions

* `Expr.nested`, `Expr.nestedAll` — an expression as nested lists

## Main results

* `Expr.pictures_outline` — the outline is the text of the nested lists
* `Expr.erase_eq_of_nested` — the nested lists determine the expression up to its places
* `Expr.outline_eq_iff` — two expressions with equal outlines are equal up to their places
-/

namespace SqlPredicates

/-- The token in front of a prefix operation in an outline. -/
def UnaryOp.outlineKind : UnaryOp → Token.Kind
  | .not => .keyword .not
  | .neg => .identifier "neg"

theorem UnaryOp.isLeaf_outlineKind (op : UnaryOp) : op.outlineKind.IsLeaf := by
  cases op <;> decide

theorem BinaryOp.isLeaf_kind (op : BinaryOp) : op.kind.IsLeaf := by
  cases op <;> decide

theorem UnaryOp.outlineKind_injective : Function.Injective outlineKind := by
  intro op op' h
  cases op <;> cases op' <;> first | rfl | cases h

theorem BinaryOp.kind_injective : Function.Injective kind := by
  intro op op' h
  have hread := congrArg ofKind? h
  rw [ofKind?_kind, ofKind?_kind] at hread
  exact Option.some.inj hread

namespace Expr

mutual

/-- The expression as nested lists. -/
def nested : Expr → Nested
  | integer value _ => .leaf (.integer value) ⟨nofun, nofun⟩
  | string value _ => .leaf (.string value) ⟨nofun, nofun⟩
  | var ident => .name ident.name
  | call ident args _ _ => .list (.name "call" :: .name ident.name :: nestedAll args)
  | paren inner _ => .list [.name "paren", inner.nested]
  | unary op operand _ => .list [.leaf op.outlineKind op.isLeaf_outlineKind, operand.nested]
  | binary op lhs rhs _ =>
    .list [.leaf op.kind op.isLeaf_kind, lhs.nested, rhs.nested]

/-- The expressions as nested lists. -/
def nestedAll : List Expr → List Nested
  | [] => []
  | e :: es => e.nested :: nestedAll es

end

/-! ### The text of the nested lists -/

theorem pictures_outlineHead (op : UnaryOp) :
    Pictures (outlineHead op) (.leaf op.outlineKind op.isLeaf_outlineKind) := by
  refine pictures_leaf fun rest hrest => ?_
  cases op with
  | not => exact pictures_keyword .not rest hrest
  | neg => exact pictures_word (show isPlainName "neg" by decide) (by decide) rest hrest

theorem outlineArgs_append (args : List Expr) (first : String) :
    first ++ outlineArgs args = " ".intercalate (first :: args.map outline) := by
  induction args generalizing first with
  | nil => simp [outlineArgs]
  | cons e args ih =>
    rw [outlineArgs, List.map_cons, String.intercalate_cons_cons, ← ih e.outline]
    simp only [String.append_assoc]

theorem nestedAll_eq_map (es : List Expr) : nestedAll es = es.map nested := by
  induction es with
  | nil => rfl
  | cons e es ih => rw [nestedAll, ih, List.map_cons]

/-- The outline of an expression whose names and strings can be written is the text of its nested
lists. -/
theorem pictures_outline {e : Expr} (h : e.Everywhere Lexical) : Pictures e.outline e.nested := by
  induction e using induction_on_parts with
  | _ e ih =>
    obtain ⟨hlexical, hparts⟩ := everywhere_iff.mp h
    have hpictures : ∀ part ∈ e.parts, Pictures part.outline part.nested :=
      fun part hp => ih part hp (hparts part hp)
    cases e with
    | integer value span => exact pictures_leaf fun rest hrest => cuts_integer value hrest
    | string value span => exact pictures_leaf fun rest _ => cuts_string hlexical rest
    | var ident => exact pictures_name hlexical
    | call ident args argsSpan span =>
      have htext : (call ident args argsSpan span).outline =
          "(" ++ " ".intercalate ("call" :: renderName ident.name :: args.map outline) ++ ")" := by
        rw [outline, String.intercalate_cons_cons, ← outlineArgs_append]
        simp only [String.append_assoc]
        rfl
      rw [htext, nested, nestedAll_eq_map]
      exact Pictures.list
        (.cons (pictures_word (show isPlainName "call" by decide) (by decide))
          (.cons (pictures_name hlexical) (Pictures.forall₂_map hpictures)))
    | paren inner span =>
      have htext : (paren inner span).outline =
          "(" ++ " ".intercalate ["paren", inner.outline] ++ ")" := by
        simp [outline, String.intercalate_cons_cons, ← String.append_assoc]
      rw [htext, nested]
      exact Pictures.list
        (.cons (pictures_word (show isPlainName "paren" by decide) (by decide))
          (.cons (hpictures inner (by simp [parts])) .nil))
    | unary op operand span =>
      have htext : (unary op operand span).outline =
          "(" ++ " ".intercalate [outlineHead op, operand.outline] ++ ")" := by
        simp [outline, String.intercalate_cons_cons, String.append_assoc]
      rw [htext, nested]
      exact Pictures.list
        (.cons (pictures_outlineHead op) (.cons (hpictures operand (by simp [parts])) .nil))
    | binary op lhs rhs span =>
      have htext : (binary op lhs rhs span).outline =
          "(" ++ " ".intercalate [op.text, lhs.outline, rhs.outline] ++ ")" := by
        simp [outline, String.intercalate_cons_cons, String.append_assoc]
      rw [htext, nested]
      exact Pictures.list
        (.cons (pictures_leaf fun _ => cuts_binaryOp op)
          (.cons (hpictures lhs (by simp [parts])) (.cons (hpictures rhs (by simp [parts])) .nil)))

/-! ### The expression of nested lists -/

mutual

/-- **The nested lists determine the expression** up to its places. -/
theorem erase_eq_of_nested : ∀ {e e' : Expr}, e.nested = e'.nested → e.erase = e'.erase
  | integer .., e', h | string .., e', h | var _, e', h => by
    cases e' <;> simp_all [nested, erase]
  | call ident args argsSpan span, e', h => by
    cases e' with
    | call ident' args' argsSpan' span' =>
      have hparts : ident.name = ident'.name ∧ nestedAll args = nestedAll args' := by
        simpa [nested] using h
      rw [erase, erase, hparts.1, eraseAll_eq_of_nestedAll hparts.2]
    | unary op operand span' => cases op <;> simp [nested, UnaryOp.outlineKind] at h
    | binary op lhs rhs span' => cases op <;> simp [nested, BinaryOp.kind] at h
    | _ => simp [nested] at h
  | paren inner span, e', h => by
    cases e' with
    | paren inner' span' =>
      have hinner : inner.nested = inner'.nested := by simpa [nested] using h
      rw [erase, erase, erase_eq_of_nested hinner]
    | unary op operand span' => cases op <;> simp [nested, UnaryOp.outlineKind] at h
    | _ => simp [nested] at h
  | unary op operand span, e', h => by
    cases e' with
    | unary op' operand' span' =>
      have hparts : op.outlineKind = op'.outlineKind ∧ operand.nested = operand'.nested := by
        simpa [nested] using h
      rw [erase, erase, UnaryOp.outlineKind_injective hparts.1, erase_eq_of_nested hparts.2]
    | paren inner span' | call ident args argsSpan span' =>
      cases op <;> simp [nested, UnaryOp.outlineKind] at h
    | _ => simp [nested] at h
  | binary op lhs rhs span, e', h => by
    cases e' with
    | binary op' lhs' rhs' span' =>
      have hparts : op.kind = op'.kind ∧ lhs.nested = lhs'.nested ∧ rhs.nested = rhs'.nested := by
        simpa [nested] using h
      rw [erase, erase, BinaryOp.kind_injective hparts.1, erase_eq_of_nested hparts.2.1,
        erase_eq_of_nested hparts.2.2]
    | call ident args argsSpan span' => cases op <;> simp [nested, BinaryOp.kind] at h
    | _ => simp [nested] at h

theorem eraseAll_eq_of_nestedAll : ∀ {es es' : List Expr},
    nestedAll es = nestedAll es' → eraseAll es = eraseAll es'
  | [], [], _ => rfl
  | e :: es, e' :: es', h => by
    obtain ⟨hfirst, hothers⟩ := List.cons.inj h
    rw [eraseAll, eraseAll, erase_eq_of_nested hfirst, eraseAll_eq_of_nestedAll hothers]

end

/-! ### Outlines -/

mutual

theorem outline_erase : ∀ e : Expr, e.erase.outline = e.outline
  | integer .. | string .. | var .. => rfl
  | call _ args _ _ => by rw [erase, outline, outline, outlineArgs_eraseAll args]
  | paren inner _ => by rw [erase, outline, outline, outline_erase inner]
  | unary _ operand _ => by rw [erase, outline, outline, outline_erase operand]
  | binary _ lhs rhs _ => by rw [erase, outline, outline, outline_erase lhs, outline_erase rhs]

theorem outlineArgs_eraseAll : ∀ es : List Expr, outlineArgs (eraseAll es) = outlineArgs es
  | [] => rfl
  | e :: es => by
    rw [eraseAll, outlineArgs, outlineArgs, outline_erase e, outlineArgs_eraseAll es]

end

/-- Expressions that can be written have one outline exactly if they are equal up to their places. -/
theorem outline_eq_iff {e e' : Expr} (h : e.Everywhere Lexical) (h' : e'.Everywhere Lexical) :
    e.outline = e'.outline ↔ e.erase = e'.erase := by
  constructor
  · intro heq
    have hpictures := pictures_outline h'
    rw [← heq] at hpictures
    exact erase_eq_of_nested ((pictures_outline h).eq hpictures)
  · intro heq
    rw [← outline_erase e, heq, outline_erase e']

end Expr

end SqlPredicates
