import SqlPredicates.Proofs.Rule.Grammar
import SqlPredicates.Proofs.Token.Slices

/-!
# The places of expressions

The span of an expression in a naming rule is the part of the text that it was read from, and nothing
but that part: read alone, it gives the same expression again.

The tokens of an expression stand together, and its span goes from the first to the last of them.
So the part of the text has these tokens, moved to its start, and they spell the expression moved in
the same way. That it is also grouped as it is read, and not too high, has nothing to do with what
stood around it.

## Main definitions

* `Expr.shift`, `Expr.shiftAll` — all places moved to the right

## Main results

* `Expr.Spells.spans` — the span of an expression is that of its tokens
* `Expr.Spells.exists_of_within` — the tokens of an expression inside another one
* `Expr.Spells.exists_unshift` — tokens that are moved spell expressions that are moved
* `parseRule_slice` — what the part of a text at the span of an expression is read as
-/

namespace SqlPredicates

namespace Expr

/-! ### Moving an expression -/

mutual

/-- The expression with every place moved to the right by `n` bytes. -/
def shift (n : ℕ) : Expr → Expr
  | integer value span => integer value (span.shift n)
  | string value span => string value (span.shift n)
  | var ident => var ⟨ident.name, ident.span.shift n⟩
  | call ident args argsSpan span =>
    call ⟨ident.name, ident.span.shift n⟩ (shiftAll n args) (argsSpan.shift n) (span.shift n)
  | paren inner span => paren (inner.shift n) (span.shift n)
  | unary op operand span => unary op (operand.shift n) (span.shift n)
  | binary op lhs rhs span => binary op (lhs.shift n) (rhs.shift n) (span.shift n)

/-- The expressions with every place moved to the right by `n` bytes. -/
def shiftAll (n : ℕ) : List Expr → List Expr
  | [] => []
  | e :: es => e.shift n :: shiftAll n es

end

theorem span_shift (n : ℕ) (e : Expr) : (e.shift n).span = e.span.shift n := by
  cases e <;> rfl

mutual

theorem erase_shift (n : ℕ) : ∀ e : Expr, (e.shift n).erase = e.erase
  | integer .. | string .. | var .. => rfl
  | call _ args _ _ => by rw [shift, erase, erase, eraseAll_shiftAll n args]
  | paren inner _ => by rw [shift, erase, erase, erase_shift n inner]
  | unary _ operand _ => by rw [shift, erase, erase, erase_shift n operand]
  | binary _ lhs rhs _ => by rw [shift, erase, erase, erase_shift n lhs, erase_shift n rhs]

theorem eraseAll_shiftAll (n : ℕ) : ∀ es : List Expr, eraseAll (shiftAll n es) = eraseAll es
  | [] => rfl
  | e :: es => by rw [shiftAll, eraseAll, eraseAll, erase_shift n e, eraseAll_shiftAll n es]

end

/-! ### Expressions inside an expression -/

theorem height_le_of_mem_parts {e part : Expr} (h : part ∈ e.parts) : part.height ≤ e.height := by
  cases e with
  | integer | string | var => cases h
  | call ident args argsSpan span =>
    exact Nat.le_trans (height_le_tallest h) (Nat.le_add_right _ 2)
  | paren inner span =>
    obtain rfl := List.mem_singleton.mp h
    exact Nat.le_succ _
  | unary op operand span =>
    obtain rfl := List.mem_singleton.mp h
    exact Nat.le_succ _
  | binary op lhs rhs span =>
    simp only [parts, List.mem_cons, List.not_mem_nil, or_false] at h
    rw [height]
    rcases h with rfl | rfl <;> omega

theorem height_le_of_within {e inner : Expr} (h : inner.Within e) : inner.height ≤ e.height := by
  have hheight : e.Everywhere (·.height ≤ e.height) :=
    everywhere_of_hereditary
      (fun e' part he' hp => Nat.le_trans (height_le_of_mem_parts hp) he') (Nat.le_refl e.height)
  exact hheight inner h

/-- The tokens of an expression inside another one stand together. -/
theorem Spells.exists_of_within {ts : List Token} {e inner : Expr} (h : Spells ts e)
    (hinner : inner.Within e) : ∃ us, us <:+: ts ∧ Spells us inner := by
  have heverywhere : e.Everywhere fun inner => ∃ us, us <:+: ts ∧ Spells us inner := by
    refine everywhere_of_hereditary ?_ ⟨ts, List.infix_rfl, h⟩
    rintro e part ⟨us, hus, h⟩ hp
    obtain ⟨vs, hvs, hpart⟩ := h.exists_of_mem_parts hp
    exact ⟨vs, hvs.trans hus, hpart⟩
  exact heverywhere inner hinner

/-! ### Places of tokens and of expressions -/

/-- **The span of an expression is that of its tokens**, from the first to the last one. -/
theorem Spells.spans {ts : List Token} {e : Expr} (h : Spells ts e) (hts : Ordered ts) :
    Spans ts e.span := by
  induction e using induction_on_parts generalizing ts with
  | _ e ih =>
    cases h with
    | integer | string | var => exact spans_singleton _ _
    | @call ts args name span opening closing h =>
      have harguments := (spans_singleton (.symbol .opening) opening).cover ts
        (spans_singleton (.symbol .closing) closing) (hts.of_part (List.infix_cons List.infix_rfl))
      exact (spans_singleton (.identifier name) span).cover [] harguments hts
    | paren opening closing h =>
      exact (spans_singleton _ opening).cover _ (spans_singleton _ closing) hts
    | @unary t op ts operand ht h =>
      have hoperand := ih operand (List.mem_singleton_self _) h
        (hts.of_part (List.infix_cons List.infix_rfl))
      exact (spans_singleton t.kind t.span).cover [] hoperand hts
    | @binary t op ts us lhs rhs ht hl hr =>
      have hlhs := ih lhs List.mem_cons_self hl (hts.of_part (List.prefix_append _ _).isInfix)
      have hrhs := ih rhs (by simp [parts]) hr
        (hts.of_part ((List.infix_cons List.infix_rfl).trans (List.suffix_append _ _).isInfix))
      exact hlhs.cover [t] hrhs hts

theorem SpellArgs.exists_unshift {n : ℕ} {ts us : List Token} {es : List Expr}
    (h : SpellArgs ts es) (hts : us.map (Token.shift n) = ts)
    (hparts : ∀ e ∈ es, ∀ vs, Spells (vs.map (Token.shift n)) e →
      ∃ e₀ : Expr, Spells vs e₀ ∧ e₀.shift n = e) :
    ∃ es₀, SpellArgs us es₀ ∧ shiftAll n es₀ = es := by
  induction es generalizing ts us with
  | nil =>
    cases h
    obtain rfl := List.map_eq_nil_iff.mp hts
    exact ⟨[], .none, rfl⟩
  | cons e es ih =>
    cases h with
    | last h =>
      subst hts
      obtain ⟨e₀, hspells, rfl⟩ := hparts e List.mem_cons_self us h
      exact ⟨[e₀], .last hspells, rfl⟩
    | @more vs ws _ e' es comma h hs =>
      obtain ⟨vs₀, xs, rfl, rfl, hxs⟩ := List.map_eq_append_iff.mp hts
      obtain ⟨comma₀, ws₀, rfl, rfl, hws⟩ := Token.exists_of_map_shift_eq_cons hxs
      obtain ⟨e₀, hspells, rfl⟩ := hparts e List.mem_cons_self vs₀ h
      obtain ⟨es₀, hargs, hes⟩ := ih hs hws fun e he => hparts e (List.mem_cons_of_mem _ he)
      -- the remaining arguments are at least one, as `more` asks for
      cases es₀ with
      | nil => cases hes
      | cons e₀' es₀ => exact ⟨e₀ :: e₀' :: es₀, .more comma₀ hspells hargs, by rw [← hes]; rfl⟩

/-- **Tokens that are moved spell expressions that are moved.** -/
theorem Spells.exists_unshift {n : ℕ} {ts us : List Token} {e : Expr} (h : Spells ts e)
    (hts : us.map (Token.shift n) = ts) : ∃ e₀ : Expr, Spells us e₀ ∧ e₀.shift n = e := by
  induction e using induction_on_parts generalizing ts us with
  | _ e ih =>
    cases h with
    | integer value span =>
      obtain ⟨span₀, rfl, rfl⟩ := Token.exists_of_map_shift_eq_singleton hts
      exact ⟨_, .integer value span₀, rfl⟩
    | string value span =>
      obtain ⟨span₀, rfl, rfl⟩ := Token.exists_of_map_shift_eq_singleton hts
      exact ⟨_, .string value span₀, rfl⟩
    | var name span =>
      obtain ⟨span₀, rfl, rfl⟩ := Token.exists_of_map_shift_eq_singleton hts
      exact ⟨_, .var name span₀, rfl⟩
    | call name span opening closing h =>
      obtain ⟨span₀, vs, rfl, rfl, hvs⟩ := Token.exists_of_map_shift_eq_cons hts
      obtain ⟨opening₀, ws, rfl, rfl, hws⟩ := Token.exists_of_map_shift_eq_cons hvs
      obtain ⟨xs, closing₀, rfl, hxs, rfl⟩ := Token.exists_of_map_shift_eq_concat hws
      obtain ⟨args₀, hargs, rfl⟩ := h.exists_unshift hxs fun e he vs hvs => ih e he hvs rfl
      refine ⟨_, .call name span₀ opening₀ closing₀ hargs, ?_⟩
      simp only [shift, Span.cover_shift]
    | paren opening closing h =>
      obtain ⟨opening₀, vs, rfl, rfl, hvs⟩ := Token.exists_of_map_shift_eq_cons hts
      obtain ⟨xs, closing₀, rfl, hxs, rfl⟩ := Token.exists_of_map_shift_eq_concat hvs
      obtain ⟨inner₀, hinner, rfl⟩ := ih _ (List.mem_singleton_self _) h hxs
      exact ⟨_, .paren opening₀ closing₀ hinner, by rw [shift, Span.cover_shift]⟩
    | unary ht h =>
      obtain ⟨t₀, vs, rfl, rfl, hvs⟩ := List.map_eq_cons_iff.mp hts
      obtain ⟨operand₀, hoperand, rfl⟩ := ih _ (List.mem_singleton_self _) h hvs
      refine ⟨_, .unary ht hoperand, ?_⟩
      rw [shift, Span.cover_shift, span_shift]
      rfl
    | binary ht hl hr =>
      obtain ⟨vs, ws, rfl, hvs, hws⟩ := List.map_eq_append_iff.mp hts
      obtain ⟨t₀, xs, rfl, rfl, hxs⟩ := List.map_eq_cons_iff.mp hws
      obtain ⟨lhs₀, hlhs, rfl⟩ := ih _ List.mem_cons_self hl hvs
      obtain ⟨rhs₀, hrhs, rfl⟩ := ih _ (by simp [parts]) hr hxs
      refine ⟨_, .binary ht hlhs hrhs, ?_⟩
      rw [shift, Span.cover_shift, span_shift, span_shift]

end Expr

/-- **Every expression has exactly its source.** The part of a text at the span of an expression
inside the rule is read as that expression, with places that count from the start of the part. -/
theorem parseRule_slice {text : String} {e inner : Expr} (h : parseRule text = .ok e)
    (hinner : inner.Within e) :
    Text.OnBoundaries inner.span text.toList ∧
      ∃ e' : Expr, parseRule (String.ofList (Text.slice inner.span text.toList)) = .ok e' ∧
        e'.shift inner.span.start = inner := by
  obtain ⟨ts, htokens, hspells, hgrouped, hheight⟩ := exists_tokens_of_parseRule h
  obtain ⟨us, hus, hspells⟩ := hspells.exists_of_within hinner
  have hspans := hspells.spans ((ordered_of_tokenize htokens).of_part hus)
  obtain ⟨hboundaries, us₀, htokens₀, hshift⟩ := tokenize_slice htokens hus hspans
  obtain ⟨e', hspells', hinner'⟩ := hspells.exists_unshift hshift
  have herase : e'.erase = inner.erase := by rw [← hinner', Expr.erase_shift]
  have hgrouped' : e'.Everywhere Expr.Grouped := by
    rw [← Expr.everywhere_erase Expr.grouped_erase, herase,
      Expr.everywhere_erase Expr.grouped_erase]
    exact hgrouped.of_within hinner
  have hheight' : e'.height ≤ maxNesting := by
    rw [← Expr.height_erase, herase, Expr.height_erase]
    exact Nat.le_trans (Expr.height_le_of_within hinner) hheight
  refine ⟨hboundaries, e', ?_, hinner'⟩
  rcases parseRule_of_spells htokens₀ hspells' hgrouped' with hok | ⟨hlt, -⟩
  · exact hok
  · exact absurd hheight' (Nat.not_le_of_lt hlt)

end SqlPredicates
