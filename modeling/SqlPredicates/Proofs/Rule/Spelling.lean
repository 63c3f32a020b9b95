import SqlPredicates.Proofs.Rule.Erasure
import SqlPredicates.Rule.Parser

/-!
# Tokens that spell an expression

The concrete syntax of expressions: which sequences of tokens an expression can be written with,
spans included. There is no precedence in it. The tokens of `1 + 2 * 3` spell two expressions, of
which one is well shaped; the readers are compared with this relation and with the shape separately.

The relation does not say how an operator is spelled beyond that the token stands for it. The
canonical kinds of an expression are one choice, and by `Expr.canBeSpelled` any tokens of these
kinds spell the expression, up to the places. Conversely, the tokens that spell an expression become
those of its canonical spelling once each operator is respelled.

## Main definitions

* `Rule.canonicalKind` — the canonical spelling of an operator
* `Expr.Spells`, `Expr.SpellArgs` — the concrete syntax
* `Expr.kinds` — the kinds of the tokens in the canonical spelling

## Main results

* `Expr.Spells.ne_endOfInput` — the end of the input is no part of an expression
* `Expr.Spells.canonicalKinds_eq` — respelling leads to the canonical spelling
* `Expr.canBeSpelled` — tokens of the canonical kinds spell the expression up to its places
-/

namespace SqlPredicates

/-- The token that spells a prefix operator in canonical texts. -/
def UnaryOp.kind : UnaryOp → Token.Kind
  | .not => .keyword .not
  | .neg => .symbol .minus

/-- The token that spells a binary operator in canonical texts. -/
def BinaryOp.kind : BinaryOp → Token.Kind
  | .or => .keyword .or
  | .and => .keyword .and
  | .equal => .symbol .equal
  | .notEqual => .symbol .angles
  | .less => .symbol .less
  | .lessEqual => .symbol .lessEqual
  | .greater => .symbol .greater
  | .greaterEqual => .symbol .greaterEqual
  | .like => .keyword .like
  | .add => .symbol .plus
  | .subtract => .symbol .minus
  | .multiply => .symbol .star
  | .divide => .symbol .slash
  | .remainder => .symbol .percent

theorem UnaryOp.ofKind?_kind (op : UnaryOp) : ofKind? op.kind = some op := by
  cases op <;> rfl

theorem BinaryOp.ofKind?_kind (op : BinaryOp) : ofKind? op.kind = some op := by
  cases op <;> rfl

/-! ### Second spellings -/

namespace Rule

/-- The kind of token that spells the same operator in canonical texts. -/
def canonicalKind : Token.Kind → Token.Kind
  | .symbol .doubleBar => .keyword .or
  | .symbol .doubleAmp => .keyword .and
  | .symbol .doubleEqual => .symbol .equal
  | .symbol .bangEqual => .symbol .angles
  | .symbol .bang => .keyword .not
  | kind => kind

theorem unaryOp_canonicalKind (kind : Token.Kind) :
    UnaryOp.ofKind? (canonicalKind kind) = UnaryOp.ofKind? kind := by
  cases kind with
  | symbol sign => cases sign <;> rfl
  | _ => rfl

theorem binaryOp_canonicalKind (kind : Token.Kind) :
    BinaryOp.ofKind? (canonicalKind kind) = BinaryOp.ofKind? kind := by
  cases kind with
  | symbol sign => cases sign <;> rfl
  | _ => rfl

/-- Only operators have a second spelling. -/
theorem canonicalKind_of_none {kind : Token.Kind} (hunary : UnaryOp.ofKind? kind = none)
    (hbinary : BinaryOp.ofKind? kind = none) : canonicalKind kind = kind := by
  cases kind with
  | symbol sign =>
    cases sign with
    | bang => cases hunary
    | doubleBar | doubleAmp | doubleEqual | bangEqual => cases hbinary
    | _ => rfl
  | _ => rfl

theorem canonicalKind_of_unaryOp {kind : Token.Kind} {op : UnaryOp}
    (h : UnaryOp.ofKind? kind = some op) : canonicalKind kind = op.kind := by
  cases kind with
  | symbol sign =>
    cases sign with
    | minus | bang =>
      cases h
      rfl
    | _ => cases h
  | keyword word =>
    cases word with
    | not =>
      cases h
      rfl
    | _ => cases h
  | _ => cases h

theorem canonicalKind_of_binaryOp {kind : Token.Kind} {op : BinaryOp}
    (h : BinaryOp.ofKind? kind = some op) : canonicalKind kind = op.kind := by
  cases kind with
  | symbol sign => cases sign <;> cases h <;> rfl
  | keyword word => cases word <;> cases h <;> rfl
  | _ => cases h

end Rule

namespace Expr

/-! ### Concrete syntax -/

mutual

/-- Tokens that spell an expression. -/
inductive Spells : List Token → Expr → Prop
  | integer (value : UInt64) (span : Span) : Spells [⟨.integer value, span⟩] (.integer value span)
  | string (value : Quoted) (span : Span) : Spells [⟨.string value, span⟩] (.string value span)
  | var (name : String) (span : Span) : Spells [⟨.identifier name, span⟩] (.var ⟨name, span⟩)
  | call {ts : List Token} {args : List Expr} (name : String) (span opening closing : Span)
      (h : SpellArgs ts args) :
      Spells
        (⟨.identifier name, span⟩ :: ⟨.symbol .opening, opening⟩ ::
          (ts ++ [⟨.symbol .closing, closing⟩]))
        (.call ⟨name, span⟩ args (opening.cover closing) (span.cover (opening.cover closing)))
  | paren {ts : List Token} {inner : Expr} (opening closing : Span) (h : Spells ts inner) :
      Spells (⟨.symbol .opening, opening⟩ :: (ts ++ [⟨.symbol .closing, closing⟩]))
        (.paren inner (opening.cover closing))
  | unary {t : Token} {op : UnaryOp} {ts : List Token} {operand : Expr}
      (ht : UnaryOp.ofKind? t.kind = some op) (h : Spells ts operand) :
      Spells (t :: ts) (.unary op operand (t.span.cover operand.span))
  | binary {t : Token} {op : BinaryOp} {ts us : List Token} {lhs rhs : Expr}
      (ht : BinaryOp.ofKind? t.kind = some op) (hl : Spells ts lhs) (hr : Spells us rhs) :
      Spells (ts ++ t :: us) (.binary op lhs rhs (lhs.span.cover rhs.span))

/-- Tokens that spell arguments with commas between them. -/
inductive SpellArgs : List Token → List Expr → Prop
  | none : SpellArgs [] []
  | last {ts : List Token} {e : Expr} (h : Spells ts e) : SpellArgs ts [e]
  | more {ts us : List Token} {e e' : Expr} {es : List Expr} (comma : Span) (h : Spells ts e)
      (hs : SpellArgs us (e' :: es)) :
      SpellArgs (ts ++ ⟨.symbol .comma, comma⟩ :: us) (e :: e' :: es)

end

/-- A token of one of these kinds begins an expression. -/
def Begins (kind : Token.Kind) : Prop :=
  (∃ value, kind = .integer value) ∨ (∃ value, kind = .string value) ∨
    (∃ name, kind = .identifier name) ∨ kind = .symbol .opening ∨
    ∃ op, UnaryOp.ofKind? kind = some op

/-- An expression has a first token, of a kind that begins an expression. -/
theorem Spells.exists_cons {ts : List Token} {e : Expr} (h : Spells ts e) :
    ∃ t us, ts = t :: us ∧ Begins t.kind := by
  induction e using induction_on_parts generalizing ts with
  | _ e ih =>
    cases h with
    | integer value span => exact ⟨_, [], rfl, .inl ⟨value, rfl⟩⟩
    | string value span => exact ⟨_, [], rfl, .inr (.inl ⟨value, rfl⟩)⟩
    | var name span => exact ⟨_, [], rfl, .inr (.inr (.inl ⟨name, rfl⟩))⟩
    | call name span => exact ⟨_, _, rfl, .inr (.inr (.inl ⟨name, rfl⟩))⟩
    | paren => exact ⟨_, _, rfl, .inr (.inr (.inr (.inl rfl)))⟩
    | unary ht _ => exact ⟨_, _, rfl, .inr (.inr (.inr (.inr ⟨_, ht⟩)))⟩
    | binary ht hl _ =>
      obtain ⟨t, us, rfl, ht⟩ := ih _ List.mem_cons_self hl
      exact ⟨t, _, rfl, ht⟩

theorem SpellArgs.exists_cons {ts : List Token} {e : Expr} {es : List Expr}
    (h : SpellArgs ts (e :: es)) : ∃ t us, ts = t :: us ∧ Begins t.kind := by
  cases h with
  | last h => exact h.exists_cons
  | more comma h _ =>
    obtain ⟨t, us, rfl, ht⟩ := h.exists_cons
    exact ⟨t, _, rfl, ht⟩

theorem Spells.length_pos {ts : List Token} {e : Expr} (h : Spells ts e) : 0 < ts.length := by
  obtain ⟨t, us, rfl, -⟩ := h.exists_cons
  exact Nat.succ_pos _

/-- What the tokens of every part satisfy, and the tokens of the node itself, all tokens satisfy. -/
theorem SpellArgs.forall_mem {P : Token → Prop} {ts : List Token} {es : List Expr}
    (h : SpellArgs ts es) (hcomma : ∀ span, P ⟨.symbol .comma, span⟩)
    (hparts : ∀ e ∈ es, ∀ us, Spells us e → ∀ t ∈ us, P t) : ∀ t ∈ ts, P t := by
  induction es generalizing ts with
  | nil =>
    cases h
    simp
  | cons e es ih =>
    cases h with
    | last h => exact hparts e List.mem_cons_self _ h
    | more comma h hs =>
      intro t ht
      rcases List.mem_append.mp ht with ht | ht
      · exact hparts e List.mem_cons_self _ h t ht
      · rcases List.mem_cons.mp ht with rfl | ht
        · exact hcomma comma
        · exact ih hs (fun e he => hparts e (List.mem_cons_of_mem _ he)) t ht

theorem ne_endOfInput_of_ofKind? {kind : Token.Kind} {op : UnaryOp}
    (h : UnaryOp.ofKind? kind = some op) : kind ≠ .endOfInput := by
  rintro rfl
  cases h

theorem ne_endOfInput_of_binary {kind : Token.Kind} {op : BinaryOp}
    (h : BinaryOp.ofKind? kind = some op) : kind ≠ .endOfInput := by
  rintro rfl
  cases h

/-- The end of the input is no part of an expression. -/
theorem Spells.ne_endOfInput {ts : List Token} {e : Expr} (h : Spells ts e) :
    ∀ t ∈ ts, t.kind ≠ .endOfInput := by
  induction e using induction_on_parts generalizing ts with
  | _ e ih =>
    intro t ht
    cases h with
    | integer | string | var =>
      rw [List.mem_singleton.mp ht]
      simp
    | call name span opening closing h =>
      simp only [List.mem_cons, List.mem_append, List.not_mem_nil, or_false] at ht
      rcases ht with rfl | rfl | ht | rfl
      · simp
      · simp
      · exact h.forall_mem (by simp) (fun e he us hus => ih e he hus) t ht
      · simp
    | paren opening closing h =>
      simp only [List.mem_cons, List.mem_append, List.not_mem_nil, or_false] at ht
      rcases ht with rfl | ht | rfl
      · simp
      · exact ih _ (List.mem_singleton_self _) h t ht
      · simp
    | unary hop h =>
      rcases List.mem_cons.mp ht with rfl | ht
      · exact ne_endOfInput_of_ofKind? hop
      · exact ih _ (List.mem_singleton_self _) h t ht
    | binary hop hl hr =>
      rcases List.mem_append.mp ht with ht | ht
      · exact ih _ List.mem_cons_self hl t ht
      · rcases List.mem_cons.mp ht with rfl | ht
        · exact ne_endOfInput_of_binary hop
        · exact ih _ (by simp [parts]) hr t ht

/-! ### The canonical spelling -/

mutual

/-- The kinds of the tokens in the canonical spelling. -/
def kinds : Expr → List Token.Kind
  | integer value _ => [.integer value]
  | string value _ => [.string value]
  | var ident => [.identifier ident.name]
  | call ident args _ _ =>
    .identifier ident.name :: .symbol .opening :: (kindsAll args ++ [.symbol .closing])
  | paren inner _ => .symbol .opening :: (inner.kinds ++ [.symbol .closing])
  | unary op operand _ => op.kind :: operand.kinds
  | binary op lhs rhs _ => lhs.kinds ++ op.kind :: rhs.kinds

/-- The kinds of the tokens of arguments, with a comma between two of them. -/
def kindsAll : List Expr → List Token.Kind
  | [] => []
  | [e] => e.kinds
  | e :: es => e.kinds ++ .symbol .comma :: kindsAll es

end

theorem kindsAll_cons_cons (e e' : Expr) (es : List Expr) :
    kindsAll (e :: e' :: es) = e.kinds ++ .symbol .comma :: kindsAll (e' :: es) := by
  rw [kindsAll]
  simp

theorem SpellArgs.canonicalKinds_eq {ts : List Token} {es : List Expr} (h : SpellArgs ts es)
    (hparts : ∀ e ∈ es, ∀ us, Spells us e →
      us.map (fun t => Rule.canonicalKind t.kind) = e.kinds) :
    ts.map (fun t => Rule.canonicalKind t.kind) = kindsAll es := by
  induction es generalizing ts with
  | nil =>
    cases h
    rfl
  | cons e es ih =>
    cases h with
    | last h => exact hparts e List.mem_cons_self _ h
    | more comma h hs =>
      rw [kindsAll_cons_cons, List.map_append, List.map_cons, hparts e List.mem_cons_self _ h,
        ih hs fun e he => hparts e (List.mem_cons_of_mem _ he)]
      rfl

/-- Tokens that spell an expression become its canonical spelling when the operators are
respelled. -/
theorem Spells.canonicalKinds_eq {ts : List Token} {e : Expr} (h : Spells ts e) :
    ts.map (fun t => Rule.canonicalKind t.kind) = e.kinds := by
  induction e using induction_on_parts generalizing ts with
  | _ e ih =>
    cases h with
    | integer | string | var => rfl
    | call name span opening closing h =>
      have hargs := h.canonicalKinds_eq fun e he us hus => ih e he hus
      rw [kinds, List.map_cons, List.map_cons, List.map_append, hargs]
      rfl
    | paren opening closing h =>
      rw [kinds, List.map_cons, List.map_append, ih _ (List.mem_singleton_self _) h]
      rfl
    | unary ht h =>
      rw [kinds, List.map_cons, ih _ (List.mem_singleton_self _) h,
        Rule.canonicalKind_of_unaryOp ht]
    | binary ht hl hr =>
      rw [kinds, List.map_append, List.map_cons, ih _ List.mem_cons_self hl,
        ih _ (by simp [parts]) hr, Rule.canonicalKind_of_binaryOp ht]

/-- Some expression that agrees with `e` up to places is spelled by all tokens of the canonical
kinds. -/
def CanBeSpelled (e : Expr) : Prop :=
  ∀ ts : List Token, ts.map Token.kind = e.kinds → ∃ e' : Expr, Spells ts e' ∧ e'.erase = e.erase

theorem exists_spellArgs_of_kinds {es : List Expr} (h : ∀ e ∈ es, e.CanBeSpelled) :
    ∀ ts : List Token, ts.map Token.kind = kindsAll es →
      ∃ es', SpellArgs ts es' ∧ eraseAll es' = eraseAll es := by
  induction es with
  | nil =>
    intro ts hts
    obtain rfl := List.map_eq_nil_iff.mp hts
    exact ⟨[], .none, rfl⟩
  | cons e es ih =>
    intro ts hts
    cases es with
    | nil =>
      obtain ⟨e', hspells, herase⟩ := h e List.mem_cons_self ts hts
      exact ⟨[e'], .last hspells, by rw [eraseAll, herase]; rfl⟩
    | cons e₂ es =>
      rw [kindsAll_cons_cons] at hts
      obtain ⟨us, vs, rfl, hus, hvs⟩ := List.map_eq_append_iff.mp hts
      obtain ⟨⟨_, comma⟩, ws, rfl, rfl, hws⟩ := List.map_eq_cons_iff.mp hvs
      obtain ⟨e', hspells, herase⟩ := h e List.mem_cons_self us hus
      obtain ⟨es', hargs, heraseAll⟩ := ih (fun e he => h e (List.mem_cons_of_mem _ he)) ws hws
      -- the remaining arguments are at least one, as `more` asks for
      cases es' with
      | nil => cases heraseAll
      | cons e₂' es' =>
        refine ⟨e' :: e₂' :: es', .more comma hspells hargs, ?_⟩
        rw [eraseAll, herase, heraseAll]
        rfl

/-- **Tokens of the canonical kinds spell the expression up to its places.** -/
theorem canBeSpelled (e : Expr) : e.CanBeSpelled := by
  induction e using induction_on_parts with
  | _ e ih =>
    intro ts hts
    cases e with
    | integer value span =>
      obtain ⟨⟨_, place⟩, rfl, rfl⟩ := List.map_eq_singleton_iff.mp hts
      exact ⟨_, .integer value place, rfl⟩
    | string value span =>
      obtain ⟨⟨_, place⟩, rfl, rfl⟩ := List.map_eq_singleton_iff.mp hts
      exact ⟨_, .string value place, rfl⟩
    | var ident =>
      obtain ⟨⟨_, place⟩, rfl, rfl⟩ := List.map_eq_singleton_iff.mp hts
      exact ⟨_, .var ident.name place, rfl⟩
    | call ident args argsSpan span =>
      obtain ⟨⟨_, place⟩, us, rfl, rfl, hus⟩ := List.map_eq_cons_iff.mp hts
      obtain ⟨⟨_, opening⟩, vs, rfl, rfl, hvs⟩ := List.map_eq_cons_iff.mp hus
      obtain ⟨ws, xs, rfl, hws, hxs⟩ := List.map_eq_append_iff.mp hvs
      obtain ⟨⟨_, closing⟩, rfl, rfl⟩ := List.map_eq_singleton_iff.mp hxs
      obtain ⟨args', hargs, herase⟩ := exists_spellArgs_of_kinds ih ws hws
      exact ⟨_, .call ident.name place opening closing hargs, by rw [erase, herase]; rfl⟩
    | paren inner span =>
      obtain ⟨⟨_, opening⟩, us, rfl, rfl, hus⟩ := List.map_eq_cons_iff.mp hts
      obtain ⟨ws, xs, rfl, hws, hxs⟩ := List.map_eq_append_iff.mp hus
      obtain ⟨⟨_, closing⟩, rfl, rfl⟩ := List.map_eq_singleton_iff.mp hxs
      obtain ⟨inner', hinner, herase⟩ := ih inner (List.mem_singleton_self _) ws hws
      exact ⟨_, .paren opening closing hinner, by rw [erase, erase, herase]⟩
    | unary op operand span =>
      obtain ⟨t, us, rfl, ht, hus⟩ := List.map_eq_cons_iff.mp hts
      obtain ⟨operand', hoperand, herase⟩ := ih operand (List.mem_singleton_self _) us hus
      exact ⟨_, .unary (ht ▸ op.ofKind?_kind) hoperand, by rw [erase, erase, herase]⟩
    | binary op lhs rhs span =>
      obtain ⟨us, vs, rfl, hus, hvs⟩ := List.map_eq_append_iff.mp hts
      obtain ⟨t, ws, rfl, ht, hws⟩ := List.map_eq_cons_iff.mp hvs
      obtain ⟨lhs', hl, heraseL⟩ := ih lhs List.mem_cons_self us hus
      obtain ⟨rhs', hr, heraseR⟩ := ih rhs (by simp [parts]) ws hws
      exact ⟨_, .binary (ht ▸ op.ofKind?_kind) hl hr, by rw [erase, erase, heraseL, heraseR]⟩

end Expr

end SqlPredicates
