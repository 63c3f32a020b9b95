import SqlPredicates.Proofs.Rule.CanonicalText
import SqlPredicates.Proofs.Rule.ParserCompleteness

/-!
# The grammar of naming rules

The expressions that can be read from a text are, up to places, the well-shaped expressions that are
not higher than `maxNesting`. Each of them is read from its canonical text; and the canonical text
of a well-shaped expression that is too high is refused for that reason and for no other.

This file passes from places in a list of tokens to texts. The two halves of the grammar come from
the soundness and the completeness of the reader, and the texts from the canonical spelling.

## Main results

* `exists_tokens_of_parseRule`, `of_parseRule` — what can be read
* `exists_parseRule_render`, `parseRule_render_of_lt` — what the canonical text is read as
* `parseRule_grammar` — the grammar
* `parseRule_render` — the round trip
* `tokenize_render_of_parseRule` — the tokens of the canonical text
-/

namespace SqlPredicates

namespace Expr

/-! ### Lexical form -/

theorem SpellArgs.exists_of_mem {ts : List Token} {es : List Expr} (h : SpellArgs ts es) {e : Expr}
    (he : e ∈ es) : ∃ us, us <:+: ts ∧ Spells us e := by
  induction es generalizing ts with
  | nil => cases he
  | cons e' es ih =>
    cases h with
    | last h =>
      obtain rfl := List.mem_singleton.mp he
      exact ⟨ts, List.infix_rfl, h⟩
    | more comma h hs =>
      rcases List.mem_cons.mp he with rfl | he
      · exact ⟨_, (List.prefix_append _ _).isInfix, h⟩
      · obtain ⟨us, hamong, hus⟩ := ih hs he
        exact ⟨us, (List.infix_cons hamong).trans (List.suffix_append _ _).isInfix, hus⟩

/-- The tokens of a part stand together among the tokens of the expression. -/
theorem Spells.exists_of_mem_parts {ts : List Token} {e part : Expr} (h : Spells ts e)
    (hp : part ∈ e.parts) : ∃ us, us <:+: ts ∧ Spells us part := by
  cases h with
  | integer | string | var => cases hp
  | call name span opening closing h =>
    obtain ⟨us, hamong, hus⟩ := h.exists_of_mem hp
    refine ⟨us, List.infix_cons (List.infix_cons (hamong.trans ?_)), hus⟩
    exact (List.prefix_append _ _).isInfix
  | paren opening closing h =>
    obtain rfl := List.mem_singleton.mp hp
    exact ⟨_, List.infix_cons (List.prefix_append _ _).isInfix, h⟩
  | unary hop h =>
    obtain rfl := List.mem_singleton.mp hp
    exact ⟨_, List.infix_cons List.infix_rfl, h⟩
  | binary hop hl hr =>
    simp only [parts, List.mem_cons, List.not_mem_nil, or_false] at hp
    rcases hp with rfl | rfl
    · exact ⟨_, (List.prefix_append _ _).isInfix, hl⟩
    · exact ⟨_, (List.infix_cons List.infix_rfl).trans (List.suffix_append _ _).isInfix, hr⟩

/-- The names and literals of an expression have the form that its tokens have. -/
theorem Spells.everywhere_lexical {ts : List Token} {e : Expr} (h : Spells ts e)
    (hlexical : ∀ t ∈ ts, t.kind.Lexical) : e.Everywhere Lexical := by
  induction e using induction_on_parts generalizing ts with
  | _ e ih =>
    refine everywhere_iff.mpr ⟨?_, fun part hp => ?_⟩
    · cases h with
      | integer | paren | unary | binary => trivial
      | string | var => exact hlexical _ (List.mem_singleton_self _)
      | call => exact hlexical _ List.mem_cons_self
    · obtain ⟨us, hamong, hus⟩ := h.exists_of_mem_parts hp
      exact ih part hp hus fun t ht => hlexical t (hamong.subset ht)

end Expr

/-! ### Texts -/

section Texts

variable {text : String} {e : Expr} {ts : List Token}

open SqlPredicates.Parser

/-- What the reader of expressions guarantees about a text and its tree. No token is left out. -/
theorem exists_tokens_of_parseRule (h : parseRule text = .ok e) :
    ∃ ts : List Token, tokenize text = ts.map .ok ∧ e.Spells ts ∧ e.Everywhere Expr.Grouped ∧
      e.height ≤ maxNesting := by
  obtain ⟨p, q, hp, hrule⟩ := run_eq_ok.mp h
  obtain ⟨hexpr, hend⟩ := of_whole_eq_ok hrule
  obtain ⟨hreading, -, hheight⟩ := Rule.sound_exprWithin _ hexpr
  obtain ⟨ts, hts, hspells⟩ := hreading.spelled
  have htokens := tokenize_of_passes hp hts hspells.ne_endOfInput hend
  exact ⟨ts, htokens, hspells, hreading.grouped, hheight⟩

theorem of_parseRule (h : parseRule text = .ok e) : e.WellShaped ∧ e.height ≤ maxNesting := by
  obtain ⟨ts, htokens, hspells, hgrouped, hheight⟩ := exists_tokens_of_parseRule h
  have hlexical := hspells.everywhere_lexical fun t ht =>
    lexical_of_mem_tokenize (htokens ▸ List.mem_map_of_mem ht)
  exact ⟨fun inner hinner => ⟨hlexical inner hinner, hgrouped inner hinner⟩, hheight⟩

/-- A text whose tokens spell a grouped expression is read as that expression, unless it is too
high. -/
theorem parseRule_of_spells (htokens : tokenize text = ts.map .ok) (hspells : e.Spells ts)
    (hgrouped : e.Everywhere Expr.Grouped) :
    parseRule text = .ok e ∨
      maxNesting < e.height ∧ ∃ offset, parseRule text = .error (.nestingTooDeep offset) := by
  obtain ⟨t, us, rfl, -⟩ := hspells.exists_cons
  obtain ⟨p, q, hp, hpasses, hend⟩ := exists_passes_of_tokenize htokens
  have hreading : Expr.OperandReading 0 p e q :=
    { spelled := ⟨_, hpasses, hspells⟩
      grouped := hgrouped
      stops := stops_of_ofKind?_eq_none (by rw [hend]; rfl) _
      holds := e.holds_zero
      stops_least := stops_of_ofKind?_eq_none (by rw [hend]; rfl) _ }
  have hfirst : p.current.kind ≠ .endOfInput := by
    rw [hpasses.current_eq]
    exact hspells.ne_endOfInput t List.mem_cons_self
  have hexpr : Reads.Yields Parser.expr p e (q.atHeight e.height) (maxNesting < e.height) := by
    have hcomplete :=
      Rule.complete_exprWithin (Nat.le_refl maxNesting) hreading (by rw [hend]; simp)
    refine Reads.Yields.bind_of_ok (a := maxNesting) (q := p) ?_ hcomplete
    rw [levels, depth_of_ofText hp]
    rfl
  exact run_of_yields hp (yields_whole hexpr hfirst hend)

/-- The canonical text of a well-shaped expression is read as the expression up to places, unless it
is too high. -/
theorem parseRule_render_of_wellShaped (h : e.WellShaped) :
    ∃ e' : Expr, e'.erase = e.erase ∧ (parseRule e.render = .ok e' ∨ maxNesting < e.height ∧
      ∃ offset, parseRule e.render = .error (.nestingTooDeep offset)) := by
  obtain ⟨ts, htokens, hkinds⟩ := Expr.exists_tokens_of_wellShaped h
  obtain ⟨e', hspells, herase⟩ := e.canBeSpelled ts hkinds
  have hshaped : e'.WellShaped := by
    rw [← Expr.wellShaped_erase, herase, Expr.wellShaped_erase]
    exact h
  have hheight : e'.height = e.height := by
    rw [← Expr.height_erase, herase, Expr.height_erase]
  refine ⟨e', herase, ?_⟩
  rw [← hheight]
  exact parseRule_of_spells htokens hspells fun inner hinner => (hshaped inner hinner).2

theorem exists_parseRule_render (h : e.WellShaped) (hheight : e.height ≤ maxNesting) :
    ∃ e' : Expr, parseRule e.render = .ok e' ∧ e'.erase = e.erase := by
  obtain ⟨e', herase, hok | ⟨hlt, -⟩⟩ := parseRule_render_of_wellShaped h
  · exact ⟨e', hok, herase⟩
  · exact absurd hheight (Nat.not_le_of_lt hlt)

theorem parseRule_render_of_lt (h : e.WellShaped) (hheight : maxNesting < e.height) :
    ∃ offset, parseRule e.render = .error (.nestingTooDeep offset) := by
  obtain ⟨e', herase, hok | ⟨-, herror⟩⟩ := parseRule_render_of_wellShaped h
  · -- a tree that has been read is not too high, with or without its places
    have hle := (of_parseRule hok).2
    rw [← Expr.height_erase, herase, Expr.height_erase] at hle
    exact absurd hle (Nat.not_le_of_lt hheight)
  · exact herror

/-- **The grammar of naming rules.** The height of an expression is the number of nodes on its
longest chain. What is read from a text is well shaped and not higher than `maxNesting`; every such
expression is read, up to places, from some text, for which its canonical text can be taken; and the
canonical text of a well-shaped expression that is higher is refused for that reason. -/
theorem parseRule_grammar :
    (∀ e : Expr, IsGreatest {n | (Node.expr e).HasChain n} e.height) ∧
      (∀ (text : String) (e : Expr), parseRule text = .ok e →
        e.WellShaped ∧ e.height ≤ maxNesting) ∧
      (∀ e : Expr, e.WellShaped → e.height ≤ maxNesting →
        ∃ text e', parseRule text = .ok e' ∧ e'.erase = e.erase) ∧
      ∀ e : Expr, e.WellShaped → maxNesting < e.height →
        ∃ offset, parseRule e.render = .error (.nestingTooDeep offset) := by
  refine ⟨Expr.isGreatest_height, fun text e h => of_parseRule h, ?_, ?_⟩
  · intro e h hheight
    exact ⟨e.render, exists_parseRule_render h hheight⟩
  · intro e h hheight
    exact parseRule_render_of_lt h hheight

/-- An integer in `n` parentheses. -/
def Expr.inParentheses : ℕ → Expr
  | 0 => .integer 1 (.point 0)
  | n + 1 => .paren (inParentheses n) (.point 0)

theorem Expr.height_inParentheses (n : ℕ) : (inParentheses n).height = n + 1 := by
  induction n with
  | zero => rfl
  | succ n ih => rw [inParentheses, height, ih]

theorem Expr.wellShaped_inParentheses (n : ℕ) : (inParentheses n).WellShaped := by
  induction n with
  | zero => exact everywhere_of_parts_eq_nil rfl ⟨trivial, trivial⟩
  | succ n ih =>
    refine everywhere_iff.mpr ⟨⟨trivial, trivial⟩, fun part hp => ?_⟩
    obtain rfl := List.mem_singleton.mp hp
    exact ih

/-- Both sides of the limit: 255 parentheses can be read, and 256 cannot. -/
theorem parseRule_grammar_inParentheses :
    ((Expr.inParentheses 255).WellShaped ∧ (Expr.inParentheses 255).height ≤ maxNesting ∧
        ∃ text e', parseRule text = .ok e' ∧ e'.erase = (Expr.inParentheses 255).erase) ∧
      (Expr.inParentheses 256).WellShaped ∧ maxNesting < (Expr.inParentheses 256).height ∧
        ∃ offset, parseRule (Expr.inParentheses 256).render = .error (.nestingTooDeep offset) := by
  have hread := Expr.wellShaped_inParentheses 255
  have hrefused := Expr.wellShaped_inParentheses 256
  have hlow : (Expr.inParentheses 255).height ≤ maxNesting := by
    rw [Expr.height_inParentheses]
    decide
  have htall : maxNesting < (Expr.inParentheses 256).height := by
    rw [Expr.height_inParentheses]
    decide
  obtain ⟨-, -, haccepts, hrefuses⟩ := parseRule_grammar
  exact ⟨⟨hread, hlow, haccepts _ hread hlow⟩, hrefused, htall, hrefuses _ hrefused htall⟩

/-! ### The round trip -/

/-- **The round trip of naming rules.** The canonical text of an expression that has been read is
read again as the same expression up to places. The expression read from it has the same canonical
text, and is the one that this text is read as, with its places. -/
theorem parseRule_render (h : parseRule text = .ok e) :
    ∃ e' : Expr, parseRule e.render = .ok e' ∧ e'.erase = e.erase ∧ e'.render = e.render ∧
      parseRule e'.render = .ok e' := by
  obtain ⟨hshaped, hheight⟩ := of_parseRule h
  obtain ⟨e', hok, herase⟩ := exists_parseRule_render hshaped hheight
  have hrender : e'.render = e.render := by
    rw [← Expr.render_erase, herase, Expr.render_erase]
  refine ⟨e', hok, herase, hrender, ?_⟩
  rw [hrender]
  exact hok

/-- `NOT` under a sum and over a comparison, two minus signs, and a name that is a keyword. -/
def nestedNotRule : Expr :=
  .binary .add (.integer 1 ⟨0, 1⟩)
    (.unary .not
      (.binary .equal (.var ⟨"a", ⟨3, 4⟩⟩)
        (.unary .neg (.unary .neg (.var ⟨"or", ⟨9, 13⟩⟩) ⟨8, 13⟩) ⟨6, 13⟩)
        ⟨3, 13⟩)
      ⟨2, 13⟩)
    ⟨0, 13⟩

theorem parseRule_render_nestedNotRule :
    parseRule "1+!a==- -[or]" = .ok nestedNotRule ∧ nestedNotRule.render = "1 + NOT a = - -[or]" ∧
      ∃ e' : Expr, parseRule nestedNotRule.render = .ok e' ∧ e'.erase = nestedNotRule.erase ∧
        e'.render = nestedNotRule.render ∧ parseRule e'.render = .ok e' := by
  have hread : parseRule "1+!a==- -[or]" = .ok nestedNotRule := by decide +kernel
  exact ⟨hread, by decide +kernel, parseRule_render hread⟩

/-! ### The tokens -/

/-- **Printing keeps the tokens.** A text that is read as a rule consists of tokens, and so does the
canonical text of the rule. Its tokens are those of the first text, one for one and in their order,
with every operator in its canonical spelling and all other tokens as they are. -/
theorem tokenize_render_of_parseRule (h : parseRule text = .ok e) :
    ∃ ts us : List Token, tokenize text = ts.map .ok ∧ tokenize e.render = us.map .ok ∧
      us.map Token.kind = ts.map fun t => Rule.canonicalKind t.kind := by
  obtain ⟨ts, htokens, hspells, -, -⟩ := exists_tokens_of_parseRule h
  obtain ⟨us, hcanonical, hkinds⟩ := Expr.exists_tokens_of_wellShaped (of_parseRule h).1
  refine ⟨ts, us, htokens, hcanonical, ?_⟩
  rw [hkinds, hspells.canonicalKinds_eq]

/-- A rule in which every operator that has two spellings has the second one. -/
def respelledRule : Expr :=
  .binary .or (.var ⟨"a", ⟨0, 1⟩⟩)
    (.binary .and
      (.unary .not
        (.call ⟨"f", ⟨4, 5⟩⟩ [.integer 1 ⟨6, 7⟩, .string ⟨"x", .single⟩ ⟨8, 11⟩] ⟨5, 12⟩ ⟨4, 12⟩)
        ⟨3, 12⟩)
      (.binary .equal
        (.binary .notEqual (.var ⟨"b", ⟨14, 15⟩⟩) (.unary .neg (.integer 2 ⟨18, 19⟩) ⟨17, 19⟩)
          ⟨14, 19⟩)
        (.var ⟨"or", ⟨25, 29⟩⟩) ⟨14, 29⟩)
      ⟨3, 29⟩)
    ⟨0, 29⟩

theorem tokenize_render_respelledRule :
    parseRule "a||!f(1,'x')&&b!=-2--c\n==[or]" = .ok respelledRule ∧
      respelledRule.render = "a OR NOT f(1, 'x') AND b <> -2 = [or]" ∧
      ∃ ts us : List Token, tokenize "a||!f(1,'x')&&b!=-2--c\n==[or]" = ts.map .ok ∧
        tokenize respelledRule.render = us.map .ok ∧
        us.map Token.kind = ts.map fun t => Rule.canonicalKind t.kind := by
  have hread : parseRule "a||!f(1,'x')&&b!=-2--c\n==[or]" = .ok respelledRule := by
    decide +kernel
  exact ⟨hread, by decide +kernel, tokenize_render_of_parseRule hread⟩

end Texts

end SqlPredicates
