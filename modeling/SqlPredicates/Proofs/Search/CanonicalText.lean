import SqlPredicates.Proofs.Search.Spelling
import SqlPredicates.Proofs.Token.Cuts

/-!
# The tokens of the canonical text of a search term

The canonical text of a well-shaped search term is cut into exactly the tokens that it was written
with. All tokens but the parentheses have a blank, a parenthesis or a comma after them, so nothing
is known about the shape beyond that words, phrases and weights can be written.

A weight is printed with a point or without one. Without one its digits are an integer of 64 bits,
since only zero and one are weights without a fraction; with one the digits around the point are
those of the shortest decimal, padded with zeros in front.

## Main definitions

* `Term.CutsApart` — a text that is cut into its tokens wherever it stands

## Main results

* `Search.cuts_weight` — the token of a printed weight
* `Term.cutsApart_of_writable` — the tokens of the canonical text, whatever follows it
* `Term.exists_tokens_of_writable` — the tokens of the canonical text alone
-/

namespace SqlPredicates

/-! ### Weights -/

namespace Search

variable {rest : List Char}

theorem isDigit_of_mem_zeros {n : ℕ} {c : Char} (h : c ∈ List.replicate n '0') : c.isDigit := by
  rw [List.eq_of_mem_replicate h]
  decide

theorem isDigit_of_mem_toDigits {n : ℕ} {c : Char} (h : c ∈ Nat.toDigits 10 n) : c.isDigit :=
  Nat.isDigit_of_mem_toDigits (by decide) (by decide) h

/-- Digits followed by zeros. -/
theorem cuts_digits_zeros {digits k : ℕ} (hlt : digits * 10 ^ k < 2 ^ 64) (hrest : Apart rest) :
    Cuts (Nat.toDigits 10 digits ++ List.replicate k '0' ++ rest)
      [.integer (UInt64.ofNat (digits * 10 ^ k))] rest := by
  have hvalue : Binary64.digitsValue (Nat.toDigits 10 digits ++ List.replicate k '0') =
      digits * 10 ^ k := by
    rw [Binary64.digitsValue_append, Binary64.digitsValue_zeros, Binary64.digitsValue_toDigits,
      List.length_replicate, Nat.add_zero]
  rw [← hvalue] at hlt ⊢
  refine cuts_digits ?_ ?_ hlt hrest
  · simp [Nat.toDigits_ne_nil]
  · exact List.forall_mem_append.mpr
      ⟨fun _ => isDigit_of_mem_toDigits, fun _ => isDigit_of_mem_zeros⟩

/-- Digits with zeros in front, of which the last `places` stand behind the point. -/
theorem cuts_padded {digits places zeros split : ℕ} {padded : List Char}
    (hpadded : padded = List.replicate zeros '0' ++ Nat.toDigits 10 digits)
    (hsplit : split + places = padded.length) (hwhole : 0 < split) (hplaces : 0 < places)
    (hrest : Apart rest) :
    Cuts (padded.take split ++ '.' :: padded.drop split ++ rest)
      [.decimal (Binary64.ofRatio digits (10 ^ places))] rest := by
  have hfraction : (padded.drop split).length = places := by
    rw [List.length_drop]
    omega
  have hvalue : Binary64.digitsValue padded = digits := by
    rw [hpadded, Binary64.digitsValue_append, Binary64.digitsValue_zeros,
      Binary64.digitsValue_toDigits, Nat.zero_mul, Nat.zero_add]
  have hnumber : Binary64.ofNumeral (padded.take split) (padded.drop split) =
      Binary64.ofRatio digits (10 ^ places) := by
    rw [Binary64.ofNumeral, List.take_append_drop, hvalue, hfraction, Nat.pow_eq]
  rw [← hnumber, List.append_assoc, List.cons_append]
  refine cuts_decimal ?_ ?_ ?_ hrest
  · intro hnil
    have hlength := congrArg List.length hnil
    rw [List.length_take, List.length_nil] at hlength
    omega
  · intro hnil
    rw [hnil, List.length_nil] at hfraction
    omega
  · rw [List.take_append_drop, hpadded]
    exact List.forall_mem_append.mpr
      ⟨fun _ => isDigit_of_mem_zeros, fun _ => isDigit_of_mem_toDigits⟩

/-- A decimal with a point is cut into one token, for the number that the decimal is rounded to. -/
theorem cuts_fraction {d : Binary64.Decimal} {weight : Binary64} {k : ℕ}
    (hexponent : d.exponent = .negSucc k) (hreads : d.readsAs weight = true) (hrest : Apart rest) :
    Cuts (d.text.toList ++ rest) [.decimal weight] rest := by
  obtain ⟨digits, exponent⟩ := d
  subst hexponent
  have hratio : Binary64.ofRatio digits (10 ^ (k + 1)) = weight := of_decide_eq_true hreads
  rw [← hratio, Binary64.Decimal.text]
  dsimp only
  rw [String.toList_ofList]
  refine cuts_padded rfl ?_ ?_ (Nat.succ_pos k) hrest
  · rw [List.length_append, List.length_replicate]
    omega
  · rw [List.length_append, List.length_replicate]
    omega

/-- A decimal without a point is cut into one token, if it is small enough. -/
theorem cuts_whole {d : Binary64.Decimal} {k : ℕ} (hexponent : d.exponent = .ofNat k)
    (hlt : d.digits * 10 ^ k < 2 ^ 64) (hrest : Apart rest) :
    Cuts (d.text.toList ++ rest) [.integer (UInt64.ofNat (d.digits * 10 ^ k))] rest := by
  obtain ⟨digits, exponent⟩ := d
  subst hexponent
  rw [Binary64.Decimal.text]
  dsimp only
  rw [String.toList_ofList]
  exact cuts_digits_zeros hlt hrest

/-- **The token of a printed weight.** -/
theorem cuts_weight {weight : Binary64} (h : weight.le Binary64.one = true) (hrest : Apart rest) :
    Cuts (weight.text.toList ++ rest) [numeral weight] rest := by
  rw [Binary64.text, numeral]
  by_cases hzero : weight.bits = 0
  · rw [if_pos hzero, if_pos hzero]
    have hdigits : ∀ d ∈ ['0'], d.isDigit := by simp
    exact cuts_digits (by decide) hdigits (by decide) hrest
  · have hfinite : weight ≠ Binary64.infinity := by
      rintro rfl
      exact absurd h (by decide)
    rw [if_neg hzero, if_neg hfinite, if_neg hzero]
    split
    · next k hexponent =>
      have hle := (digits_mul_le_one h hexponent).1
      exact cuts_whole hexponent (Nat.lt_of_le_of_lt hle (by decide)) hrest
    · next k hexponent => exact cuts_fraction hexponent weight.readsAs_shortest hrest

end Search

/-! ### Words, phrases and lists of them -/

theorem SimpleTerm.cuts_render {t : SimpleTerm} (h : t.Writable) {rest : List Char}
    (hrest : Apart rest) : Cuts (t.render.toList ++ rest) [t.literal.kind] rest := by
  obtain ⟨literal, span⟩ := t
  cases literal with
  | word text => exact cuts_renderName h hrest
  | phrase quoted => exact cuts_string h rest

theorem WeightedItem.cuts_render {i : WeightedItem} (h : i.Writable) {rest : List Char}
    (hrest : Apart rest) : Cuts (i.render.toList ++ rest) i.kinds rest := by
  obtain ⟨t, weight, span⟩ := i
  cases weight with
  | none => exact SimpleTerm.cuts_render h.1 hrest
  | some weight =>
    have hle : weight.le Binary64.one = true := h.2 weight rfl
    have htext : (render ⟨t, some weight, span⟩).toList ++ rest =
        t.render.toList ++ ' ' :: (Keyword.weight.text.toList ++
          '(' :: (weight.text.toList ++ ')' :: rest)) := by
      simp [render, Keyword.text]
    rw [htext]
    have hnumber := Search.cuts_weight hle (apart_cons (c := ')') (by decide) rest)
    have hword := cuts_keyword .weight (apart_cons (c := '(') (by decide)
      (weight.text.toList ++ ')' :: rest))
    exact (SimpleTerm.cuts_render h.1 (apart_cons (by decide) _)).append
      ((hword.blank (by simp)).append
        ((cuts_opening _).append (hnumber.append (cuts_closing rest))))

namespace Search

variable {rest : List Char}

theorem kinds_ne_nil_of_item (i : WeightedItem) : i.kinds ≠ [] := by
  rw [WeightedItem.kinds]
  split <;> simp

theorem itemKinds_cons_cons (i i' : WeightedItem) (items : List WeightedItem) :
    itemKinds (i :: i' :: items) = i.kinds ++ .symbol .comma :: itemKinds (i' :: items) := rfl

theorem itemKinds_cons_ne_nil (i : WeightedItem) (items : List WeightedItem) :
    itemKinds (i :: items) ≠ [] := by
  cases items with
  | nil => exact kinds_ne_nil_of_item i
  | cons i' items =>
    rw [itemKinds_cons_cons]
    simp

theorem cuts_items {items : List WeightedItem} (h : ∀ i ∈ items, i.Writable) (hrest : Apart rest) :
    Cuts ((", ".intercalate (items.map WeightedItem.render)).toList ++ rest) (itemKinds items)
      rest := by
  induction items with
  | nil => exact .nil rest
  | cons i items ih =>
    obtain ⟨hi, hitems⟩ := List.forall_mem_cons.mp h
    cases items with
    | nil =>
      have htext : (", ".intercalate ([i].map WeightedItem.render)).toList = i.render.toList := by
        simp
      rw [htext]
      exact WeightedItem.cuts_render hi hrest
    | cons i' items =>
      have htext : (", ".intercalate ((i :: i' :: items).map WeightedItem.render)).toList ++ rest =
          i.render.toList ++ ',' :: ' ' ::
            ((", ".intercalate ((i' :: items).map WeightedItem.render)).toList ++ rest) := by
        simp [String.intercalate_cons_cons]
      rw [htext, itemKinds_cons_cons]
      exact (WeightedItem.cuts_render hi (apart_cons (by decide) _)).append
        ((cuts_symbol .comma (apart_cons (by decide) _)).append
          ((ih hitems).blank (itemKinds_cons_ne_nil i' items)))

/-- Words and phrases after some text, each with a comma before it. -/
theorem cuts_terms {terms : List SimpleTerm} (h : ∀ t ∈ terms, t.Writable) (hrest : Apart rest) :
    ∃ cs, (∀ first : String, (", ".intercalate (first :: terms.map SimpleTerm.render)).toList ++ rest
        = first.toList ++ cs) ∧ Apart cs ∧
      Cuts cs (terms.flatMap fun t => [.symbol .comma, t.literal.kind]) rest := by
  induction terms with
  | nil => exact ⟨rest, by simp, hrest, .nil rest⟩
  | cons t terms ih =>
    obtain ⟨ht, hterms⟩ := List.forall_mem_cons.mp h
    obtain ⟨cs, htext, hapart, hcuts⟩ := ih hterms
    refine ⟨',' :: ' ' :: (t.render.toList ++ cs), fun first => ?_, apart_cons (by decide) _, ?_⟩
    · rw [← htext t.render, List.map_cons, String.intercalate_cons_cons]
      simp
    · have hterm := (SimpleTerm.cuts_render ht hapart).blank (by simp)
      exact (cuts_symbol .comma (apart_cons (by decide) _)).append (hterm.append hcuts)

theorem cuts_form (form : GenerationForm) (hrest : Apart rest) :
    Cuts (form.text.toList ++ rest) [.identifier form.text] rest := by
  have hbracket : ']' ∉ form.text.toList := by cases form <;> decide
  have hcuts := cuts_renderName hbracket hrest
  have hplain : renderName form.text = form.text := by cases form <;> decide
  rwa [hplain] at hcuts

theorem cuts_connective (op : Connective) (hrest : Apart rest) :
    Cuts (op.text.toList ++ rest) [op.kind] rest := by
  cases op with
  | or => exact cuts_keyword .or hrest
  | and => exact cuts_keyword .and hrest
  | near => exact cuts_keyword .near hrest

end Search

/-! ### The whole text -/

namespace Term

theorem kinds_ne_nil (t : Term) : t.kinds ≠ [] := by
  cases t <;> simp [kinds]

/-- The text of the term is cut into its tokens wherever it stands. -/
def CutsApart (t : Term) : Prop :=
  ∀ rest : List Char, Apart rest → Cuts (t.render.toList ++ rest) t.kinds rest

/-- The text of a term that can be written is cut into its tokens wherever it stands. -/
theorem cutsApart_of_writable {t : Term} (h : t.Writable) : t.CutsApart := by
  induction t with
  | simple t => exact fun rest hrest => SimpleTerm.cuts_render h hrest
  | weighted items span =>
    intro rest hrest
    have htext : (weighted items span).render.toList ++ rest =
        Keyword.isabout.text.toList ++ '(' ::
          ((", ".intercalate (items.map WeightedItem.render)).toList ++ ')' :: rest) := by
      simp [render, Keyword.text]
    rw [htext]
    have hitems := Search.cuts_items h.2 (apart_cons (c := ')') (by decide) rest)
    exact (cuts_keyword .isabout (apart_cons (by decide) _)).append
      ((cuts_opening _).append (hitems.append (cuts_closing rest)))
  | generation form terms span =>
    intro rest hrest
    obtain ⟨cs, hcs, hapart, hterms⟩ := Search.cuts_terms h.2 (apart_cons (c := ')') (by decide) rest)
    have htext : (generation form terms span).render.toList ++ rest =
        Keyword.formsof.text.toList ++ '(' :: (form.text.toList ++ cs) := by
      rw [← hcs]
      simp [render, Keyword.text]
    rw [htext]
    exact (cuts_keyword .formsof (apart_cons (by decide) _)).append
      ((cuts_opening _).append
        ((Search.cuts_form form hapart).append (hterms.append (cuts_closing rest))))
  | group inner span ih =>
    intro rest hrest
    have htext : (group inner span).render.toList ++ rest =
        '(' :: (inner.render.toList ++ ')' :: rest) := by
      simp [render]
    rw [htext]
    exact (cuts_opening _).append ((ih h _ (apart_cons (by decide) rest)).append (cuts_closing rest))
  | not inner span ih =>
    intro rest hrest
    have htext : (not inner span).render.toList ++ rest =
        Keyword.not.text.toList ++ ' ' :: (inner.render.toList ++ rest) := by
      simp [render, Keyword.text]
    rw [htext]
    exact (cuts_keyword .not (apart_cons (by decide) _)).append
      ((ih h rest hrest).blank inner.kinds_ne_nil)
  | joined op lhs rhs span ihl ihr =>
    intro rest hrest
    have htext : (joined op lhs rhs span).render.toList ++ rest =
        lhs.render.toList ++ ' ' :: (op.text.toList ++ ' ' :: (rhs.render.toList ++ rest)) := by
      simp [render]
    rw [htext]
    have hright := (ihr h.2 rest hrest).blank rhs.kinds_ne_nil
    have hop := Search.cuts_connective op (apart_cons (c := ' ') (by decide)
      (rhs.render.toList ++ rest))
    exact (ihl h.1 _ (apart_cons (by decide) _)).append ((hop.blank (by simp)).append hright)

/-- **The tokens of the canonical text** are those that the term is written with. -/
theorem exists_tokens_of_writable {t : Term} (h : t.Writable) :
    ∃ ts : List Token, tokenize t.render = ts.map .ok ∧ ts.map Token.kind = t.kinds := by
  have hcuts := cutsApart_of_writable h [] apart_nil
  rw [List.append_nil] at hcuts
  exact hcuts.exists_items 0

end Term

end SqlPredicates
