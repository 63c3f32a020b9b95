import SqlPredicates.Proofs.NestedLists
import SqlPredicates.Proofs.Search.CanonicalText

/-!
# Outlines of search terms

The outline of a search term is the text of nested lists, with a keyword in front of every list but
groups, whose word is a name. Words and phrases are leaves, and so are alternatives of `ISABOUT`
without a weight.

A weight is written as the shortest decimal that is rounded to it. It is therefore known from its
token, also where the decimal has no point.

## Main definitions

* `Term.nested` — a term as nested lists

## Main results

* `Term.pictures_outline` — the outline is the text of the nested lists
* `Term.erase_eq_of_nested` — the nested lists determine the term up to its places
* `Term.outline_eq_iff` — two terms with equal outlines are equal up to their places
-/

namespace SqlPredicates

/-! ### Leaves -/

theorem WordOrPhrase.isLeaf_kind (literal : WordOrPhrase) : literal.kind.IsLeaf := by
  cases literal <;> exact ⟨nofun, nofun⟩

theorem WordOrPhrase.kind_injective : Function.Injective kind := by
  intro literal literal' h
  have hread := congrArg Search.literal? h
  rw [Search.literal?_kind, Search.literal?_kind] at hread
  exact Option.some.inj hread

theorem Connective.isLeaf_kind (op : Connective) : op.kind.IsLeaf := by
  cases op <;> decide

theorem Connective.kind_injective : Function.Injective kind := by
  intro op op' h
  have hread := congrArg ofKind? h
  rw [ofKind?_kind, ofKind?_kind] at hread
  exact Option.some.inj hread

theorem GenerationForm.text_injective : Function.Injective text := by
  intro form form' h
  have hread := congrArg (fun name => ofKind? (.identifier name)) h
  rw [Search.ofKind?_text, Search.ofKind?_text] at hread
  exact Option.some.inj hread

theorem Search.isLeaf_numeral (weight : Binary64) : (Search.numeral weight).IsLeaf := by
  rw [numeral]
  split
  · exact ⟨by simp, by simp⟩
  · split <;> exact ⟨by simp, by simp⟩

/-- Weights of at most one are known from their tokens. -/
theorem Search.numeral_injective {weight weight' : Binary64} (h : weight.le Binary64.one = true)
    (h' : weight'.le Binary64.one = true) (heq : numeral weight = numeral weight') :
    weight = weight' := by
  have hread := congrArg number? heq
  rw [number?_numeral h, number?_numeral h'] at hread
  exact Option.some.inj hread

/-! ### Nested lists -/

/-- The word or phrase as a leaf. -/
def SimpleTerm.nested (t : SimpleTerm) : Nested := .leaf t.literal.kind t.literal.isLeaf_kind

/-- The alternative as nested lists. -/
def WeightedItem.nested (i : WeightedItem) : Nested :=
  match i.weight with
  | none => i.term.nested
  | some weight =>
    .list [.keyword .weight, i.term.nested, .leaf (Search.numeral weight)
      (Search.isLeaf_numeral weight)]

namespace Term

/-- The term as nested lists. -/
def nested : Term → Nested
  | simple t => t.nested
  | weighted items _ => .list (.keyword .isabout :: items.map WeightedItem.nested)
  | generation form terms _ =>
    .list (.keyword .formsof :: .name form.text :: terms.map SimpleTerm.nested)
  | group inner _ => .list [.name "group", inner.nested]
  | not inner _ => .list [.keyword .not, inner.nested]
  | joined op lhs rhs _ => .list [.leaf op.kind op.isLeaf_kind, lhs.nested, rhs.nested]

end Term

/-! ### The text of the nested lists -/

theorem SimpleTerm.pictures_render {t : SimpleTerm} (h : t.Writable) :
    Pictures t.render t.nested :=
  pictures_leaf fun _ => cuts_render h

theorem WeightedItem.pictures_outline {i : WeightedItem} (h : i.Writable) :
    Pictures i.outline i.nested := by
  obtain ⟨t, weight, span⟩ := i
  cases weight with
  | none => exact SimpleTerm.pictures_render h.1
  | some weight =>
    have hle : weight.le Binary64.one = true := h.2 weight rfl
    have htext : outline ⟨t, some weight, span⟩ =
        "(" ++ " ".intercalate [Keyword.weight.text, t.render, weight.text] ++ ")" := by
      simp [outline, Keyword.text, String.intercalate_cons_cons, ← String.append_assoc]
    rw [htext, nested]
    exact Pictures.list
      (.cons (pictures_keyword .weight)
        (.cons (SimpleTerm.pictures_render h.1)
          (.cons (pictures_leaf fun _ => Search.cuts_weight hle) .nil)))

namespace Term

/-- The outline of a term that can be written is the text of its nested lists. -/
theorem pictures_outline {t : Term} (h : t.Writable) : Pictures t.outline t.nested := by
  induction t with
  | simple t => exact SimpleTerm.pictures_render h
  | weighted items span =>
    exact Pictures.list
      (.cons (pictures_keyword .isabout)
        (Pictures.forall₂_map fun i hi => WeightedItem.pictures_outline (h.2 i hi)))
  | generation form terms span =>
    exact Pictures.list
      (.cons (pictures_keyword .formsof)
        (.cons (pictures_leaf fun _ => Search.cuts_form form)
          (Pictures.forall₂_map fun t ht => SimpleTerm.pictures_render (h.2 t ht))))
  | group inner span ih =>
    have htext : (group inner span).outline =
        "(" ++ " ".intercalate ["group", inner.outline] ++ ")" := by
      simp [outline, String.intercalate_cons_cons, ← String.append_assoc]
    rw [htext, nested]
    exact Pictures.list
      (.cons (pictures_word (show isPlainName "group" by decide) (by decide)) (.cons (ih h) .nil))
  | not inner span ih =>
    have htext : (not inner span).outline =
        "(" ++ " ".intercalate [Keyword.not.text, inner.outline] ++ ")" := by
      simp [outline, Keyword.text, String.intercalate_cons_cons, ← String.append_assoc]
    rw [htext, nested]
    exact Pictures.list (.cons (pictures_keyword .not) (.cons (ih h) .nil))
  | joined op lhs rhs span ihl ihr =>
    have htext : (joined op lhs rhs span).outline =
        "(" ++ " ".intercalate [op.text, lhs.outline, rhs.outline] ++ ")" := by
      simp [outline, String.intercalate_cons_cons, String.append_assoc]
    rw [htext, nested]
    exact Pictures.list
      (.cons (pictures_leaf fun _ => Search.cuts_connective op)
        (.cons (ihl h.1) (.cons (ihr h.2) .nil)))

end Term

/-! ### The term of nested lists -/

theorem SimpleTerm.erase_eq_of_nested {t t' : SimpleTerm} (h : t.nested = t'.nested) :
    t.erase = t'.erase := by
  have hliteral : t.literal = t'.literal :=
    WordOrPhrase.kind_injective (by simpa [nested] using h)
  rw [erase, erase, hliteral]

theorem WeightedItem.erase_eq_of_nested {i i' : WeightedItem} (h : i.Writable) (h' : i'.Writable)
    (heq : i.nested = i'.nested) : i.erase = i'.erase := by
  obtain ⟨t, weight, span⟩ := i
  obtain ⟨t', weight', span'⟩ := i'
  cases weight with
  | none =>
    cases weight' with
    | none =>
      have ht : t.erase = t'.erase := SimpleTerm.erase_eq_of_nested heq
      rw [erase, erase, ht]
    | some weight' => simp [nested, SimpleTerm.nested] at heq
  | some weight =>
    cases weight' with
    | none => simp [nested, SimpleTerm.nested] at heq
    | some weight' =>
      have hparts : t.nested = t'.nested ∧ Search.numeral weight = Search.numeral weight' := by
        simpa [nested] using heq
      have hweight : weight = weight' :=
        Search.numeral_injective (h.2 weight rfl) (h'.2 weight' rfl) hparts.2
      rw [erase, erase, SimpleTerm.erase_eq_of_nested hparts.1, hweight]

/-- Lists whose entries agree one by one in `f` agree in `g`, if entries do. -/
theorem map_eq_map_of_imp {α β γ : Type} {f : α → β} {g : α → γ} {as as' : List α}
    (hfg : ∀ a ∈ as, ∀ a' ∈ as', f a = f a' → g a = g a') (h : as.map f = as'.map f) :
    as.map g = as'.map g := by
  induction as generalizing as' with
  | nil =>
    rw [List.map_eq_nil_iff.mp h.symm]
  | cons a as ih =>
    obtain ⟨a', as', rfl, ha, has⟩ := List.map_eq_cons_iff.mp h.symm
    rw [List.map_cons, List.map_cons, hfg a List.mem_cons_self a' List.mem_cons_self ha.symm,
      ih (fun b hb b' hb' => hfg b (List.mem_cons_of_mem _ hb) b' (List.mem_cons_of_mem _ hb'))
        has.symm]

namespace Term

/-- **The nested lists determine the term** up to its places. -/
theorem erase_eq_of_nested {t t' : Term} (h : t.Writable) (h' : t'.Writable)
    (heq : t.nested = t'.nested) : t.erase = t'.erase := by
  induction t generalizing t' with
  | simple t =>
    cases t' with
    | simple t' => exact congrArg simple (SimpleTerm.erase_eq_of_nested heq)
    | _ => simp [nested, SimpleTerm.nested] at heq
  | weighted items span =>
    cases t' with
    | weighted items' span' =>
      have hitems : items.map WeightedItem.nested = items'.map WeightedItem.nested := by
        simpa [nested] using heq
      have herase := map_eq_map_of_imp
        (fun i hi i' hi' => WeightedItem.erase_eq_of_nested (h.2 i hi) (h'.2 i' hi')) hitems
      rw [erase, erase, herase]
    | joined op lhs rhs span' => cases op <;> simp [nested, Connective.kind] at heq
    | _ => simp [nested, SimpleTerm.nested] at heq
  | generation form terms span =>
    cases t' with
    | generation form' terms' span' =>
      have hparts : form.text = form'.text ∧
          terms.map SimpleTerm.nested = terms'.map SimpleTerm.nested := by
        simpa [nested] using heq
      have herase := map_eq_map_of_imp
        (fun t _ t' _ => SimpleTerm.erase_eq_of_nested) hparts.2
      rw [erase, erase, GenerationForm.text_injective hparts.1, herase]
    | joined op lhs rhs span' => cases op <;> simp [nested, Connective.kind] at heq
    | _ => simp [nested, SimpleTerm.nested] at heq
  | group inner span ih =>
    cases t' with
    | group inner' span' =>
      have hwritable : inner'.Writable := h'
      have hinner : inner.nested = inner'.nested := by simpa [nested] using heq
      rw [erase, erase, ih h hwritable hinner]
    | _ => simp [nested, SimpleTerm.nested] at heq
  | not inner span ih =>
    cases t' with
    | not inner' span' =>
      have hwritable : inner'.Writable := h'
      have hinner : inner.nested = inner'.nested := by simpa [nested] using heq
      rw [erase, erase, ih h hwritable hinner]
    | _ => simp [nested, SimpleTerm.nested] at heq
  | joined op lhs rhs span ihl ihr =>
    cases t' with
    | joined op' lhs' rhs' span' =>
      have hparts : op.kind = op'.kind ∧ lhs.nested = lhs'.nested ∧ rhs.nested = rhs'.nested := by
        simpa [nested] using heq
      rw [erase, erase, Connective.kind_injective hparts.1, ihl h.1 h'.1 hparts.2.1,
        ihr h.2 h'.2 hparts.2.2]
    | weighted items span' | generation form terms span' =>
      cases op <;> simp [nested, Connective.kind] at heq
    | _ => simp [nested, SimpleTerm.nested] at heq

/-! ### Outlines -/

theorem outline_erase (t : Term) : t.erase.outline = t.outline := by
  induction t with
  | simple => rfl
  | weighted items span =>
    have hitems : (items.map WeightedItem.erase).map WeightedItem.outline =
        items.map WeightedItem.outline := by
      rw [List.map_map]
      rfl
    rw [erase, outline, outline, hitems]
  | generation form terms span =>
    have hterms : (terms.map SimpleTerm.erase).map SimpleTerm.render =
        terms.map SimpleTerm.render := by
      rw [List.map_map]
      rfl
    rw [erase, outline, outline, hterms]
  | group inner span ih | not inner span ih => rw [erase, outline, outline, ih]
  | joined op lhs rhs span ihl ihr => rw [erase, outline, outline, ihl, ihr]

/-- Terms that can be written have one outline exactly if they are equal up to their places. -/
theorem outline_eq_iff {t t' : Term} (h : t.Writable) (h' : t'.Writable) :
    t.outline = t'.outline ↔ t.erase = t'.erase := by
  constructor
  · intro heq
    have hpictures := pictures_outline h'
    rw [← heq] at hpictures
    exact erase_eq_of_nested h h' ((pictures_outline h).eq hpictures)
  · intro heq
    rw [← outline_erase t, heq, outline_erase t']

end Term

end SqlPredicates
