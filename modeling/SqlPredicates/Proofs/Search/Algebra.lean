import SqlPredicates.Proofs.Search.Meaning
import Mathlib.Data.List.Sort
import Mathlib.Tactic.Tauto

/-!
# The algebra of search conditions

Conditions can be rewritten by laws: the connectives are commutative, `AND` and `OR` are associative
and idempotent, `AND` and `NEAR` distribute over `OR`, and parentheses mean nothing. A law has to
hold for the whole result of a search and not only for the verdict, since a `NEAR` further out looks
at the positions. Then it may be applied at any place of a condition.

A search result is determined by the meaning of its term (`Document.search_eq_of_meaning`), since
the positions are listed in increasing order. So the laws are laws about sets, with one thing to
keep in mind: `AND` joins the positions of both sides if both match. This is why a law that holds of
verdicts can fail for positions. `a AND (a OR b)` has the positions of `b` too, so `a` must not be
written for it. And `AND` distributes over `OR` only because a term that does not match has no
positions.

## Main definitions

* `Term.Law` — the laws
* `Term.Context`, `Term.Context.fill` — a term with a hole, and what is put into it

## Main results

* `Document.search_eq_of_meaning` — terms of the same meaning have the same result
* `Document.search_fill` — equal results are equal at any place
* `Document.search_law` — the laws, at any place of a condition
-/

namespace SqlPredicates

namespace Term

/-- The laws: the two terms can be written for each other. The places of their nodes do not
matter. -/
inductive Law : Term → Term → Prop
  | comm (op : Connective) (a b : Term) (span span' : Span) :
      Law (.joined op a b span) (.joined op b a span')
  | assoc (op : Connective) (hop : op ≠ .near) (a b c : Term) (inner span inner' span' : Span) :
      Law (.joined op (.joined op a b inner) c span) (.joined op a (.joined op b c inner') span')
  | idem (op : Connective) (hop : op ≠ .near) (a : Term) (span : Span) :
      Law (.joined op a a span) a
  | and_or (a b c : Term) (inner span left right span' : Span) :
      Law (.joined .and a (.joined .or b c inner) span)
        (.joined .or (.joined .and a b left) (.joined .and a c right) span')
  | or_near (a b c : Term) (inner span left right span' : Span) :
      Law (.joined .near (.joined .or a b inner) c span)
        (.joined .or (.joined .near a c left) (.joined .near b c right) span')
  | group (a : Term) (span : Span) : Law (.group a span) a

/-! ### Contexts -/

/-- A term with a hole in the place of one term inside it. The nodes around the hole have their
places. -/
inductive Context where
  | hole
  | group (inner : Context) (span : Span)
  | not (inner : Context) (span : Span)
  | joinedLeft (op : Connective) (inner : Context) (rhs : Term) (span : Span)
  | joinedRight (op : Connective) (lhs : Term) (inner : Context) (span : Span)

/-- The term with `t` in the hole. -/
def Context.fill : Context → Term → Term
  | hole, t => t
  | group inner span, t => .group (inner.fill t) span
  | not inner span, t => .not (inner.fill t) span
  | joinedLeft op inner rhs span, t => .joined op (inner.fill t) rhs span
  | joinedRight op lhs inner span, t => .joined op lhs (inner.fill t) span

end Term

namespace Document

variable {d : Document} {near : ℕ}

/-- Terms of the same meaning have the same result: the positions of both are listed in increasing
order. -/
theorem search_eq_of_meaning {x y : Term}
    (hmatched : (d.meaning near x).matched ↔ (d.meaning near y).matched)
    (hpositions : ∀ p, p ∈ (d.meaning near x).positions ↔ p ∈ (d.meaning near y).positions) :
    d.search near x = d.search near y := by
  have hx := d.represents_search near x
  have hy := d.represents_search near y
  have hlists : (d.search near x).positions = (d.search near y).positions := by
    refine hx.increasing.eq_of_mem_iff hy.increasing fun p => ?_
    rw [hx.mem_iff, hpositions, hy.mem_iff]
  have hverdicts : (d.search near x).matched = (d.search near y).matched := by
    rw [Bool.eq_iff_iff, hx.matched_iff, hmatched, hy.matched_iff]
  exact congrArg₂ Hits.mk hverdicts hlists

/-- The search looks at the result for a part only. -/
theorem search_fill {x y : Term} (h : d.search near x = d.search near y) (K : Term.Context) :
    d.search near (K.fill x) = d.search near (K.fill y) := by
  induction K with
  | hole => exact h
  | group inner span ih => simpa only [Term.Context.fill, search] using ih
  | not inner span ih => simp only [Term.Context.fill, search, ih]
  | joinedLeft op inner rhs span ih => simp only [Term.Context.fill, search, ih]
  | joinedRight op lhs inner span ih => simp only [Term.Context.fill, search, ih]

/-! ### What compound terms mean -/

section Compound

variable {a b : Term} {span : Span} {p : ℕ}

/-- A term that has a position matches. -/
theorem matched_of_mem_positions {t : Term} (h : p ∈ (d.meaning near t).positions) :
    (d.meaning near t).matched :=
  have hits := d.represents_search near t
  hits.matched_iff.mp (hits.matched_of_mem p ((hits.mem_iff p).mpr h))

theorem matched_and : (d.meaning near (.joined .and a b span)).matched ↔
    (d.meaning near a).matched ∧ (d.meaning near b).matched := Iff.rfl

theorem mem_and : p ∈ (d.meaning near (.joined .and a b span)).positions ↔
    (d.meaning near a).matched ∧ (d.meaning near b).matched ∧
      (p ∈ (d.meaning near a).positions ∨ p ∈ (d.meaning near b).positions) := Iff.rfl

theorem matched_or : (d.meaning near (.joined .or a b span)).matched ↔
    (d.meaning near a).matched ∨ (d.meaning near b).matched := Iff.rfl

theorem mem_or : p ∈ (d.meaning near (.joined .or a b span)).positions ↔
    p ∈ (d.meaning near a).positions ∨ p ∈ (d.meaning near b).positions := Iff.rfl

theorem matched_near : (d.meaning near (.joined .near a b span)).matched ↔
    ∃ p, p ∈ (d.meaning near (.joined .near a b span)).positions := Iff.rfl

theorem mem_near : p ∈ (d.meaning near (.joined .near a b span)).positions ↔
    ∃ i ∈ (d.meaning near a).positions, ∃ j ∈ (d.meaning near b).positions,
      |(i : ℤ) - j| ≤ near ∧ (p = i ∨ p = j) := Iff.rfl

theorem mem_near_swap (span' : Span) (h : p ∈ (d.meaning near (.joined .near a b span)).positions) :
    p ∈ (d.meaning near (.joined .near b a span')).positions := by
  obtain ⟨i, hi, j, hj, hnear, hp⟩ := mem_near.mp h
  exact mem_near.mpr ⟨j, hj, i, hi, by rwa [abs_sub_comm], hp.symm⟩

end Compound

/-! ### The laws -/

/-- The two sides of a law have the same meaning. -/
theorem meaning_of_law (d : Document) (near : ℕ) {x y : Term} (h : x.Law y) :
    ((d.meaning near x).matched ↔ (d.meaning near y).matched) ∧
      ∀ p, p ∈ (d.meaning near x).positions ↔ p ∈ (d.meaning near y).positions := by
  cases h with
  | comm op a b span span' =>
    cases op with
    | and => exact ⟨And.comm, fun p => by simp only [mem_and]; tauto⟩
    | or => exact ⟨Or.comm, fun p => Or.comm⟩
    | near =>
      have hmem : ∀ p, p ∈ (d.meaning near (.joined .near a b span)).positions ↔
          p ∈ (d.meaning near (.joined .near b a span')).positions :=
        fun p => ⟨mem_near_swap span', mem_near_swap span⟩
      exact ⟨exists_congr hmem, hmem⟩
  | assoc op hop a b c =>
    cases op with
    | and => exact ⟨and_assoc, fun p => by simp only [mem_and, matched_and]; tauto⟩
    | or => exact ⟨or_assoc, fun p => or_assoc⟩
    | near => exact absurd rfl hop
  | idem op hop =>
    cases op with
    | and =>
      refine ⟨and_self_iff, fun p => ?_⟩
      have hmatched := @matched_of_mem_positions d near p y
      rw [mem_and, or_self_iff]
      tauto
    | or => exact ⟨or_self_iff, fun p => or_self_iff⟩
    | near => exact absurd rfl hop
  | and_or a b c =>
    refine ⟨and_or_left, fun p => ?_⟩
    -- a side that does not match adds no positions to the union
    have hb := @matched_of_mem_positions d near p b
    have hc := @matched_of_mem_positions d near p c
    simp only [mem_and, mem_or, matched_or]
    tauto
  | or_near a b c inner span left right span' =>
    have hmem : ∀ p, p ∈ (d.meaning near (.joined .near (.joined .or a b inner) c span)).positions ↔
        p ∈ (d.meaning near (.joined .near a c left)).positions ∨
          p ∈ (d.meaning near (.joined .near b c right)).positions := by
      intro p
      simp only [mem_near, mem_or, or_and_right, exists_or]
    exact ⟨(exists_congr hmem).trans exists_or, hmem⟩
  | group => exact ⟨Iff.rfl, fun p => Iff.rfl⟩

/-- **The laws of search conditions hold at any place.** The two sides of a law have the same
result, verdict and positions, and a condition keeps its result if one is put in the place of the
other. -/
theorem search_law (d : Document) (near : ℕ) {x y : Term} (h : x.Law y) :
    d.search near x = d.search near y ∧
      ∀ K : Term.Context, d.search near (K.fill x) = d.search near (K.fill y) ∧
        d.fulfils near (K.fill x) = d.fulfils near (K.fill y) := by
  obtain ⟨hmatched, hpositions⟩ := d.meaning_of_law near h
  have hsearch := search_eq_of_meaning hmatched hpositions
  refine ⟨hsearch, fun K => ⟨search_fill hsearch K, ?_⟩⟩
  rw [fulfils, fulfils, search_fill hsearch K]

/-- A bare word as a condition. -/
def bareWord (text : String) : Term := .simple ⟨.word text, .point 0⟩

/-- The condition `server AND (text OR oracle)`, and the same without parentheses. -/
def serverAndEither : Term × Term :=
  (.joined .and (bareWord "server") (.joined .or (bareWord "text") (bareWord "oracle") ⟨12, 26⟩)
    ⟨0, 27⟩,
   .joined .or (.joined .and (bareWord "server") (bareWord "text") ⟨0, 15⟩)
    (.joined .and (bareWord "server") (bareWord "oracle") ⟨19, 36⟩) ⟨0, 36⟩)

/-- In "full text of the sql server" both forms find two words that are near `the`, though the
document has no word `oracle`. -/
theorem search_law_serverAndEither :
    serverAndEither.1.Law serverAndEither.2 ∧
      (Document.ofText "full text of the sql server").search 2
          ((Term.Context.joinedRight .near (bareWord "the") .hole ⟨0, 42⟩).fill serverAndEither.1)
        = ⟨true, [1, 3, 5]⟩ ∧
      (Document.ofText "full text of the sql server").search 2
          ((Term.Context.joinedRight .near (bareWord "the") .hole ⟨0, 42⟩).fill serverAndEither.2)
        = ⟨true, [1, 3, 5]⟩ := by
  have hlaw : serverAndEither.1.Law serverAndEither.2 := .and_or _ _ _ _ _ _ _ _
  have hfirst : (Document.ofText "full text of the sql server").search 2
      ((Term.Context.joinedRight .near (bareWord "the") .hole ⟨0, 42⟩).fill serverAndEither.1)
        = ⟨true, [1, 3, 5]⟩ := by decide
  exact ⟨hlaw, hfirst, ((search_law _ 2 hlaw).2 _).1.symm.trans hfirst⟩

end Document

end SqlPredicates
