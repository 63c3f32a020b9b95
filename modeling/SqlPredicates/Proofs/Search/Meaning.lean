import SqlPredicates.Search.Document
import Mathlib.Algebra.Order.Group.Abs
import Mathlib.Algebra.Order.Group.Int
import Mathlib.Data.Set.Basic
import Mathlib.Tactic.Common

/-!
# The meaning of search terms

A search computes lists of positions, which are kept increasing and free of repetitions at every
step. Here a term is given a meaning that knows nothing of lists: whether it matches, and the set of
its positions. The search is shown to compute that meaning.

## Matching without a position

The two parts of a meaning do not determine each other. A negated term matches at no position, so a
conjunction of two negations matches and `NEAR` finds nothing in either of them. Only one direction
holds, `Hits.Represents.matched_of_mem`: a term that has a position matches.

## Main definitions

* `Document.OccursAt` — a word or phrase stands at a position
* `Meaning`, `Document.meaning` — what a term means in a document
* `Hits.Represents` — hits that stand for a meaning

## Main results

* `Document.represents_search` — the hits of a term stand for its meaning
* `Document.search_meaning` — the same, with the form of the list of positions spelled out
-/

namespace SqlPredicates

/-! ### Meanings -/

/-- Whether a term matches, and the positions where it is found. -/
structure Meaning where
  matched : Prop
  positions : Set ℕ

/-- What matches exactly where it is found. -/
def Meaning.ofPositions (positions : Set ℕ) : Meaning := ⟨positions.Nonempty, positions⟩

namespace Document

/-- A word of the document fits a wanted word: it begins with it, or it is the same word. -/
def Fits (isBeginning : Bool) (word wanted : String) : Prop :=
  if isBeginning then wanted.toList <+: word.toList else word = wanted

/-- The words of the term, of which there is at least one, stand in the document one after the other
from position `p` on. -/
def OccursAt (d : Document) (t : SimpleTerm) (p : ℕ) : Prop :=
  t.words ≠ [] ∧ ∀ i wanted, t.words[i]? = some wanted →
    ∃ word, d.words[p + i]? = some word ∧ Fits t.isPrefixTerm word wanted

/-- What a term means, if the sides of a `NEAR` may be `near` positions apart. -/
def meaning (d : Document) (near : ℕ) : Term → Meaning
  | .simple t => .ofPositions {p | d.OccursAt t p}
  | .weighted items _ => .ofPositions {p | ∃ i ∈ items, d.OccursAt i.term p}
  | .generation _ terms _ => .ofPositions {p | ∃ t ∈ terms, d.OccursAt t p}
  | .group inner _ => d.meaning near inner
  | .not inner _ => ⟨¬ (d.meaning near inner).matched, ∅⟩
  | .joined op lhs rhs _ =>
    let l := d.meaning near lhs
    let r := d.meaning near rhs
    match op with
    | .and =>
      ⟨l.matched ∧ r.matched, {p | l.matched ∧ r.matched ∧ p ∈ l.positions ∪ r.positions}⟩
    | .or => ⟨l.matched ∨ r.matched, l.positions ∪ r.positions⟩
    | .near =>
      .ofPositions
        {p | ∃ i ∈ l.positions, ∃ j ∈ r.positions, |(i : ℤ) - j| ≤ near ∧ (p = i ∨ p = j)}

end Document

/-! ### Increasing lists -/

namespace Hits

@[simp] theorem mem_insertPosition {p q : ℕ} {ps : List ℕ} :
    q ∈ insertPosition p ps ↔ q = p ∨ q ∈ ps := by
  induction ps with
  | nil => simp [insertPosition]
  | cons r ps ih =>
    rw [insertPosition]
    split
    · simp
    split
    · next h => simp [h]
    · rw [List.mem_cons, List.mem_cons, ih, or_left_comm]

theorem pairwise_insertPosition {ps : List ℕ} (h : ps.Pairwise (· < ·)) (p : ℕ) :
    (insertPosition p ps).Pairwise (· < ·) := by
  induction ps with
  | nil => simp [insertPosition]
  | cons r ps ih =>
    obtain ⟨hr, hps⟩ := List.pairwise_cons.mp h
    rw [insertPosition]
    split
    · next hlt =>
      refine List.pairwise_cons.mpr ⟨fun q hq => ?_, h⟩
      rcases List.mem_cons.mp hq with rfl | hq
      · exact hlt
      · exact Nat.lt_trans hlt (hr q hq)
    split
    · exact h
    · refine List.pairwise_cons.mpr ⟨fun q hq => ?_, ih hps⟩
      rcases mem_insertPosition.mp hq with rfl | hq
      · omega
      · exact hr q hq

@[simp] theorem mem_ordered {q : ℕ} {ps : List ℕ} : q ∈ ordered ps ↔ q ∈ ps := by
  induction ps with
  | nil => simp [ordered]
  | cons p ps ih =>
    change q ∈ insertPosition p (ordered ps) ↔ _
    rw [mem_insertPosition, ih, List.mem_cons]

theorem pairwise_ordered (ps : List ℕ) : (ordered ps).Pairwise (· < ·) := by
  induction ps with
  | nil => exact .nil
  | cons p ps ih => exact pairwise_insertPosition ih p

/-! ### Hits that stand for a meaning -/

/-- The hits are in increasing order, below `count`, and agree with the meaning. -/
structure Represents (count : ℕ) (hits : Hits) (m : Meaning) : Prop where
  /-- The positions are listed in order, each of them once. -/
  increasing : hits.positions.Pairwise (· < ·)
  /-- The positions lie in the document. -/
  lt_count : ∀ p ∈ hits.positions, p < count
  /-- What has a position matches. -/
  matched_of_mem : ∀ p ∈ hits.positions, hits.matched = true
  /-- The positions are those of the meaning. -/
  mem_iff : ∀ p, p ∈ hits.positions ↔ p ∈ m.positions
  /-- A match is one by the meaning. -/
  matched_iff : hits.matched = true ↔ m.matched

variable {count : ℕ} {a b : Hits} {m n : Meaning}

theorem represents_ofPositions {ps : List ℕ} {s : Set ℕ} (hps : ps.Pairwise (· < ·))
    (hlt : ∀ p ∈ ps, p < count) (hmem : ∀ p, p ∈ ps ↔ p ∈ s) :
    (ofPositions ps).Represents count (.ofPositions s) := by
  have hmatched : (ofPositions ps).matched = true ↔ ∃ p, p ∈ ps := by
    rw [ofPositions, Bool.not_eq_true', List.isEmpty_eq_false_iff_exists_mem]
  refine ⟨hps, hlt, fun p hp => hmatched.mpr ⟨p, hp⟩, hmem, ?_⟩
  rw [hmatched]
  exact exists_congr hmem

theorem Represents.union (ha : a.Represents count m) (hb : b.Represents count n) :
    (a.union b).Represents count ⟨m.matched ∨ n.matched, m.positions ∪ n.positions⟩ := by
  have hmem : ∀ p, p ∈ (a.union b).positions ↔ p ∈ a.positions ∨ p ∈ b.positions := by
    intro p
    rw [Hits.union, mem_ordered, List.mem_append]
  have hmatched : (a.union b).matched = true ↔ a.matched = true ∨ b.matched = true :=
    Bool.or_eq_true_iff
  refine ⟨pairwise_ordered _, fun p hp => ?_, fun p hp => ?_, fun p => ?_, ?_⟩
  · exact ((hmem p).mp hp).elim (ha.lt_count p) (hb.lt_count p)
  · exact hmatched.mpr (((hmem p).mp hp).imp (ha.matched_of_mem p) (hb.matched_of_mem p))
  · rw [hmem, ha.mem_iff, hb.mem_iff]
    exact Iff.rfl
  · rw [hmatched, ha.matched_iff, hb.matched_iff]

theorem Represents.congr {m' : Meaning} (h : a.Represents count m)
    (hmatched : m.matched ↔ m'.matched) (hpositions : m.positions = m'.positions) :
    a.Represents count m' :=
  ⟨h.increasing, h.lt_count, h.matched_of_mem, hpositions ▸ h.mem_iff, h.matched_iff.trans hmatched⟩

end Hits

namespace Document

open SqlPredicates.Hits

/-! ### Words and phrases -/

theorem wordFits_iff {isBeginning : Bool} {word wanted : String} :
    wordFits isBeginning word wanted = true ↔ Fits isBeginning word wanted := by
  rw [wordFits, Fits]
  cases isBeginning with
  | true => simp
  | false => simp

/-- Standing at the front is standing word by word. -/
theorem standsAtFront_iff {isBeginning : Bool} {wanteds words : List String} :
    standsAtFront isBeginning wanteds words = true ↔
      ∀ (i : ℕ) wanted, wanteds[i]? = some wanted →
        ∃ word, words[i]? = some word ∧ Fits isBeginning word wanted := by
  induction wanteds generalizing words with
  | nil => simp [standsAtFront]
  | cons wanted wanteds ih =>
    cases words with
    | nil =>
      refine iff_of_false (fun h => by cases h) fun h => ?_
      obtain ⟨word, hword, -⟩ := h 0 wanted rfl
      cases hword
    | cons word words =>
      rw [standsAtFront, Bool.and_eq_true, wordFits_iff, ih]
      constructor
      · rintro ⟨hfits, hrest⟩ i w hw
        cases i with
        | zero =>
          cases hw
          exact ⟨word, rfl, hfits⟩
        | succ i => exact hrest i w hw
      · intro h
        obtain ⟨w, hw, hfits⟩ := h 0 wanted rfl
        cases hw
        exact ⟨hfits, fun i w hw => h (i + 1) w hw⟩

/-- The scan lists the places where the words stand at the front of what is left. -/
theorem mem_positionsFrom_iff {isBeginning : Bool} {wanteds words : List String} {start p : ℕ} :
    p ∈ positionsFrom isBeginning wanteds start words ↔
      ∃ i, p = start + i ∧ i < words.length ∧
        standsAtFront isBeginning wanteds (words.drop i) = true := by
  induction words generalizing start with
  | nil => simp [positionsFrom]
  | cons word words ih =>
    have hrest : p ∈ positionsFrom isBeginning wanteds (start + 1) words ↔
        ∃ i, p = start + (i + 1) ∧ i + 1 < (word :: words).length ∧
          standsAtFront isBeginning wanteds ((word :: words).drop (i + 1)) = true := by
      rw [ih]
      refine exists_congr fun i => ?_
      rw [List.drop_succ_cons, List.length_cons, Nat.add_lt_add_iff_right, Nat.add_assoc,
        Nat.add_comm 1 i]
    have hcases : p ∈ positionsFrom isBeginning wanteds start (word :: words) ↔
        (p = start ∧ standsAtFront isBeginning wanteds (word :: words) = true) ∨
          p ∈ positionsFrom isBeginning wanteds (start + 1) words := by
      rw [positionsFrom]
      by_cases h : standsAtFront isBeginning wanteds (word :: words) = true
      · simp [h]
      · simp [h]
    rw [hcases, hrest]
    constructor
    · rintro (⟨rfl, h⟩ | ⟨i, h⟩)
      · exact ⟨0, rfl, Nat.zero_lt_succ _, h⟩
      · exact ⟨i + 1, h⟩
    · rintro ⟨i, hp, hlt, h⟩
      cases i with
      | zero => exact .inl ⟨hp, h⟩
      | succ i => exact .inr ⟨i, hp, hlt, h⟩

theorem pairwise_positionsFrom (isBeginning : Bool) (wanteds : List String) (start : ℕ)
    (words : List String) : (positionsFrom isBeginning wanteds start words).Pairwise (· < ·) := by
  induction words generalizing start with
  | nil => exact .nil
  | cons word words ih =>
    rw [positionsFrom]
    split
    · refine List.pairwise_cons.mpr ⟨fun p hp => ?_, ih (start + 1)⟩
      obtain ⟨i, rfl, -⟩ := mem_positionsFrom_iff.mp hp
      omega
    · exact ih (start + 1)

/-- What occurs at a position has a word there. -/
theorem OccursAt.lt_length {d : Document} {t : SimpleTerm} {p : ℕ} (h : d.OccursAt t p) :
    p < d.words.length := by
  obtain ⟨wanted, wanteds, hwords⟩ := List.exists_cons_of_ne_nil h.1
  obtain ⟨word, hword, -⟩ := h.2 0 wanted (by rw [hwords]; rfl)
  exact (List.getElem?_eq_some_iff.mp hword).1

theorem mem_positions_iff {d : Document} {t : SimpleTerm} {p : ℕ} :
    p ∈ d.positions t ↔ d.OccursAt t p := by
  rw [positions]
  split
  · next h =>
    have hnil : t.words = [] := List.isEmpty_iff.mp h
    exact iff_of_false (by simp) fun hoccurs => hoccurs.1 hnil
  · next h =>
    have hne : t.words ≠ [] := fun hnil => h (List.isEmpty_iff.mpr hnil)
    rw [mem_positionsFrom_iff]
    constructor
    · rintro ⟨i, rfl, -, hfront⟩
      refine ⟨hne, fun j wanted hwanted => ?_⟩
      obtain ⟨word, hword, hfits⟩ := standsAtFront_iff.mp hfront j wanted hwanted
      rw [List.getElem?_drop] at hword
      exact ⟨word, by rw [Nat.zero_add]; exact hword, hfits⟩
    · intro hoccurs
      refine ⟨p, (Nat.zero_add p).symm, hoccurs.lt_length, standsAtFront_iff.mpr ?_⟩
      intro j wanted hwanted
      obtain ⟨word, hword, hfits⟩ := hoccurs.2 j wanted hwanted
      rw [List.getElem?_drop]
      exact ⟨word, hword, hfits⟩

theorem represents_positions (d : Document) (t : SimpleTerm) :
    (ofPositions (d.positions t)).Represents d.words.length (.ofPositions {p | d.OccursAt t p}) := by
  refine represents_ofPositions ?_ (fun p hp => (mem_positions_iff.mp hp).lt_length)
    fun p => mem_positions_iff
  rw [positions]
  split
  · exact .nil
  · exact pairwise_positionsFrom _ _ _ _

/-- Going through a list of words and phrases adds the positions of each of them. -/
theorem represents_foldl (d : Document) (terms : List SimpleTerm) {hits : Hits} {s : Set ℕ}
    (h : hits.Represents d.words.length (.ofPositions s)) :
    (terms.foldl (fun hits t => hits.union (ofPositions (d.positions t))) hits).Represents
      d.words.length (.ofPositions {p | p ∈ s ∨ ∃ t ∈ terms, d.OccursAt t p}) := by
  induction terms generalizing hits s with
  | nil =>
    refine h.congr ?_ ?_
    · simp [Meaning.ofPositions]
    · simp [Meaning.ofPositions]
  | cons t terms ih =>
    have hunion := h.union (d.represents_positions t)
    have hfirst : (hits.union (ofPositions (d.positions t))).Represents d.words.length
        (.ofPositions (s ∪ {p | d.OccursAt t p})) :=
      hunion.congr Set.union_nonempty.symm rfl
    have hset : {p | p ∈ s ∪ {p | d.OccursAt t p} ∨ ∃ u ∈ terms, d.OccursAt u p} =
        {p | p ∈ s ∨ ∃ u ∈ t :: terms, d.OccursAt u p} := by
      ext p
      simp [or_assoc]
    rw [← hset]
    exact ih hfirst

theorem represents_searchAny (d : Document) (terms : List SimpleTerm) :
    (d.searchAny terms).Represents d.words.length
      (.ofPositions {p | ∃ t ∈ terms, d.OccursAt t p}) := by
  have hnone : Hits.none.Represents d.words.length (.ofPositions ∅) :=
    represents_ofPositions .nil (by simp) (by simp)
  have hset : {p | p ∈ (∅ : Set ℕ) ∨ ∃ t ∈ terms, d.OccursAt t p} =
      {p | ∃ t ∈ terms, d.OccursAt t p} := by
    ext p
    simp
  rw [← hset]
  exact d.represents_foldl terms hnone

/-! ### Compound terms -/

theorem distance_le_iff {i j near : ℕ} : distance i j ≤ near ↔ |(i : ℤ) - j| ≤ near := by
  rw [distance, abs_le]
  omega

theorem mem_nearPositions_iff {near p : ℕ} {ls rs : List ℕ} :
    p ∈ nearPositions near ls rs ↔
      ∃ i ∈ ls, ∃ j ∈ rs, |(i : ℤ) - j| ≤ near ∧ (p = i ∨ p = j) := by
  rw [nearPositions, mem_ordered]
  simp only [List.mem_flatMap, distance_le_iff]
  refine exists_congr fun i => and_congr_right fun _ => exists_congr fun j =>
    and_congr_right fun _ => ?_
  by_cases h : |(i : ℤ) - j| ≤ near
  · simp [h]
  · simp [h]

section Compound

variable {count near : ℕ} {a b : Hits} {m n : Meaning}

theorem represents_not (h : a.Represents count m) :
    Represents count ⟨!a.matched, []⟩ ⟨¬ m.matched, ∅⟩ := by
  refine ⟨.nil, by simp, by simp, by simp, ?_⟩
  rw [← h.matched_iff, Bool.not_eq_true', Bool.not_eq_true]

theorem represents_and (ha : a.Represents count m) (hb : b.Represents count n) :
    Represents count (if a.matched && b.matched then a.union b else Hits.none)
      ⟨m.matched ∧ n.matched, {p | m.matched ∧ n.matched ∧ p ∈ m.positions ∪ n.positions}⟩ := by
  have hboth : (a.matched && b.matched) = true ↔ m.matched ∧ n.matched := by
    rw [Bool.and_eq_true, ha.matched_iff, hb.matched_iff]
  split
  · next h =>
    obtain ⟨hm, hn⟩ := hboth.mp h
    refine (ha.union hb).congr (iff_of_true (.inl hm) ⟨hm, hn⟩) (Set.ext fun p => ?_)
    exact ⟨fun hp => ⟨hm, hn, hp⟩, fun hp => hp.2.2⟩
  · next h =>
    have hnot : ¬ (m.matched ∧ n.matched) := fun hmn => h (hboth.mpr hmn)
    refine ⟨.nil, by simp [Hits.none], by simp [Hits.none], fun p => ?_, ?_⟩
    · exact iff_of_false (by simp [Hits.none]) fun hp => hnot ⟨hp.1, hp.2.1⟩
    · exact iff_of_false (by simp [Hits.none]) hnot

theorem represents_near (ha : a.Represents count m) (hb : b.Represents count n) :
    (ofPositions (nearPositions near a.positions b.positions)).Represents count
      (.ofPositions {p | ∃ i ∈ m.positions, ∃ j ∈ n.positions,
        |(i : ℤ) - j| ≤ near ∧ (p = i ∨ p = j)}) := by
  refine represents_ofPositions (pairwise_ordered _) (fun p hp => ?_) fun p => ?_
  · obtain ⟨i, hi, j, hj, -, rfl | rfl⟩ := mem_nearPositions_iff.mp hp
    · exact ha.lt_count p hi
    · exact hb.lt_count p hj
  · simp only [mem_nearPositions_iff, ha.mem_iff, hb.mem_iff, Set.mem_ofPred_eq]

end Compound

/-- **The hits of a term stand for its meaning.** -/
theorem represents_search (d : Document) (near : ℕ) (t : Term) :
    (d.search near t).Represents d.words.length (d.meaning near t) := by
  induction t with
  | simple t => exact d.represents_positions t
  | weighted items span =>
    have hset : {p | ∃ t ∈ items.map WeightedItem.term, d.OccursAt t p} =
        {p | ∃ i ∈ items, d.OccursAt i.term p} := by
      simp only [List.mem_map, exists_exists_and_eq_and]
    have h := d.represents_searchAny (items.map WeightedItem.term)
    rw [hset] at h
    exact h
  | generation form terms span => exact d.represents_searchAny terms
  | group inner span ih => exact ih
  | not inner span ih => exact represents_not ih
  | joined op lhs rhs span ihl ihr =>
    cases op with
    | and => exact represents_and ihl ihr
    | or => exact ihl.union ihr
    | near => exact represents_near ihl ihr

/-- **Searching computes the meaning of a term.** The positions are strictly increasing and lie in
the document, there are none without a match, and they are the positions of the meaning; and a
document fulfils a condition exactly if the condition matches by its meaning. -/
theorem search_meaning (d : Document) (near : ℕ) (t : Term) :
    (d.search near t).positions.Pairwise (· < ·) ∧
      (∀ p ∈ (d.search near t).positions, p < d.words.length) ∧
      ((d.search near t).positions ≠ [] → (d.search near t).matched = true) ∧
      {p | p ∈ (d.search near t).positions} = (d.meaning near t).positions ∧
      ((d.search near t).matched = true ↔ (d.meaning near t).matched) ∧
      (d.fulfils near t = true ↔ (d.meaning near t).matched) := by
  have h := d.represents_search near t
  refine ⟨h.increasing, h.lt_count, fun hne => ?_, Set.ext h.mem_iff, h.matched_iff, h.matched_iff⟩
  obtain ⟨p, hp⟩ := List.exists_mem_of_ne_nil _ hne
  exact h.matched_of_mem p hp

end Document

end SqlPredicates
