import SqlPredicates.Proofs.NodeOrder
import SqlPredicates.Proofs.Search.Meaning
import SqlPredicates.Proofs.Text.Words

/-!
# What keeps a match

A document that fulfils a condition goes on doing so if it is made part of a larger one, and if the
sides of a `NEAR` are allowed to be farther apart, as long as no negation turns the gain into a
loss.

Both are comparisons of two searches for one term. What a word or phrase finds by the first search,
it finds by the second at positions that lie `k` further on, where `k` is the number of words that
were put in front of the document. `Meaning.Carries` says this of a whole term: the second meaning
has at least the matches and, moved by `k`, the positions of the first. Distances between positions
do not change by moving, so the connectives carry it from their sides to the whole. Only negation
turns it around, and what is needed of the negated terms is left as an assumption in
`Document.carries_meaning`.

Positions can be gained as well: an `AND` that did not match, a phrase across the seam. Nothing is
said about the positions of the second search that do not come from the first.

## Main definitions

* `Node.Without` — trees without a kind of node
* `Meaning.Carries` — one meaning goes over into another

## Main results

* `Document.carries_meaning` — meanings go over if words and phrases and negated terms do
* `Document.fulfils_in_larger` — a document as part of a larger one
* `Document.fulfils_of_near_le` — a greater distance
-/

namespace SqlPredicates

/-! ### Trees without a kind of node -/

namespace Node

/-- No node from here downwards has the kind. -/
def Without (kind : NodeKind) (node : Node) : Prop := ∀ inner ∈ node.descendants, inner.kind ≠ kind

instance (kind : NodeKind) (node : Node) : Decidable (node.Without kind) :=
  inferInstanceAs (Decidable (∀ inner ∈ node.descendants, inner.kind ≠ kind))

theorem mem_descendants_self (node : Node) : node ∈ node.descendants := by
  rw [descendants_eq]
  exact List.mem_cons_self

theorem mem_descendants_of_child {inner child node : Node} (h : inner ∈ child.descendants)
    (hchild : child ∈ node.children) : inner ∈ node.descendants := by
  rw [descendants_eq]
  exact List.mem_cons_of_mem _ (List.mem_flatMap.mpr ⟨child, hchild, h⟩)

theorem Without.of_child {kind : NodeKind} {node child : Node} (h : node.Without kind)
    (hchild : child ∈ node.children) : child.Without kind :=
  fun inner hinner => h inner (mem_descendants_of_child hinner hchild)

end Node

/-! ### Meanings that go over into others -/

/-- What matches by `m` matches by `n`, and the positions of `m` are positions of `n` if they are
moved by `k`. -/
structure Meaning.Carries (k : ℕ) (m n : Meaning) : Prop where
  matched : m.matched → n.matched
  positions : ∀ p ∈ m.positions, p + k ∈ n.positions

theorem Meaning.carries_ofPositions {k : ℕ} {s t : Set ℕ} (h : ∀ p ∈ s, p + k ∈ t) :
    (Meaning.ofPositions s).Carries k (.ofPositions t) :=
  ⟨fun ⟨p, hp⟩ => ⟨p + k, h p hp⟩, h⟩

namespace Document

variable {d d' : Document} {k near near' : ℕ}

/-- The connectives go over if their sides do, and if the distance does not become less. -/
theorem carries_joined (hnear : near ≤ near') {lhs rhs : Term}
    (hl : (d.meaning near lhs).Carries k (d'.meaning near' lhs))
    (hr : (d.meaning near rhs).Carries k (d'.meaning near' rhs)) (op : Connective) (span : Span) :
    (d.meaning near (.joined op lhs rhs span)).Carries k
      (d'.meaning near' (.joined op lhs rhs span)) := by
  cases op with
  | and =>
    refine ⟨fun h => ⟨hl.matched h.1, hr.matched h.2⟩, ?_⟩
    rintro p ⟨hml, hmr, hp⟩
    exact ⟨hl.matched hml, hr.matched hmr, hp.imp (hl.positions p) (hr.positions p)⟩
  | or => exact ⟨Or.imp hl.matched hr.matched, fun p => Or.imp (hl.positions p) (hr.positions p)⟩
  | near =>
    refine Meaning.carries_ofPositions ?_
    rintro p ⟨i, hi, j, hj, hij, hp⟩
    have hmoved : |((i + k : ℕ) : ℤ) - (j + k : ℕ)| ≤ near' := by
      rw [Int.natCast_add, Int.natCast_add, add_sub_add_right_eq_sub]
      exact hij.trans (Int.ofNat_le.mpr hnear)
    exact ⟨i + k, hl.positions i hi, j + k, hr.positions j hj, hmoved,
      hp.imp (congrArg (· + k)) (congrArg (· + k))⟩

/-- **Meanings go over.** If every word or phrase that occurs in one document occurs `k` words
further on in the other, then every term goes over whose negated parts match in the other document
only if they match in the one. -/
theorem carries_meaning (hnear : near ≤ near')
    (hoccurs : ∀ t p, d.OccursAt t p → d'.OccursAt t (p + k)) {t : Term}
    (hnot : ∀ (inner : Term) (span : Span),
      Node.term (.not inner span) ∈ (Node.term t).descendants →
        (d'.meaning near' inner).matched → (d.meaning near inner).matched) :
    (d.meaning near t).Carries k (d'.meaning near' t) := by
  induction t with
  | simple t => exact Meaning.carries_ofPositions (hoccurs t)
  | weighted items span =>
    exact Meaning.carries_ofPositions fun p ⟨i, hi, hp⟩ => ⟨i, hi, hoccurs i.term p hp⟩
  | generation form terms span =>
    exact Meaning.carries_ofPositions fun p ⟨t, ht, hp⟩ => ⟨t, ht, hoccurs t p hp⟩
  | group inner span ih =>
    exact ih fun negated s h => hnot negated s (Node.mem_descendants_of_child h List.mem_cons_self)
  | not inner span =>
    have hinner := hnot inner span (Node.mem_descendants_self _)
    exact ⟨mt hinner, fun p hp => absurd hp (Set.notMem_empty p)⟩
  | joined op lhs rhs span ihl ihr =>
    refine carries_joined hnear (ihl fun negated s h => ?_) (ihr fun negated s h => ?_) op span
    · exact hnot negated s (Node.mem_descendants_of_child h (by simp [Node.children]))
    · exact hnot negated s (Node.mem_descendants_of_child h (by simp [Node.children]))

/-- If the meaning of a term goes over, so does the result of the search for it. -/
theorem search_of_carries {t : Term} (h : (d.meaning near t).Carries k (d'.meaning near' t)) :
    (d.fulfils near t = true → d'.fulfils near' t = true) ∧
      ∀ p ∈ (d.search near t).positions, p + k ∈ (d'.search near' t).positions := by
  have hfirst := d.represents_search near t
  have hsecond := d'.represents_search near' t
  constructor
  · intro hmatched
    exact hsecond.matched_iff.mpr (h.matched (hfirst.matched_iff.mp hmatched))
  · intro p hp
    exact (hsecond.mem_iff _).mpr (h.positions p ((hfirst.mem_iff p).mp hp))

/-! ### Larger documents -/

/-- The words around a document move what occurs in it. -/
theorem OccursAt.embedded {t : SimpleTerm} {p : ℕ} (h : d.OccursAt t p)
    (before after : List String) :
    Document.OccursAt ⟨before ++ d.words ++ after⟩ t (p + before.length) := by
  refine ⟨h.1, fun i wanted hwanted => ?_⟩
  obtain ⟨word, hword, hfits⟩ := h.2 i wanted hwanted
  refine ⟨word, ?_, hfits⟩
  have hlt : p + i < d.words.length := (List.getElem?_eq_some_iff.mp hword).1
  have hplace : p + before.length + i = before.length + (p + i) := by omega
  rw [hplace, List.append_assoc, List.getElem?_append_right (Nat.le_add_right _ _),
    Nat.add_sub_cancel_left, List.getElem?_append_left hlt, hword]

theorem words_ofText_around (before text after : String) :
    (ofText (before ++ " " ++ text ++ " " ++ after)).words =
      Text.words before ++ (ofText text).words ++ Text.words after := by
  simp only [ofText, Text.words_append_space]

/-- **A match stays a match in a larger document.** For a condition without `NOT`, a document that
fulfils it can be put between two texts, and what was found is found again, as many words further on
as the first text has. -/
theorem fulfils_in_larger {t : Term} (ht : (Node.term t).Without .negation) (near : ℕ)
    (before text after : String) :
    ((ofText text).fulfils near t = true →
        (ofText (before ++ " " ++ text ++ " " ++ after)).fulfils near t = true) ∧
      ∀ p ∈ ((ofText text).search near t).positions,
        p + (ofText before).words.length ∈
          ((ofText (before ++ " " ++ text ++ " " ++ after)).search near t).positions := by
  refine search_of_carries (carries_meaning (Nat.le_refl near) (fun s p h => ?_) ?_)
  · have hembedded := h.embedded (Text.words before) (Text.words after)
    rwa [← words_ofText_around] at hembedded
  · exact fun inner span h => absurd rfl (ht _ h)

/-- The condition `"full te*" NEAR server`. -/
def fullTextNearServer : Term :=
  .joined .near (.simple ⟨.phrase ⟨"full te*", .double⟩, ⟨0, 10⟩⟩)
    (.simple ⟨.word "server", ⟨16, 22⟩⟩) ⟨0, 22⟩

/-- A document about full texts stays one behind a title. -/
theorem fulfils_in_larger_fullTextNearServer :
    (Node.term fullTextNearServer).Without .negation ∧
      (ofText "Full text of the SQL server").fulfils 5 fullTextNearServer = true ∧
      (ofText ("Manual: full" ++ " " ++ "Full text of the SQL server" ++ " " ++ "2nd")).fulfils 5
        fullTextNearServer = true := by
  have hfree : (Node.term fullTextNearServer).Without .negation := by decide
  have hfulfils : (ofText "Full text of the SQL server").fulfils 5 fullTextNearServer = true := by
    decide
  exact ⟨hfree, hfulfils, (fulfils_in_larger hfree 5 _ _ _).1 hfulfils⟩

/-! ### Greater distances -/

/-- The distance does not matter to a term without `NEAR`. -/
theorem meaning_eq_of_without_proximity {t : Term} (ht : (Node.term t).Without .proximityTerm) :
    d.meaning near t = d.meaning near' t := by
  induction t with
  | simple | weighted | generation => rfl
  | group inner span ih => exact ih (ht.of_child List.mem_cons_self)
  | not inner span ih =>
    have hinner := ih (ht.of_child List.mem_cons_self)
    simp only [meaning, hinner]
  | joined op lhs rhs span ihl ihr =>
    have hl := ihl (ht.of_child (by simp [Node.children]))
    have hr := ihr (ht.of_child (by simp [Node.children]))
    cases op with
    | and | or => simp only [meaning, hl, hr]
    | near => exact absurd rfl (ht _ (Node.mem_descendants_self _))

/-- **A greater distance loses no match and no position**, if no `NEAR` stands below a `NOT`. -/
theorem fulfils_of_near_le (d : Document) {t : Term}
    (ht : ∀ node ∈ (Node.term t).descendants, node.kind = .negation → node.Without .proximityTerm)
    (hnear : near ≤ near') :
    (d.fulfils near t = true → d.fulfils near' t = true) ∧
      ∀ p ∈ (d.search near t).positions, p ∈ (d.search near' t).positions := by
  have hcarries : (d.meaning near t).Carries 0 (d.meaning near' t) := by
    refine carries_meaning hnear (fun s p h => h) fun inner span h hmatched => ?_
    have hinner : (Node.term inner).Without .proximityTerm :=
      (ht _ h rfl).of_child List.mem_cons_self
    rwa [meaning_eq_of_without_proximity hinner]
  exact search_of_carries hcarries

/-- The condition `server NEAR text AND NOT oracle`. -/
def serverNearText : Term :=
  .joined .and
    (.joined .near (.simple ⟨.word "server", ⟨0, 6⟩⟩) (.simple ⟨.word "text", ⟨12, 16⟩⟩) ⟨0, 16⟩)
    (.not (.simple ⟨.word "oracle", ⟨25, 31⟩⟩) ⟨21, 31⟩) ⟨0, 31⟩

/-- The words `text` and `server` are four words apart, and so are found with a distance of six. -/
theorem fulfils_of_near_le_serverNearText :
    (∀ node ∈ (Node.term serverNearText).descendants,
        node.kind = .negation → node.Without .proximityTerm) ∧
      (ofText "Full text of the SQL server").fulfils 4 serverNearText = true ∧
      (ofText "Full text of the SQL server").fulfils 6 serverNearText = true := by
  have hnegates : ∀ node ∈ (Node.term serverNearText).descendants,
      node.kind = .negation → node.Without .proximityTerm := by decide
  have hfulfils : (ofText "Full text of the SQL server").fulfils 4 serverNearText = true := by
    decide
  exact ⟨hnegates, hfulfils, (fulfils_of_near_le _ hnegates (by decide)).1 hfulfils⟩

end Document

end SqlPredicates
