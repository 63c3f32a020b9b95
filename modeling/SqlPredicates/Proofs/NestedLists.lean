import SqlPredicates.Proofs.Token.Cuts

/-!
# Nested lists and their text

An outline writes a tree as nested lists, every list in parentheses and its entries separated by
blanks. Names and strings may contain blanks, parentheses and quotes, so two outlines are not
compared character by character: they are cut into tokens, and a parenthesis inside a name is no
token of its own.

`Nested` is what an outline says once it has been cut. Its leaves are tokens other than
parentheses, so a list ends where its closing parenthesis stands, and no nested list is the
beginning of another one.

## Main definitions

* `Nested`, `Nested.kinds` — nested lists of tokens, and the tokens that write them
* `Pictures` — a text that is cut into the tokens of a nested list wherever it stands

## Main results

* `Nested.kinds_append_inj` — the tokens determine the nested list and where it ends
* `Pictures.list` — the text of a list, from the texts of its entries
* `Pictures.eq` — one text pictures one nested list
-/

namespace SqlPredicates

/-- The token is no parenthesis. -/
abbrev Token.Kind.IsLeaf (kind : Token.Kind) : Prop :=
  kind ≠ .symbol .opening ∧ kind ≠ .symbol .closing

/-- Nested lists with tokens at their leaves, which are no parentheses. -/
inductive Nested where
  | leaf (kind : Token.Kind) (h : kind.IsLeaf)
  | list (entries : List Nested)

namespace Nested

/-- A name as a leaf. -/
@[simp]
def name (name : String) : Nested := leaf (.identifier name) ⟨nofun, nofun⟩

/-- A keyword as a leaf. -/
@[simp]
def keyword (word : Keyword) : Nested := leaf (.keyword word) ⟨nofun, nofun⟩

mutual

/-- The tokens that write the nested list. -/
def kinds : Nested → List Token.Kind
  | leaf kind _ => [kind]
  | list entries => .symbol .opening :: (kindsAll entries ++ [.symbol .closing])

/-- The tokens that write entries, one entry after the other. -/
def kindsAll : List Nested → List Token.Kind
  | [] => []
  | s :: ss => s.kinds ++ kindsAll ss

end

/-- What is written begins with a token, and not with a closing parenthesis. -/
theorem exists_kinds_eq_cons (s : Nested) :
    ∃ kind ks, s.kinds = kind :: ks ∧ kind ≠ .symbol .closing := by
  cases s with
  | leaf kind h => exact ⟨kind, [], by rw [kinds], h.2⟩
  | list entries => exact ⟨.symbol .opening, _, by rw [kinds], by decide⟩

theorem kinds_ne_nil (s : Nested) : s.kinds ≠ [] := by
  obtain ⟨kind, ks, hkinds, -⟩ := s.exists_kinds_eq_cons
  rw [hkinds]
  exact List.cons_ne_nil kind ks

mutual

/-- **The tokens determine the nested list**, and what stands after it. -/
theorem kinds_append_inj : ∀ {s s' : Nested} {rest rest' : List Token.Kind},
    s.kinds ++ rest = s'.kinds ++ rest' → s = s' ∧ rest = rest'
  | leaf kind _, leaf kind' _, rest, rest', h => by
    rw [kinds, kinds] at h
    obtain ⟨rfl, rfl⟩ := List.cons.inj h
    exact ⟨rfl, rfl⟩
  | leaf kind hkind, list entries', rest, rest', h => by
    rw [kinds, kinds] at h
    exact absurd (List.cons.inj h).1 hkind.1
  | list entries, leaf kind' hkind', rest, rest', h => by
    rw [kinds, kinds] at h
    exact absurd (List.cons.inj h).1.symm hkind'.1
  | list entries, list entries', rest, rest', h => by
    rw [kinds, kinds, List.cons_append, List.cons_append, List.append_assoc,
      List.append_assoc] at h
    obtain ⟨rfl, rfl⟩ := kindsAll_append_inj (List.cons.inj h).2
    exact ⟨rfl, rfl⟩

/-- The tokens of entries up to the parenthesis that closes their list. -/
theorem kindsAll_append_inj : ∀ {ss ss' : List Nested} {rest rest' : List Token.Kind},
    kindsAll ss ++ .symbol .closing :: rest = kindsAll ss' ++ .symbol .closing :: rest' →
      ss = ss' ∧ rest = rest'
  | [], [], rest, rest', h => ⟨rfl, (List.cons.inj h).2⟩
  | [], s' :: ss', rest, rest', h => by
    obtain ⟨kind, ks, hkinds, hne⟩ := s'.exists_kinds_eq_cons
    rw [kindsAll, kindsAll, hkinds] at h
    exact absurd (List.cons.inj h).1.symm hne
  | s :: ss, [], rest, rest', h => by
    obtain ⟨kind, ks, hkinds, hne⟩ := s.exists_kinds_eq_cons
    rw [kindsAll, kindsAll, hkinds] at h
    exact absurd (List.cons.inj h).1 hne
  | s :: ss, s' :: ss', rest, rest', h => by
    rw [kindsAll, kindsAll, List.append_assoc, List.append_assoc] at h
    obtain ⟨rfl, hrest⟩ := kinds_append_inj h
    obtain ⟨rfl, rfl⟩ := kindsAll_append_inj hrest
    exact ⟨rfl, rfl⟩

end

end Nested

/-! ### The text of nested lists -/

/-- A text that consists of tokens is cut in one way. -/
theorem Cuts.unique {cs : List Char} {ks ls : List Token.Kind} (h : Cuts cs ks [])
    (h' : Cuts cs ls []) : ks = ls := by
  obtain ⟨ts, hts, rfl⟩ := h.exists_items 0
  obtain ⟨us, hus, rfl⟩ := h'.exists_items 0
  have heq : ts = us := (List.map_inj_right fun _ _ => Except.ok.inj).mp (hts.symm.trans hus)
  rw [heq]

/-- The text is cut into the tokens of the nested list wherever it stands. -/
def Pictures (text : String) (s : Nested) : Prop :=
  ∀ rest : List Char, Apart rest → Cuts (text.toList ++ rest) s.kinds rest

/-- A token that is cut out wherever it stands is the picture of a leaf. -/
theorem pictures_leaf {text : String} {kind : Token.Kind} {h : kind.IsLeaf}
    (hcuts : ∀ rest : List Char, Apart rest → Cuts (text.toList ++ rest) [kind] rest) :
    Pictures text (.leaf kind h) := by
  intro rest hrest
  rw [Nested.kinds]
  exact hcuts rest hrest

theorem pictures_name {name : String} (h : ']' ∉ name.toList) :
    Pictures (renderName name) (.name name) :=
  pictures_leaf fun _ hrest => cuts_renderName h hrest

/-- A name that is written without brackets. -/
theorem pictures_word {name : String} (hplain : isPlainName name) (h : ']' ∉ name.toList) :
    Pictures name (.name name) := by
  have hpictures := pictures_name h
  rwa [renderName, if_pos hplain] at hpictures

theorem pictures_keyword (word : Keyword) : Pictures word.text (.keyword word) :=
  pictures_leaf fun _ => cuts_keyword word

namespace Pictures

theorem cuts_intercalate {texts : List String} {entries : List Nested}
    (h : List.Forall₂ Pictures texts entries) {rest : List Char} (hrest : Apart rest) :
    Cuts ((" ".intercalate texts).toList ++ rest) (Nested.kindsAll entries) rest := by
  induction h with
  | nil => exact .nil rest
  | @cons text s texts entries hfirst hothers ih =>
    cases hothers with
    | nil =>
      simpa [Nested.kindsAll] using hfirst rest hrest
    | @cons text' s' texts entries =>
      have htext : (" ".intercalate (text :: text' :: texts)).toList ++ rest =
          text.toList ++ ' ' :: ((" ".intercalate (text' :: texts)).toList ++ rest) := by
        simp [String.intercalate_cons_cons]
      have hne : Nested.kindsAll (s' :: entries) ≠ [] := by
        rw [Nested.kindsAll]
        exact List.append_ne_nil_of_left_ne_nil s'.kinds_ne_nil _
      rw [htext, Nested.kindsAll]
      exact (hfirst _ (apart_cons (by decide) _)).append (ih.blank hne)

/-- Entries are pictured one by one. -/
theorem forall₂_map {α : Type} {text : α → String} {nested : α → Nested} {as : List α}
    (h : ∀ a ∈ as, Pictures (text a) (nested a)) :
    List.Forall₂ Pictures (as.map text) (as.map nested) := by
  induction as with
  | nil => exact .nil
  | cons a as ih =>
    obtain ⟨ha, has⟩ := List.forall_mem_cons.mp h
    exact .cons ha (ih has)

/-- A list is pictured by the pictures of its entries, with blanks between them and parentheses
around them. -/
theorem list {texts : List String} {entries : List Nested}
    (h : List.Forall₂ Pictures texts entries) :
    Pictures ("(" ++ " ".intercalate texts ++ ")") (.list entries) := by
  intro rest _
  have htext : ("(" ++ " ".intercalate texts ++ ")").toList ++ rest =
      '(' :: ((" ".intercalate texts).toList ++ ')' :: rest) := by
    simp
  have hentries := cuts_intercalate h (apart_cons (c := ')') (by decide) rest)
  rw [htext, Nested.kinds]
  exact (cuts_opening _).append (hentries.append (cuts_closing rest))

/-- **One text pictures one nested list.** -/
theorem eq {text : String} {s s' : Nested} (h : Pictures text s) (h' : Pictures text s') :
    s = s' := by
  have hcuts := h [] apart_nil
  have hcuts' := h' [] apart_nil
  rw [List.append_nil] at hcuts hcuts'
  have hkinds := hcuts.unique hcuts'
  exact (Nested.kinds_append_inj (congrArg (· ++ []) hkinds)).1

end Pictures

end SqlPredicates
