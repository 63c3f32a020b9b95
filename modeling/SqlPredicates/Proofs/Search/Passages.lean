import SqlPredicates.Proofs.Search.Preservation

/-!
# Passages of a document

Who copies a passage out of a document and searches the document for it as a phrase expects to find
it. That holds unless the copy begins or ends within a word: the words of the document are those
before the passage, those of the passage and those behind it, and the phrase stands where the first
of these end. An asterisk, whether it ends the passage or is put behind it, asks for less, since
every word begins with itself.

## Main results

* `Document.occursAt_of_words` — a phrase stands where its words do
* `Document.fulfils_passage` — every passage finds itself
-/

namespace SqlPredicates

namespace Document

theorem Fits.refl (isBeginning : Bool) (word : String) : Fits isBeginning word word := by
  rw [Fits]
  split
  · exact List.prefix_refl _
  · rfl

/-- A word or phrase stands where its words do: it occurs in the document of these words alone, and
with that in the larger one. -/
theorem occursAt_of_words {d : Document} {t : SimpleTerm} (hne : t.words ≠ [])
    {before after : List String} (hwords : d.words = before ++ t.words ++ after) :
    d.OccursAt t before.length := by
  have hself : Document.OccursAt ⟨t.words⟩ t 0 := by
    refine ⟨hne, fun i wanted hwanted => ⟨wanted, ?_, Fits.refl _ _⟩⟩
    rw [Nat.zero_add]
    exact hwanted
  have hlarger := hself.embedded before after
  rwa [Nat.zero_add, ← hwords] at hlarger

/-- A word or phrase is found where it occurs. -/
theorem OccursAt.found {d : Document} {t : SimpleTerm} {p : ℕ} (h : d.OccursAt t p) (near : ℕ) :
    d.fulfils near (.simple t) = true ∧ p ∈ (d.search near (.simple t)).positions := by
  have hsearch := d.represents_search near (.simple t)
  exact ⟨hsearch.matched_iff.mpr ⟨p, h⟩, (hsearch.mem_iff p).mpr h⟩

/-- An asterisk adds no word to a text. -/
theorem words_append_marker (s : String) {marker : String} (hmarker : marker ∈ ["", "*"]) :
    Text.words (s ++ marker) = Text.words s := by
  obtain rfl | rfl : marker = "" ∨ marker = "*" := by simpa using hmarker
  · rw [String.append_empty]
  · have hstar : Text.isWordChar '*' = false := by decide
    have hparted : Text.Parted s.toList "*".toList := by
      rintro c - c' hc' ⟨-, hword⟩
      obtain rfl : '*' = c' := by simpa using hc'
      exact Bool.false_ne_true (hstar.symm.trans hword)
    have hnone : Text.words "*" = [] := by decide
    rw [Text.words_append_of_parted hparted, hnone, List.append_nil]

/-- **Every passage of a document finds itself.** If a passage has a word character and is cut out
between words, then the phrase with the text of the passage is found in the document behind the
words that come before the passage, in whichever quotes and with or without an asterisk at its
end. -/
theorem fulfils_passage {before passage after : String}
    (hword : ∃ c ∈ passage.toList, Text.isWordChar c = true)
    (hfront : Text.Parted before.toList passage.toList)
    (hback : Text.Parted passage.toList after.toList) {marker : String}
    (hmarker : marker ∈ ["", "*"]) (quote : Quote) (span : Span) (near : ℕ) :
    let d := ofText (before ++ passage ++ after)
    let t := Term.simple ⟨.phrase ⟨passage ++ marker, quote⟩, span⟩
    d.fulfils near t = true ∧ (ofText before).words.length ∈ (d.search near t).positions := by
  intro d t
  have hterm : SimpleTerm.words ⟨.phrase ⟨passage ++ marker, quote⟩, span⟩ = Text.words passage :=
    words_append_marker passage hmarker
  have hend : Text.Parted (before ++ passage).toList after.toList := by
    obtain ⟨c, hmem, -⟩ := hword
    rw [String.toList_append]
    exact hback.append_left (List.ne_nil_of_mem hmem) before.toList
  have hwords : d.words = Text.words before ++ Text.words passage ++ Text.words after := by
    rw [← Text.words_append_of_parted hfront, ← Text.words_append_of_parted hend]
    rfl
  rw [← hterm] at hwords
  have hne : SimpleTerm.words ⟨.phrase ⟨passage ++ marker, quote⟩, span⟩ ≠ [] := by
    rw [hterm]
    exact Text.words_ne_nil hword
  exact (occursAt_of_words hne hwords).found near

/-- The phrase `") ΟΔΟΣ data* "`, which looks for beginnings of words. -/
def streetData : Term := .simple ⟨.phrase ⟨") ΟΔΟΣ data* ", .double⟩, ⟨0, 19⟩⟩

/-- A passage with a capital sigma at the end of a word and an asterisk before its last blank. -/
theorem fulfils_passage_streetData :
    (∃ c ∈ ") ΟΔΟΣ data* ".toList, Text.isWordChar c = true) ∧
      Text.Parted "(x".toList ") ΟΔΟΣ data* ".toList ∧
      Text.Parted ") ΟΔΟΣ data* ".toList "bases".toList ∧
      "" ∈ ["", "*"] ∧
      (ofText "(x) ΟΔΟΣ data* bases").fulfils 50 streetData = true ∧
      1 ∈ ((ofText "(x) ΟΔΟΣ data* bases").search 50 streetData).positions := by
  have hword : ∃ c ∈ ") ΟΔΟΣ data* ".toList, Text.isWordChar c = true :=
    ⟨'d', by decide, by decide⟩
  have hfront : Text.Parted "(x".toList ") ΟΔΟΣ data* ".toList := by decide
  have hback : Text.Parted ") ΟΔΟΣ data* ".toList "bases".toList := by decide
  have hmarker : "" ∈ ["", "*"] := by decide
  have hcount : (ofText "(x").words.length = 1 := by decide
  have hfound := fulfils_passage hword hfront hback hmarker .double ⟨0, 19⟩ 50
  rw [hcount] at hfound
  exact ⟨hword, hfront, hback, hmarker, hfound⟩

end Document

end SqlPredicates
