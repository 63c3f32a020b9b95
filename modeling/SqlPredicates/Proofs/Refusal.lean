import SqlPredicates.Proofs.Comparison
import SqlPredicates.Proofs.Token.Items

/-!
# Where a reading is refused

A reading fails in one of three ways: the text cannot be cut into tokens, the tree is too deep, or a
token does not fit. Only the last of them says something about the grammar, and then the tokens
before the one that does not fit are still the beginning of something that can be read.

`Parser.Refused P e p q` says that the reading from `p` has been given up at the token of `q`, after
tokens that can be completed so that `P` holds of them; for each reader `P` will say what it reads.
As the error is passed on from reader to reader, the tokens read before are put in front
(`Parser.Refused.after`), and the parentheses that are still open are closed
(`Parser.Refused.enclosed`).

## Main definitions

* `SyntaxError.AtToken` — an error about a token that does not fit
* `Parser.Foreign` — an error that is not about the tokens that follow
* `Parser.Completable` — tokens that can be completed
* `Parser.Refused` — a reading that is given up at a token

## Main results

* `Parser.Refused.of_unexpected`, `Parser.Refused.after`, `Parser.Refused.enclosed` — refusals, what
  has been read before them, and what is missing
* `Parser.of_expect_eq_error` — a token that has been expected
-/

namespace SqlPredicates

/-- The error is about a token that does not fit. -/
def SyntaxError.AtToken : SyntaxError → Prop
  | .unexpected _ _ _ | .weightOutOfRange _ _ => True
  | _ => False

namespace Parser

variable {p q r : Parser} {ts : List Token} {e : SyntaxError} {kind : Token.Kind}

/-! ### Errors about tokens -/

/-- The error is about a token, and not an item that follows. -/
structure Foreign (e : SyntaxError) (p : Parser) : Prop where
  atToken : e.AtToken
  not_mem : .error e ∉ p.rest

namespace Foreign

theorem of_advance {t : Token} (h : Foreign e p) (hadvance : advance p = .ok t q) :
    Foreign e q := by
  obtain ⟨-, next, -, rfl⟩ := advance_eq_ok.mp hadvance
  exact ⟨h.atToken, fun hmem => h.not_mem (List.mem_of_mem_tail hmem)⟩

theorem of_passes (h : Foreign e p) (hts : Passes p ts q) : Foreign e q := by
  induction hts with
  | nil => exact ⟨h.atToken, h.not_mem⟩
  | cons first _ ih => exact ih (h.of_advance first)

theorem advance_ne (h : Foreign e p) : advance p ≠ .error e q := by
  intro hadvance
  rw [advance] at hadvance
  cases hrest : p.rest with
  | nil =>
    rw [hrest] at hadvance
    cases hadvance
  | cons item items =>
    rw [hrest] at hadvance
    cases item with
    | ok next => cases hadvance
    | error e' =>
      cases hadvance
      exact h.not_mem (by rw [hrest]; exact List.mem_cons_self)

theorem eat?_ne (h : Foreign e p) : eat? kind p ≠ .error e q := by
  intro heat
  rw [eat?, look_bind] at heat
  split at heat
  · rcases Reads.bind_eq_error.mp heat with hadvance | ⟨t, r, -, hpure⟩
    · exact h.advance_ne hadvance
    · cases hpure
  · cases heat

/-- An action after a token that is passed over. -/
theorem of_advance_bind {α : Type} {f : Token → Reads α} (h : Foreign e p)
    (herror : (advance >>= f) p = .error e r) :
    ∃ q, advance p = .ok p.current q ∧ Foreign e q ∧ f p.current q = .error e r := by
  rcases Reads.bind_eq_error.mp herror with hadvance | ⟨t, q, hadvance, hf⟩
  · exact absurd hadvance h.advance_ne
  · obtain rfl := (advance_eq_ok.mp hadvance).1
    exact ⟨q, hadvance, h.of_advance hadvance, hf⟩

end Foreign

/-- An action after a node that is not too high. -/
theorem of_nodeHeight_eq_error {α : Type} {f : ℕ → Reads α} {child offset : ℕ}
    (he : e.AtToken) (h : (nodeHeight child offset >>= f) p = .error e q) :
    f (child + 1) p = .error e q := by
  rw [nodeHeight] at h
  split at h
  · exact h
  · cases h
    exact he.elim

theorem of_wrap_eq_error {α : Type} {f : Unit → Reads α} {offset : ℕ} (he : e.AtToken)
    (h : (wrap offset >>= f) p = .error e q) : f () (p.atHeight (p.height + 1)) = .error e q := by
  rw [wrap, bind_assoc, lastHeight_bind, bind_assoc] at h
  exact of_nodeHeight_eq_error he h

/-! ### Refusals -/

/-- A token that completes the ones that have been read. Its place does not matter. -/
def added (kind : Token.Kind) : Token := ⟨kind, Span.point 0⟩

/-- The tokens can be completed so that `P` holds of them. -/
def Completable (P : List Token → Prop) (ts : List Token) : Prop :=
  ∃ us, (∀ u ∈ us, u.kind.Lexical) ∧ P (ts ++ us)

namespace Completable

variable {P : List Token → Prop}

theorem of_self (h : P ts) : Completable P ts := ⟨[], by simp, by simpa using h⟩

theorem of_added (kinds : List Token.Kind) (hkinds : ∀ kind ∈ kinds, kind.Lexical)
    (h : P (ts ++ kinds.map added)) : Completable P ts :=
  ⟨kinds.map added, List.forall_mem_map.mpr hkinds, h⟩

theorem of_closing (h : P (ts ++ [added (.symbol .closing)])) : Completable P ts :=
  of_added [.symbol .closing] (by simp [Token.Kind.Lexical]) h

theorem of_word (h : P (ts ++ [added (.identifier "a")])) : Completable P ts :=
  of_added [.identifier "a"] (by simp [Token.Kind.Lexical]) h

end Completable

/-- The reading from `p` is given up at the token of `q`, after tokens that can be completed so that
`P` holds of them. -/
def Refused (P : List Token → Prop) (e : SyntaxError) (p q : Parser) : Prop :=
  ∃ (fault : Fault) (ts : List Token),
    e = fault.errorAt q.current ∧ Passes p ts (q.atDepth p.depth) ∧ Completable P ts

namespace Refused

variable {P Q : List Token → Prop}

theorem of_fault (fault : Fault) (hts : Passes p ts q) (h : Completable P ts) :
    Refused P (fault.errorAt q.current) p q := by
  refine ⟨fault, ts, rfl, ?_, h⟩
  rw [← hts.depth_eq]
  exact hts

theorem of_unexpected {α : Type} {expected : Expectation} (hts : Passes p ts q)
    (h : (unexpected expected : Reads α) q = .error e r) (hP : Completable P ts) :
    Refused P e p r := by
  cases h
  exact .of_fault (.unexpected expected) hts hP

/-- What has been read before the refusal. -/
theorem after (h : Refused P e q r) (hts : Passes p ts q) (hP : ∀ us, P us → Q (ts ++ us)) :
    Refused Q e p r := by
  obtain ⟨fault, us, he, hus, vs, hlexical, hcan⟩ := h
  rw [hts.depth_eq] at hus
  refine ⟨fault, ts ++ us, he, hts.append hus, vs, hlexical, ?_⟩
  rw [List.append_assoc]
  exact hP _ hcan

theorem mono (h : Refused P e p q) (hP : ∀ ts, P ts → Q ts) : Refused Q e p q :=
  h.after (.refl p) hP

/-- What has been read before the refusal, and a closing parenthesis that is missing after what is
completed. -/
theorem enclosed (h : Refused P e q r) (hts : Passes p ts q)
    (hP : ∀ us, P us → Q (ts ++ (us ++ [added (.symbol .closing)]))) : Refused Q e p r := by
  refine Refused.after (P := fun us => Q (ts ++ us)) ?_ hts fun _ => id
  obtain ⟨fault, us, he, hus, vs, hlexical, hcan⟩ := h
  refine ⟨fault, us, he, hus, vs ++ [added (.symbol .closing)], ?_, ?_⟩
  · exact List.forall_mem_append.mpr ⟨hlexical, by simp [added, Token.Kind.Lexical]⟩
  · rw [← List.append_assoc us]
    exact hP _ hcan

/-- The number of readings under way does not matter. -/
theorem of_deeper (h : Refused P e p.deeper q) : Refused P e p q := by
  obtain ⟨fault, ts, he, hts, hcan⟩ := h
  exact ⟨fault, ts, he, hts.shallower, hcan⟩

end Refused

/-- A token that has been expected does not stand there. -/
theorem of_expect_eq_error {P : List Token → Prop} (h : Foreign e q) (hts : Passes p ts q)
    (herror : expect kind q = .error e r) (hP : Completable P ts) : Refused P e p r := by
  rcases Reads.bind_eq_error.mp herror with heat | ⟨found, q', heat, hfound⟩
  · exact absurd heat h.eat?_ne
  · rcases eat?_eq_ok.mp heat with ⟨-, t, rfl, -⟩ | ⟨-, rfl, rfl⟩
    · cases hfound
    · exact .of_unexpected hts hfound hP

theorem not_atToken_of_mem_tokenize {text : String} (h : .error e ∈ tokenize text) :
    ¬ e.AtToken := by
  obtain ⟨fault, offset, rfl⟩ := exists_fault_of_mem_tokenize h
  cases fault <;> exact id

/-- An error about a token arises in the reading of the text, and not in cutting it. -/
theorem exists_of_run_eq_error {α : Type} {reads : Reads α} {text : String}
    (h : run reads text = .error e) (he : e.AtToken) :
    ∃ p q, ofText text = .ok p ∧ reads p = .error e q ∧ Foreign e p := by
  have hitems : .error e ∉ tokenize text := fun hmem => not_atToken_of_mem_tokenize hmem he
  rcases run_eq_error.mp h with hp | ⟨p, q, hp, hreads⟩
  · exact absurd (mem_tokenize_of_ofText_eq_error hp) hitems
  · exact ⟨p, q, hp, hreads, he, fun hmem => hitems (mem_tokenize_of_mem_rest hp hmem)⟩

/-- A reading that succeeds is followed by something that is no end, or it has been refused. -/
theorem of_whole_eq_error {α : Type} {reads : Reads α} (h : Foreign e p)
    (herror : whole reads p = .error e q) :
    reads p = .error e q ∨ ∃ a, reads p = .ok a q ∧ e = (Fault.unexpected
      (.token .endOfInput)).errorAt q.current := by
  rcases whole_eq_error herror with ⟨-, rfl, -⟩ | hreads
  · exact h.atToken.elim
  · exact hreads

end Parser

end SqlPredicates
