import Mathlib.Data.String.Basic
import Mathlib.Tactic.Common

/-!
# The order of texts and of their bytes

Texts are compared by the code points of their characters. Their UTF-8 forms, compared byte by byte,
have the same order. The first byte of a character grows with the number of its bytes, and characters
with the same number of bytes have the digits of their code points in them.

## Main definitions

* `Text.utf8` — the bytes of a text

## Main results

* `Text.utf8EncodeChar_lt` — the order of two characters
* `Text.utf8_lt_iff` — the order of two texts
-/

namespace SqlPredicates

namespace Text

/-- The bytes of the UTF-8 form of a text. -/
def utf8 (s : String) : List UInt8 := s.toUTF8.data.toList

theorem utf8_eq_flatMap (s : String) : utf8 s = s.toList.flatMap String.utf8EncodeChar := by
  rw [utf8, String.toUTF8_eq_toByteArray, ← String.utf8Encode_toList, List.utf8Encode,
    List.toList_data_toByteArray]

/-- The bytes behind the first one: the last `k` digits of a code point in base 64. -/
def continuation : ℕ → ℕ → List UInt8
  | 0, _ => []
  | k + 1, n => continuation k (n / 64) ++ [.ofNat (n % 64 + 128)]

/-- Where the first byte of a character begins, by the number of bytes behind it. -/
def firstByte : ℕ → ℕ
  | 0 => 0
  | 1 => 192
  | 2 => 224
  | _ => 240

/-- The code point `n` has so many bytes behind the first one. -/
inductive HasContinuation (n : ℕ) : ℕ → Prop
  | none (hn : n ≤ 0x7f) : HasContinuation n 0
  | one (hl : 0x7f < n) (hn : n ≤ 0x7ff) : HasContinuation n 1
  | two (hl : 0x7ff < n) (hn : n ≤ 0xffff) : HasContinuation n 2
  | three (hl : 0xffff < n) (hn : n < 0x110000) : HasContinuation n 3

theorem exists_utf8EncodeChar_eq (c : Char) :
    ∃ k, HasContinuation c.val.toNat k ∧ String.utf8EncodeChar c =
      .ofNat (c.val.toNat / 64 ^ k + firstByte k) :: continuation k c.val.toNat := by
  have hvalid : c.val.toNat < 0x110000 := by
    have := c.valid
    rw [UInt32.isValidChar, Nat.isValidChar] at this
    omega
  rw [String.utf8EncodeChar]
  generalize c.val.toNat = n at hvalid
  split
  · exact ⟨0, .none (by assumption), by simp [firstByte, continuation]⟩
  split
  · refine ⟨1, .one (by omega) (by assumption), ?_⟩
    rw [Nat.mod_eq_of_lt (by omega : n / 64 < 32)]
    rfl
  split
  · refine ⟨2, .two (by omega) (by assumption), ?_⟩
    rw [Nat.mod_eq_of_lt (by omega : n / 4096 < 16)]
    rfl
  · refine ⟨3, .three (by omega) hvalid, ?_⟩
    rw [Nat.mod_eq_of_lt (by omega : n / 262144 < 8), ← Nat.div_div_eq_div_mul n 64 64]
    rfl

theorem HasContinuation.lt {n k : ℕ} (h : HasContinuation n k) :
    n / 64 ^ k + firstByte k < 256 := by
  cases h <;> simp only [firstByte] <;> omega

/-- A later character does not have fewer bytes, and if it has more, then its first byte is greater. -/
theorem HasContinuation.lt_of_ne {m n k l : ℕ} (hm : HasContinuation m k)
    (hn : HasContinuation n l) (h : m < n) (hne : k ≠ l) :
    m / 64 ^ k + firstByte k < n / 64 ^ l + firstByte l := by
  cases hm <;> cases hn <;> simp only [firstByte] <;> omega

theorem ofNat_cons_lt_cons {a b : ℕ} (ha : a < 256) (hb : b < 256) {as bs : List UInt8} :
    UInt8.ofNat a :: as < UInt8.ofNat b :: bs ↔ a < b ∨ a = b ∧ as < bs := by
  rw [List.cons_lt_cons_iff, UInt8.lt_iff_toNat_lt, ← UInt8.toNat_inj, UInt8.toNat_ofNat_of_lt' ha,
    UInt8.toNat_ofNat_of_lt' hb]

/-- Of two numbers, the smaller one is smaller in front of the last digits, or it has the same there
and the smaller digits. -/
theorem continuation_lt {m n : ℕ} (h : m < n) (k : ℕ) (cs ds : List UInt8) :
    m / 64 ^ k < n / 64 ^ k ∨
      m / 64 ^ k = n / 64 ^ k ∧ continuation k m ++ cs < continuation k n ++ ds := by
  induction k generalizing m n cs ds with
  | zero => exact .inl (by simpa using h)
  | succ k ih =>
    have hdigit : m / 64 < n / 64 ∨ m / 64 = n / 64 ∧ m % 64 < n % 64 := by omega
    rw [Nat.pow_succ', ← Nat.div_div_eq_div_mul, ← Nat.div_div_eq_div_mul, continuation,
      continuation, List.append_assoc, List.append_assoc]
    rcases hdigit with hlt | ⟨heq, hlt⟩
    · exact ih hlt _ _
    · rw [heq]
      refine .inr ⟨rfl, List.append_left_lt ?_⟩
      exact (ofNat_cons_lt_cons (by omega) (by omega)).mpr (.inl (by omega))

/-- **Two characters are told apart by their bytes**, whatever follows them. -/
theorem utf8EncodeChar_lt {c d : Char} (h : c < d) (cs ds : List UInt8) :
    String.utf8EncodeChar c ++ cs < String.utf8EncodeChar d ++ ds := by
  have hlt : c.val.toNat < d.val.toNat := h
  obtain ⟨k, hc, hcbytes⟩ := exists_utf8EncodeChar_eq c
  obtain ⟨l, hd, hdbytes⟩ := exists_utf8EncodeChar_eq d
  rw [hcbytes, hdbytes, List.cons_append, List.cons_append, ofNat_cons_lt_cons hc.lt hd.lt]
  by_cases hk : k = l
  · subst hk
    rcases continuation_lt hlt k cs ds with hless | ⟨heq, hrest⟩
    · exact .inl (Nat.add_lt_add_right hless _)
    · exact .inr ⟨by rw [heq], hrest⟩
  · exact .inl (hc.lt_of_ne hd hlt hk)

theorem flatMap_utf8EncodeChar_lt {cs ds : List Char} (h : cs < ds) :
    cs.flatMap String.utf8EncodeChar < ds.flatMap String.utf8EncodeChar := by
  induction h with
  | @nil d ds =>
    have hne : String.utf8EncodeChar d ≠ [] := by simp
    obtain ⟨b, bs, hb⟩ := List.exists_cons_of_ne_nil hne
    rw [List.flatMap_cons, hb]
    exact List.nil_lt_cons _ _
  | @cons c cs ds _ ih => exact List.append_left_lt ih
  | @rel c cs d ds h => exact utf8EncodeChar_lt h _ _

/-- **Texts have the order of their bytes.** -/
theorem utf8_lt_iff {s t : String} : utf8 s < utf8 t ↔ s < t := by
  have himp : ∀ {s t : String}, s < t → utf8 s < utf8 t := by
    intro s t h
    rw [utf8_eq_flatMap, utf8_eq_flatMap]
    exact flatMap_utf8EncodeChar_lt (String.lt_iff_toList_lt.mp h)
  refine ⟨fun h => ?_, himp⟩
  rcases lt_trichotomy s t with hlt | rfl | hgt
  · exact hlt
  · exact absurd h (List.lt_irrefl _)
  · exact absurd h (List.lt_asymm (himp hgt))

end Text

end SqlPredicates
