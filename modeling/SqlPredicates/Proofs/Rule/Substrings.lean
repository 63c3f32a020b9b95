import SqlPredicates.Rule.StandardFunctions
import Mathlib.Algebra.Order.Group.Int
import Mathlib.Tactic.Common

/-!
# Parts of strings

`substring`, `left` and `right` take parts of a string by position. Positions and counts are integers
of 64 bits, and the end of a part is their sum. `substring` does not leave the range of these
integers: a sum beyond the last one is replaced by the last one, and a start before the first
character by the first character. No string reaches that far, so the characters that are taken are
those between the bounds over the unbounded integers.

## Main definitions

* `Text.between` — the characters at the positions between two bounds
* `StandardFunctions.answer?` — a call of a standard function

## Main results

* `Text.between_eq_take_drop` — the characters between two bounds stand together
* `StandardFunctions.substring_eq_between` — `substring` over the unbounded integers
* `StandardFunctions.parts_of_strings` — the three functions
-/

namespace SqlPredicates

namespace Text

/-- The characters whose positions, counted from one, are at least `start` and less than `stop`. -/
def between (start stop : ℤ) (cs : List Char) : List Char :=
  ((cs.zipIdx 1).filter fun e => start ≤ e.2 ∧ e.2 < stop).map Prod.fst

/-- Characters counted from `k`. The count grows from one character to the next, so first some are
before the bounds, and then as many are taken as there are positions up to `stop`. -/
theorem filter_zipIdx_eq_take_drop (start stop : ℤ) (cs : List Char) (k : ℕ) :
    ((cs.zipIdx k).filter fun e => start ≤ e.2 ∧ e.2 < stop).map Prod.fst =
      (cs.drop (start - k).toNat).take (stop - max start k).toNat := by
  induction cs generalizing k with
  | nil => simp
  | cons c cs ih =>
    rw [List.zipIdx_cons, List.filter_cons]
    rcases lt_or_ge (k : ℤ) start with hbefore | hfrom
    · have hout : ¬ (start ≤ k ∧ k < stop) := fun h => absurd h.1 (not_le.mpr hbefore)
      have hdrop : (start - k).toNat = (start - (k + 1 : ℕ)).toNat + 1 := by omega
      have htake : max start (k : ℤ) = max start (k + 1 : ℕ) := by omega
      rw [if_neg (by simpa using hout), ih, hdrop, List.drop_succ_cons, htake]
    · have hdrop : (start - k).toNat = 0 := by omega
      have hdrop' : (start - (k + 1 : ℕ)).toNat = 0 := by omega
      rw [hdrop, List.drop_zero]
      rcases lt_or_ge (k : ℤ) stop with hin | hpast
      · have htake : (stop - max start k).toNat = (stop - max start (k + 1 : ℕ)).toNat + 1 := by
          omega
        rw [if_pos (by simpa using And.intro hfrom hin), List.map_cons, ih, hdrop', List.drop_zero,
          htake, List.take_succ_cons]
      · have hout : ¬ (start ≤ k ∧ k < stop) := fun h => absurd h.2 (not_lt.mpr hpast)
        have htake : (stop - max start k).toNat = 0 := by omega
        have htake' : (stop - max start (k + 1 : ℕ)).toNat = 0 := by omega
        rw [if_neg (by simpa using hout), ih, htake, htake', List.take_zero, List.take_zero]

theorem between_eq_take_drop (start stop : ℤ) (cs : List Char) :
    between start stop cs = (cs.drop (start - 1).toNat).take (stop - max start 1).toNat :=
  filter_zipIdx_eq_take_drop start stop cs 1

end Text

namespace StandardFunctions

variable {s : String}

/-! ### Strings and counts -/

theorem clamp_of_mem {n : ℤ} (hl : -0x8000000000000000 ≤ n) (hu : n ≤ 0x7fffffffffffffff) :
    clamp n = n := by
  rw [clamp]
  omega

/-- **`substring` over the unbounded integers.** If the end of the part is beyond the integers of 64
bits, then it is behind the last character as well, and so is the last one of these integers. -/
theorem substring_eq_between (hs : s.toList.length < 0x7fffffffffffffff) (start : Int64)
    (length : ℕ) : substring s start.toInt length =
      String.ofList (Text.between start.toInt (start.toInt + length) s.toList) := by
  have hlow := start.le_toInt
  have hhigh := start.toInt_lt
  have hdrop : (max start.toInt 1 - 1).toNat = (start.toInt - 1).toNat := by omega
  rw [substring, Text.between_eq_take_drop, hdrop]
  rcases le_or_gt (start.toInt + length) 0x7fffffffffffffff with hin | hbeyond
  · rw [clamp_of_mem (by omega) hin]
    have htake : (clamp (start.toInt + length - max start.toInt 1)).toNat =
        (start.toInt + length - max start.toInt 1).toNat := by
      rw [clamp]
      omega
    rw [htake]
  · have hstop : clamp (start.toInt + length) = 0x7fffffffffffffff := by
      rw [clamp]
      omega
    have hleft : (s.toList.drop (start.toInt - 1).toNat).length ≤
        (0x7fffffffffffffff - max start.toInt 1).toNat := by
      rw [List.length_drop]
      omega
    rw [hstop, clamp_of_mem (by omega) (by omega), List.take_of_length_le hleft,
      List.take_of_length_le (hleft.trans (by omega))]

theorem left_eq_between (s : String) (n : ℕ) :
    left s n = String.ofList (Text.between 1 (1 + n) s.toList) := by
  have hn : ((1 : ℤ) + n - max 1 1).toNat = n := by omega
  rw [left, Text.between_eq_take_drop, hn]
  rfl

theorem right_suffix (s : String) (n : ℕ) :
    (right s n).toList <:+ s.toList ∧ (right s n).toList.length = min n s.toList.length := by
  rw [right, String.toList_ofList]
  refine ⟨List.drop_suffix _ _, ?_⟩
  rw [List.length_drop]
  omega

/-- The first characters and the others make up the string. -/
theorem left_append_right {n m : ℕ} (h : n + m = s.toList.length) : left s n ++ right s m = s := by
  have hskip : s.toList.length - m = n := by omega
  rw [left, right, hskip, ← String.ofList_append, List.take_append_drop, String.ofList_toList]

/-! ### Calls -/

/-- The answer of a standard function, if there is one of that name. -/
def answer? (name : String) (args : List Value) : Option (Except CallError Value) :=
  (Registry.standard.get? name).map fun f => f.call args

/-- A body that takes a string and a count. -/
theorem onCount_eq (f : String → ℕ → Value) (s : String) (n : Int64) :
    onCount f [.string s, .integer n] =
      if n.toInt < 0 then .error (.negativeLength 2) else .ok (f s n.toInt.toNat) := by
  rw [onCount, count]
  split <;> rfl

theorem substringBody_eq (s : String) (start length : Int64) :
    substringBody [.string s, .integer start, .integer length] =
      if length.toInt < 0 then .error (.negativeLength 3)
      else .ok (.string (substring s start.toInt length.toInt.toNat)) := by
  rw [substringBody, count]
  split <;> rfl

theorem answer?_left (s : String) (n : Int64) :
    answer? "left" [.string s, .integer n] =
      some (if n.toInt < 0 then .error (.negativeLength 2)
        else .ok (.string (left s n.toInt.toNat))) :=
  congrArg some (onCount_eq (fun s n => .string (left s n)) s n)

theorem answer?_right (s : String) (n : Int64) :
    answer? "right" [.string s, .integer n] =
      some (if n.toInt < 0 then .error (.negativeLength 2)
        else .ok (.string (right s n.toInt.toNat))) :=
  congrArg some (onCount_eq (fun s n => .string (right s n)) s n)

theorem answer?_substring (s : String) (start length : Int64) :
    answer? "substring" [.string s, .integer start, .integer length] =
      some (if length.toInt < 0 then .error (.negativeLength 3)
        else .ok (.string (substring s start.toInt length.toInt.toNat))) :=
  congrArg some (substringBody_eq s start length)

theorem answer?_substring_eq_between (hs : s.toList.length < 0x7fffffffffffffff)
    (start length : Int64) :
    answer? "substring" [.string s, .integer start, .integer length] =
      some (if length.toInt < 0 then .error (.negativeLength 3)
        else .ok (.string (String.ofList
          (Text.between start.toInt (start.toInt + length.toInt) s.toList)))) := by
  rw [answer?_substring]
  split
  · rfl
  · next hlength =>
    rw [substring_eq_between hs, Int.toNat_of_nonneg (not_lt.mp hlength)]

end StandardFunctions

open StandardFunctions in
/-- **Parts of strings**, which have fewer characters than the last integer of 64 bits. `substring` is
refused for a negative length, and otherwise it has the characters at the positions from `start` on,
up to and without `start + length`, over the unbounded integers. `left` and `right` are refused for a
negative count. Otherwise `left` is `substring` from the first position on, and `right` is the suffix
with that many characters, or the whole string if it is shorter. A string is cut in two by `left` and
`right` when their counts add up to its length. -/
theorem parts_of_strings {s : String} (hs : s.toList.length < 0x7fffffffffffffff) :
    (∀ start length : Int64,
      answer? "substring" [.string s, .integer start, .integer length] =
        some (if length.toInt < 0 then .error (.negativeLength 3)
          else .ok (.string (String.ofList
            (Text.between start.toInt (start.toInt + length.toInt) s.toList))))) ∧
      (∀ n : Int64, n.toInt < 0 →
        answer? "left" [.string s, .integer n] = some (.error (.negativeLength 2)) ∧
          answer? "right" [.string s, .integer n] = some (.error (.negativeLength 2))) ∧
      (∀ n : Int64, 0 ≤ n.toInt →
        answer? "left" [.string s, .integer n] =
            answer? "substring" [.string s, .integer 1, .integer n] ∧
          ∃ t, answer? "right" [.string s, .integer n] = some (.ok (.string t)) ∧
            t.toList <:+ s.toList ∧ t.toList.length = min n.toInt.toNat s.toList.length) ∧
      ∀ n : Int64, 0 ≤ n.toInt → n.toInt ≤ s.toList.length → ∃ t u,
        answer? "left" [.string s, .integer n] = some (.ok (.string t)) ∧
          answer? "right" [.string s, .integer (Int64.ofInt (s.toList.length - n.toInt))] =
            some (.ok (.string u)) ∧
          t ++ u = s := by
  refine ⟨answer?_substring_eq_between hs, ?_, ?_, ?_⟩
  · intro n hn
    rw [answer?_left, answer?_right, if_pos hn, if_pos hn]
    exact ⟨rfl, rfl⟩
  · intro n hn
    have hn' := not_lt.mpr hn
    rw [answer?_substring_eq_between hs, answer?_left, answer?_right, if_neg hn', if_neg hn',
      if_neg hn', left_eq_between, Int.toNat_of_nonneg hn]
    exact ⟨rfl, _, rfl, right_suffix s n.toInt.toNat⟩
  · intro n hn hle
    have hm : (Int64.ofInt (s.toList.length - n.toInt)).toInt = s.toList.length - n.toInt :=
      Int64.toInt_ofInt_of_le (by omega) (by omega)
    rw [answer?_left, answer?_right, hm, if_neg (not_lt.mpr hn), if_neg (by omega)]
    exact ⟨_, _, rfl, rfl, left_append_right (by omega)⟩

open StandardFunctions in
/-- Parts of `abcdef`: a start in front of the first character, an end that no integer of 64 bits can
be, the last length on both sides of the string, and a string that is shorter than the count. -/
theorem parts_of_strings_abcdef :
    "abcdef".toList.length < 0x7fffffffffffffff ∧
      answer? "substring" [.string "abcdef", .integer (-1), .integer 4] =
        some (.ok (.string "ab")) ∧
      answer? "substring" [.string "abcdef", .integer 3, .integer Int64.maxValue] =
        some (.ok (.string "cdef")) ∧
      answer? "substring" [.string "abcdef", .integer Int64.minValue, .integer Int64.maxValue] =
        some (.ok (.string "")) ∧
      answer? "substring" [.string "abcdef", .integer Int64.maxValue, .integer (-1)] =
        some (.error (.negativeLength 3)) ∧
      (answer? "left" [.string "abcdef", .integer (-1)] = some (.error (.negativeLength 2)) ∧
        answer? "right" [.string "abcdef", .integer (-1)] = some (.error (.negativeLength 2))) ∧
      (∃ t, answer? "right" [.string "abcdef", .integer 20] = some (.ok (.string t)) ∧
        t.toList <:+ "abcdef".toList ∧ t.toList.length = 6) ∧
      ∃ t u, answer? "left" [.string "abcdef", .integer 2] = some (.ok (.string t)) ∧
        answer? "right" [.string "abcdef", .integer 4] = some (.ok (.string u)) ∧
        t ++ u = "abcdef" := by
  have hs : "abcdef".toList.length < 0x7fffffffffffffff := by decide
  obtain ⟨hsubstring, hnegative, hcount, hcut⟩ := parts_of_strings hs
  exact ⟨hs, hsubstring (-1) 4, hsubstring 3 Int64.maxValue,
    hsubstring Int64.minValue Int64.maxValue, hsubstring Int64.maxValue (-1),
    hnegative (-1) (by decide), (hcount 20 (by decide)).2, hcut 2 (by decide) (by decide)⟩

end SqlPredicates
