import Mathlib

/-!
# UUIDs and their text

A UUID is a 128-bit word.  What the development needs of its text is only that the parser
accepts what the formatter writes; a `UuidCodec` carries the two with that law.  The codec
`UuidCodec.hex` writes and reads thirty-two hexadecimal digits, and `UuidCodec.dashed` the same
digits in five groups.
-/

namespace Metap

abbrev Uuid := BitVec 128

/-- A text form of UUIDs: what is written is read back. -/
structure UuidCodec where
  parse : String → Option Uuid
  format : Uuid → String
  parse_format : ∀ u, parse (format u) = some u

attribute [simp] UuidCodec.parse_format

namespace UuidCodec

def hexDigit (n : ℕ) : Char := "0123456789abcdef".toList.getD n '0'

def hexValue (c : Char) : Option ℕ := "0123456789abcdef".toList.idxOf? c

/-- The last `k` hexadecimal digits of `n`, most significant first. -/
def digits : ℕ → ℕ → List Char
  | 0, _ => []
  | k + 1, n => digits k (n / 16) ++ [hexDigit (n % 16)]

def readDigit (acc : Option ℕ) (c : Char) : Option ℕ := do
  let n ← acc
  let d ← hexValue c
  return n * 16 + d

def readDigits (cs : List Char) : Option ℕ := cs.foldl readDigit (some 0)

theorem hexValue_hexDigit : ∀ n < 16, hexValue (hexDigit n) = some n := by decide

theorem readDigits_digits (k n : ℕ) : readDigits (digits k n) = some (n % 16 ^ k) := by
  induction k generalizing n with
  | zero => simp [digits, readDigits, Nat.mod_one]
  | succ k ih =>
    have hstep : readDigits (digits (k + 1) n) =
        readDigit (readDigits (digits k (n / 16))) (hexDigit (n % 16)) := by
      simp [digits, readDigits, List.foldl_append]
    have hlast := hexValue_hexDigit (n % 16) (Nat.mod_lt _ (by norm_num))
    rw [hstep, ih]
    simp only [readDigit, hlast, Option.bind_eq_bind, Option.bind_some, Option.pure_def,
      Option.some.injEq]
    rw [pow_succ, mul_comm (16 ^ k) 16, Nat.mod_mul]
    ring

@[simp]
theorem length_digits (k n : ℕ) : (digits k n).length = k := by
  induction k generalizing n with
  | zero => rfl
  | succ k ih => simp [digits, ih]

theorem exists_hexDigit_of_mem_digits {k n : ℕ} {c : Char} (h : c ∈ digits k n) :
    ∃ d < 16, c = hexDigit d := by
  induction k generalizing n with
  | zero => exact absurd h List.not_mem_nil
  | succ k ih =>
    rw [digits, List.mem_append, List.mem_singleton] at h
    rcases h with h | rfl
    · exact ih h
    · exact ⟨n % 16, Nat.mod_lt _ (by norm_num), rfl⟩

theorem hexDigit_ne_dash : ∀ d < 16, hexDigit d ≠ '-' := by decide

/-- Thirty-two hexadecimal digits. -/
def hex : UuidCodec where
  parse s := if s.toList.length = 32 then (readDigits s.toList).map (BitVec.ofNat 128) else none
  format u := String.ofList (digits 32 u.toNat)
  parse_format u := by
    have hlt : u.toNat < 16 ^ 32 := u.isLt
    simp only [String.toList_ofList, length_digits, if_true, readDigits_digits,
      Nat.mod_eq_of_lt hlt, Option.map_some, BitVec.ofNat_toNat, BitVec.setWidth_eq]

/-- Thirty-two digits in groups of eight, four, four, four and twelve. -/
def dash (cs : List Char) : List Char :=
  cs.take 8 ++ '-' :: ((cs.drop 8).take 4 ++ '-' :: ((cs.drop 12).take 4 ++
    '-' :: ((cs.drop 16).take 4 ++ '-' :: cs.drop 20)))

theorem filter_dash {cs : List Char} (h : ∀ c ∈ cs, c ≠ '-') : (dash cs).filter (· ≠ '-') = cs := by
  have hpart : ∀ {ds : List Char}, ds.Sublist cs → ds.filter (· ≠ '-') = ds := by
    intro ds hsub
    exact List.filter_eq_self.mpr fun c hc => decide_eq_true (h c (hsub.mem hc))
  have hdrop : ∀ k, (cs.drop k).filter (· ≠ '-') = cs.drop k := fun k =>
    hpart (List.drop_sublist k cs)
  have htake : ∀ k n, ((cs.drop k).take n).filter (· ≠ '-') = (cs.drop k).take n := fun k n =>
    hpart ((List.take_sublist n _).trans (List.drop_sublist k cs))
  have hfirst : (cs.take 8).filter (· ≠ '-') = cs.take 8 := hpart (List.take_sublist 8 cs)
  have hjoin : ∀ k n, (cs.drop k).take n ++ cs.drop (k + n) = cs.drop k := by
    intro k n
    rw [← List.drop_drop, List.take_append_drop]
  rw [dash]
  simp only [List.filter_append, List.filter_cons, htake, hdrop, hfirst]
  simp [hjoin]

/-- The text of a UUID in its usual form. -/
def dashed : UuidCodec where
  parse s := hex.parse (String.ofList (s.toList.filter (· ≠ '-')))
  format u := String.ofList (dash (digits 32 u.toNat))
  parse_format u := by
    have hnone : ∀ c ∈ digits 32 u.toNat, c ≠ '-' := by
      intro c hc
      obtain ⟨d, hd, rfl⟩ := exists_hexDigit_of_mem_digits hc
      exact hexDigit_ne_dash d hd
    rw [String.toList_ofList, filter_dash hnone]
    exact hex.parse_format u

end UuidCodec

end Metap
