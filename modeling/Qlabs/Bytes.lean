import Mathlib.Data.List.TakeWhile
import Mathlib.Data.Nat.Digits.Defs

/-!
# Byte strings

A C++ string is a list of bytes, of any length and with any bytes in it. A C
string is read up to its first NUL (`cStr`), which is what `printf` does with an
argument of `%s` (`stringPrintf`). What `%d` prints can be read back
(`readDecimal_decimal`).
-/

namespace Qlabs

/-- The contents of a `std::string`. -/
abbrev Bytes := List UInt8

/-- The bytes of an ASCII literal. -/
def bytes (s : String) : Bytes := s.toList.map fun c => UInt8.ofNat c.toNat

/-- The bytes of a C string: those before the first NUL. -/
def cStr (s : Bytes) : Bytes := s.takeWhile (· != 0)

/-- The decimal digits of `n`, the most significant one first. -/
def decimalNat (n : ℕ) : Bytes :=
  if n = 0 then bytes "0" else ((Nat.digits 10 n).map fun d => UInt8.ofNat (48 + d)).reverse

/-- What `%d` prints. -/
def decimal (n : ℤ) : Bytes :=
  if n < 0 then bytes "-" ++ decimalNat n.natAbs else decimalNat n.natAbs

/-- An argument of `printf`. -/
inductive PrintfArg
  | int (n : ℤ)
  | str (s : Bytes)

/-- `printf` into a string, for the conversions `%d` and `%s`. -/
def stringPrintf : Bytes → List PrintfArg → Bytes
  | 37 :: 100 :: fmt, .int n :: args => decimal n ++ stringPrintf fmt args
  | 37 :: 115 :: fmt, .str s :: args => cStr s ++ stringPrintf fmt args
  | b :: fmt, args => b :: stringPrintf fmt args
  | [], _ => []

example :
    stringPrintf (bytes "[%d] %s%") [.int (-20), .str (bytes "a%b")] = bytes "[-20] a%b%" := by
  decide

/-- The bytes before the first NUL are all of them if there is none. -/
theorem cStr_eq_self_iff {s : Bytes} : cStr s = s ↔ 0 ∉ s := by
  rw [cStr, List.takeWhile_eq_self_iff]
  constructor
  · exact fun h hmem => by simpa using h 0 hmem
  · exact fun h b hb => by simpa using ne_of_mem_of_not_mem hb h

/-! ## Reading decimals -/

/-- The number that decimal digits stand for. -/
def readDecimalNat (s : Bytes) : ℕ := Nat.ofDigits 10 (s.map fun b => b.toNat - 48).reverse

/-- The integer that decimal digits stand for, after a sign if it is negative. -/
def readDecimal : Bytes → ℤ
  | 45 :: s => -(readDecimalNat s : ℤ)
  | s => readDecimalNat s

theorem toNat_digit {d : ℕ} (h : d < 10) : (UInt8.ofNat (48 + d)).toNat = 48 + d := by
  rw [UInt8.toNat_ofNat']
  omega

theorem readDecimalNat_decimalNat (n : ℕ) : readDecimalNat (decimalNat n) = n := by
  rw [decimalNat]
  split_ifs with hn
  · subst hn
    rfl
  · have hread : ∀ d ∈ Nat.digits 10 n, (UInt8.ofNat (48 + d)).toNat - 48 = d := by
      intro d hd
      rw [toNat_digit (Nat.digits_lt_base (by omega) hd)]
      omega
    have hdigits : ((Nat.digits 10 n).map fun d => UInt8.ofNat (48 + d)).map
        (fun b => b.toNat - 48) = Nat.digits 10 n := by
      rw [List.map_map]
      exact (List.map_congr_left hread).trans (List.map_id _)
    rw [readDecimalNat, List.map_reverse, List.reverse_reverse, hdigits, Nat.ofDigits_digits]

/-- What is printed for a natural number are digits. -/
theorem digit_of_mem_decimalNat {n : ℕ} {b : UInt8} (hb : b ∈ decimalNat n) :
    48 ≤ b.toNat ∧ b.toNat ≤ 57 := by
  rw [decimalNat] at hb
  split_ifs at hb with hn
  · rw [show b = 48 by simpa [bytes] using hb]
    decide
  · obtain ⟨d, hd, rfl⟩ := List.mem_map.1 (List.mem_reverse.1 hb)
    have hlt := Nat.digits_lt_base (by omega) hd
    rw [toNat_digit hlt]
    omega

/-- What `%d` prints are digits, and a sign. -/
theorem digit_of_mem_decimal {n : ℤ} {b : UInt8} (hb : b ∈ decimal n) :
    b = 45 ∨ 48 ≤ b.toNat ∧ b.toNat ≤ 57 := by
  rw [decimal] at hb
  split_ifs at hb with hn
  · rcases List.mem_append.1 hb with hb | hb
    · exact .inl (by simpa [bytes] using hb)
    · exact .inr (digit_of_mem_decimalNat hb)
  · exact .inr (digit_of_mem_decimalNat hb)

/-- Digits without a sign stand for a natural number. -/
theorem readDecimal_of_digits {s : Bytes} (h : ∀ b ∈ s, 48 ≤ b.toNat) :
    readDecimal s = readDecimalNat s := by
  rw [readDecimal]
  rintro s rfl
  exact absurd (h 45 List.mem_cons_self) (by decide)

/-- What `%d` prints can be read back. -/
theorem readDecimal_decimal (n : ℤ) : readDecimal (decimal n) = n := by
  rw [decimal]
  split_ifs with hn
  · have hread : readDecimal (bytes "-" ++ decimalNat n.natAbs) =
        -(readDecimalNat (decimalNat n.natAbs) : ℤ) := rfl
    rw [hread, readDecimalNat_decimalNat]
    omega
  · rw [readDecimal_of_digits fun b hb => (digit_of_mem_decimalNat hb).1,
      readDecimalNat_decimalNat]
    omega

end Qlabs
