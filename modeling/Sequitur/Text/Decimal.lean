/-
Decimal numbers of any length.

Zeros may stand in front without end, so a bound is put on the digits behind them. A number beyond the bound has no value
here, and its digits are not worked out. Main statement: `decimal?_toDigits`.
-/
namespace Sequitur.Text

/-- digits without the zeros in front -/
def significant (ds : List Char) : List Char := ds.dropWhile fun c => c == '0'

/-- the number that digits spell, unless more than `most` of them are significant -/
def decimal? (most : Nat) (ds : List Char) : Option Nat :=
  if (significant ds).length ≤ most then some (Nat.ofDigitChars 10 ds 0) else none

theorem length_significant_replicate (zeros : Nat) (ds : List Char) :
    (significant (List.replicate zeros '0' ++ ds)).length ≤ ds.length := by
  rw [significant, List.dropWhile_append_of_pos (fun c hc => by simp [(List.mem_replicate.1 hc).2])]
  exact (List.dropWhile_sublist _).length_le

/-- a number written with zeros in front is read back if it has not too many digits -/
theorem decimal?_toDigits {most n : Nat} (h : (Nat.toDigits 10 n).length ≤ most) (zeros : Nat) :
    decimal? most (List.replicate zeros '0' ++ Nat.toDigits 10 n) = some n := by
  have hs := length_significant_replicate zeros (Nat.toDigits 10 n)
  rw [decimal?, if_pos (Nat.le_trans hs h), Nat.ofDigitChars_append, Nat.ofDigitChars_replicate_zero, Nat.mul_zero,
    Nat.ofDigitChars_toDigits (by decide) (by decide)]

end Sequitur.Text
