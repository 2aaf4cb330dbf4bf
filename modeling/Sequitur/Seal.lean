/-
Seals: a text that has left the program and come back is trusted only if its seal still fits.

The seal of a text is the SHA3-256 hash of the text behind a fixed salt, in upper-case hexadecimal. A given seal may be
spelled in lower case. Main statements: `verifies_sealOf` (a text fits its own seal) and `verifies_sealOf_iff` (it fits that
of another text only if the two have one hash).
-/
import Sequitur.Keccak

namespace Sequitur

def sealSalt : String := "truthtable result, altering it invalidates the verdict|"

/-- an upper-case hexadecimal digit -/
def hexUpper (n : Nat) : Char := Char.ofNat (if n < 10 then 48 + n else 55 + n)

/-- two digits for a byte -/
def hexByte (b : UInt8) : List Char := [hexUpper (b.toNat / 16), hexUpper (b.toNat % 16)]

/-- the seal of a text -/
def sealOf (text : String) : String :=
  String.ofList ((Keccak.sha3 (sealSalt ++ text).toUTF8.toList).flatMap hexByte)

/-- upper case, as far as it can spell a seal: the letters a to f, and the ligature of two f -/
def upperHex (c : Char) : List Char :=
  if 'a' ≤ c ∧ c ≤ 'f' then [Char.ofNat (c.toNat - 32)]
  else if c = 'ﬀ' then ['F', 'F']
  else [c]

/-- whether a seal fits a text -/
def verifies (text given : String) : Bool := (sealOf text).toList == given.toList.flatMap upperHex

theorem upperHex_hexUpper {n : Nat} (h : n < 16) : upperHex (hexUpper n) = [hexUpper n] := by
  revert n
  decide

theorem upper_hexBytes (bs : List UInt8) : (bs.flatMap hexByte).flatMap upperHex = bs.flatMap hexByte := by
  induction bs with
  | nil => rfl
  | cons b bs ih =>
    have h₁ : b.toNat / 16 < 16 := by have := b.toNat_lt; omega
    have h₂ : b.toNat % 16 < 16 := by omega
    simp only [List.flatMap_cons, List.flatMap_append, ih]
    simp [hexByte, upperHex_hexUpper h₁, upperHex_hexUpper h₂]

/-- a seal fits the text it was made for -/
theorem verifies_sealOf (text : String) : verifies text (sealOf text) = true := by
  simp [verifies, sealOf, upper_hexBytes]

theorem hexUpper_inj : ∀ n < 16, ∀ m < 16, hexUpper n = hexUpper m → n = m := by decide

/-- two digits show the byte -/
theorem hexByte_inj {a b : UInt8} (h : hexByte a = hexByte b) : a = b := by
  have ha : a.toNat < 256 := a.toNat_lt
  have hb : b.toNat < 256 := b.toNat_lt
  obtain ⟨hhigh, hrest⟩ := List.cons.inj h
  obtain ⟨hlow, -⟩ := List.cons.inj hrest
  have h₁ : a.toNat / 16 = b.toNat / 16 := hexUpper_inj _ (by omega) _ (by omega) hhigh
  have h₂ : a.toNat % 16 = b.toNat % 16 := hexUpper_inj _ (by omega) _ (by omega) hlow
  apply UInt8.toNat_inj.1
  omega

theorem flatMap_hexByte_inj {as bs : List UInt8} (h : as.flatMap hexByte = bs.flatMap hexByte) : as = bs := by
  induction as generalizing bs with
  | nil =>
    cases bs with
    | nil => rfl
    | cons b bs => cases h
  | cons a as ih =>
    cases bs with
    | nil => cases h
    | cons b bs =>
      rw [List.flatMap_cons, List.flatMap_cons] at h
      obtain ⟨hbyte, hrest⟩ := List.append_inj h rfl
      rw [hexByte_inj hbyte, ih hrest]

/-- the seal of another text fits only if the two have one hash -/
theorem verifies_sealOf_iff {text other : String} : verifies text (sealOf other) = true ↔
    Keccak.sha3 (sealSalt ++ text).toUTF8.toList = Keccak.sha3 (sealSalt ++ other).toUTF8.toList := by
  rw [verifies, beq_iff_eq, sealOf, sealOf, String.toList_ofList, String.toList_ofList, upper_hexBytes]
  constructor
  · intro h
    exact flatMap_hexByte_inj h
  · intro h
    rw [h]

end Sequitur
